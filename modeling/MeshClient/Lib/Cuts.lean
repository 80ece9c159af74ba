import Mathlib

-- Lists cut into consecutive groups by an automaton that decides, for each element, whether it joins the
-- group of the one before it.
namespace Cuts

variable {α σ : Type*}

-- `group` is the group that is being read.
def cut (group : List α) : List (Bool × α) → List (List α)
  | [] => [group]
  | (true, x) :: rest => cut (group ++ [x]) rest
  | (false, x) :: rest => group :: cut [x] rest

def groups : List (Bool × α) → List (List α)
  | [] => []
  | (_, x) :: rest => cut [x] rest

def marks (joins : σ → α → Bool) (next : σ → α → σ) : σ → List α → List (Bool × α)
  | _, [] => []
  | s, x :: xs => (joins s x, x) :: marks joins next (next s x) xs

-- Each element is looked at together with the one before it.
def pairMarks (r : α → α → Bool) : Option α → List α → List (Bool × α) :=
  marks (fun previous x => previous.any (r · x)) fun _ x => some x

theorem cut_head (group : List α) (xs : List (Bool × α)) :
    ∃ tail rest, cut group xs = (group ++ tail) :: rest := by
  induction xs generalizing group with
  | nil => exact ⟨[], [], by simp [cut]⟩
  | cons x xs ih =>
      obtain ⟨joins, x⟩ := x
      cases joins with
      | false => exact ⟨[], cut [x] xs, by simp [cut]⟩
      | true =>
          obtain ⟨tail, rest, h⟩ := ih (group ++ [x])
          exact ⟨x :: tail, rest, by rw [cut, h, List.append_assoc, List.singleton_append]⟩

theorem cut_inj {group : List α} {xs ys : List (Bool × α)} (hsame : xs.map Prod.snd = ys.map Prod.snd)
    (h : cut group xs = cut group ys) : xs = ys := by
  induction xs generalizing group ys with
  | nil => exact (List.map_eq_nil_iff.mp hsame.symm).symm
  | cons x xs ih =>
      cases ys with
      | nil => cases hsame
      | cons y ys =>
          obtain ⟨a, x⟩ := x
          obtain ⟨b, y⟩ := y
          obtain ⟨rfl, hrest⟩ := List.cons.inj hsame
          cases a with
          | false =>
              cases b with
              | false => rw [ih hrest (List.cons.inj h).2]
              | true =>
                  obtain ⟨tail, rest, hcut⟩ := cut_head (group ++ [x]) ys
                  rw [cut, cut, hcut] at h
                  have hlen := congrArg List.length (List.cons.inj h).1
                  simp at hlen
          | true =>
              cases b with
              | true => rw [ih hrest h]
              | false =>
                  obtain ⟨tail, rest, hcut⟩ := cut_head (group ++ [x]) xs
                  rw [cut, cut, hcut] at h
                  have hlen := congrArg List.length (List.cons.inj h).1
                  simp at hlen

@[simp] theorem marks_map_snd (joins : σ → α → Bool) (next : σ → α → σ) (s : σ) (xs : List α) :
    (marks joins next s xs).map Prod.snd = xs := by
  induction xs generalizing s with
  | nil => rfl
  | cons x xs ih => rw [marks, List.map_cons, ih]

theorem splitBy_loop_eq (r : α → α → Bool) (xs : List α) (a : α) (group : List α) (done : List (List α)) :
    List.splitBy.loop r xs a group done =
      done.reverse ++ cut (group.reverse ++ [a]) (pairMarks r (some a) xs) := by
  induction xs generalizing a group done with
  | nil => simp [List.splitBy.loop, pairMarks, marks, cut]
  | cons x xs ih =>
      rw [List.splitBy.loop]
      cases hr : r a x with
      | true =>
          dsimp only
          rw [ih]
          simp [pairMarks, marks, cut, hr]
      | false =>
          dsimp only
          rw [ih]
          simp [pairMarks, marks, cut, hr]

theorem splitBy_eq_groups (r : α → α → Bool) (xs : List α) :
    xs.splitBy r = groups (pairMarks r none xs) := by
  cases xs with
  | nil => rfl
  | cons x xs => exact splitBy_loop_eq r xs x [] []

-- Two automata form the same groups when they agree on every element but the first.
theorem groups_eq_iff {τ : Type*} {joins : σ → α → Bool} {next : σ → α → σ} {joins' : τ → α → Bool}
    {next' : τ → α → τ} {s : σ} {t : τ} {x : α} {xs : List α} :
    groups (marks joins next s (x :: xs)) = groups (marks joins' next' t (x :: xs)) ↔
      marks joins next (next s x) xs = marks joins' next' (next' t x) xs := by
  rw [marks, marks, groups, groups]
  exact ⟨cut_inj (by simp), congrArg _⟩

end Cuts
