import Mathlib

-- Searching a text for the leftmost place a reader accepts, and rewriting every such place.
-- A reader looks at the text from one place on.
namespace Scan

variable {α β : Type*}

def scan (f : List α → Option β) : List α → Option β
  | [] => f []
  | x :: xs => (f (x :: xs)).or (scan f xs)

-- `m` tells how many symbols a match takes after its first one, and what is put in its place.
def replaceFrom (m : List α → Option (Nat × List α)) : Nat → List α → List α
  | _, [] => []
  | n + 1, _ :: xs => replaceFrom m n xs
  | 0, x :: xs =>
      match m (x :: xs) with
      | none => x :: replaceFrom m 0 xs
      | some (n, out) => out ++ replaceFrom m n xs

def replaceAll (m : List α → Option (Nat × List α)) (xs : List α) : List α := replaceFrom m 0 xs

section

variable {f : List α → Option β} {xs front rest : List α}

theorem scan_cons_of_none {x : α} (h : f (x :: xs) = none) : scan f (x :: xs) = scan f xs := by
  rw [scan, h, Option.none_or]

theorem scan_of_some {b : β} (h : f xs = some b) : scan f xs = some b := by
  cases xs with
  | nil => exact h
  | cons x xs => rw [scan, h, Option.some_or]

-- Places where the reader accepts nothing are skipped.
theorem scan_skip (h : ∀ back x xs, front = back ++ x :: xs → f (x :: xs ++ rest) = none) :
    scan f (front ++ rest) = scan f rest := by
  induction front with
  | nil => rfl
  | cons x front ih =>
      have hx : f (x :: (front ++ rest)) = none := h [] x front rfl
      rw [List.cons_append, scan_cons_of_none hx]
      apply ih
      intro back y ys hsplit
      apply h (x :: back)
      rw [hsplit, List.cons_append]

-- A reader that accepts only behind a given symbol finds nothing where the symbol is missing.
theorem scan_skip_of_head {p : α → Prop} (hf : ∀ x xs, ¬ p x → f (x :: xs) = none)
    (h : ∀ x ∈ front, ¬ p x) : scan f (front ++ rest) = scan f rest := by
  apply scan_skip
  intro back x xs hsplit
  rw [List.cons_append]
  apply hf
  apply h
  rw [hsplit]
  simp

end

section

variable {m : List α → Option (Nat × List α)} {xs : List α}

theorem replaceFrom_eq_drop (n : Nat) : replaceFrom m n xs = replaceAll m (xs.drop n) := by
  induction n generalizing xs with
  | zero => rfl
  | succ n ih =>
      cases xs with
      | nil => simp [replaceFrom, replaceAll]
      | cons x xs => rw [replaceFrom, ih, List.drop_succ_cons]

@[simp] theorem replaceAll_nil : replaceAll m [] = [] := by simp [replaceAll, replaceFrom]

theorem replaceAll_cons_of_none {x : α} (h : m (x :: xs) = none) :
    replaceAll m (x :: xs) = x :: replaceAll m xs := by
  simp [replaceAll, replaceFrom, h]

theorem replaceAll_cons_of_some {x : α} {n : Nat} {out : List α} (h : m (x :: xs) = some (n, out)) :
    replaceAll m (x :: xs) = out ++ replaceAll m (xs.drop n) := by
  rw [← replaceFrom_eq_drop]
  simp [replaceAll, replaceFrom, h]

theorem replaceAll_skip_of_head {p : α → Prop} {front rest : List α}
    (hm : ∀ x xs, ¬ p x → m (x :: xs) = none) (h : ∀ x ∈ front, ¬ p x) :
    replaceAll m (front ++ rest) = front ++ replaceAll m rest := by
  induction front with
  | nil => rfl
  | cons x front ih =>
      rw [List.cons_append, replaceAll_cons_of_none (hm x _ (h x List.mem_cons_self)),
        ih fun y hy => h y (List.mem_cons_of_mem x hy), List.cons_append]

theorem replaceAll_eq_self {p : α → Prop} (hm : ∀ x xs, ¬ p x → m (x :: xs) = none)
    (h : ∀ x ∈ xs, ¬ p x) : replaceAll m xs = xs := by
  have hskip := @replaceAll_skip_of_head _ _ p xs [] hm h
  simpa using hskip

-- A text written block by block is rewritten block by block when no match crosses the blocks.
theorem replaceAll_flatMap {γ : Type*} {e e' : γ → List α}
    (h : ∀ c rest, replaceAll m (e c ++ rest) = e' c ++ replaceAll m rest) (cs : List γ) :
    replaceAll m (cs.flatMap e) = cs.flatMap e' := by
  induction cs with
  | nil => simp
  | cons c cs ih => rw [List.flatMap_cons, h, ih, List.flatMap_cons]

end

section

variable [DecidableEq α]

-- The text before the leftmost place where `p` stands.
def upTo (p : List α) : List α → Option (List α)
  | [] => if p = [] then some [] else none
  | x :: xs => if p <+: x :: xs then some [] else (upTo p xs).map (x :: ·)

theorem upTo_prefix {p xs : List α} (h : p <+: xs) : upTo p xs = some [] := by
  cases xs with
  | nil => simp [upTo, List.prefix_nil.mp h]
  | cons x xs => rw [upTo, if_pos h]

theorem upTo_append {a : α} {p front rest : List α} (ha : a ∉ front) (hp : a :: p <+: rest) :
    upTo (a :: p) (front ++ rest) = some front := by
  induction front with
  | nil => exact upTo_prefix hp
  | cons x front ih =>
      rw [List.mem_cons, not_or] at ha
      have hnot : ¬ a :: p <+: x :: (front ++ rest) := by
        intro hpre
        exact ha.1 (List.cons_prefix_cons.mp hpre).1
      rw [List.cons_append, upTo, if_neg hnot, ih ha.2, Option.map_some]

-- A literal pattern and the text put in its place; an empty pattern stands nowhere.
def literal (p out : List α) (xs : List α) : Option (Nat × List α) :=
  if p <+: xs then some (p.length - 1, out) else none

theorem literal_of_ne {a : α} {p out : List α} {x : α} {xs : List α} (h : a ≠ x) :
    literal (a :: p) out (x :: xs) = none := by
  simp [literal, h]

end

end Scan
