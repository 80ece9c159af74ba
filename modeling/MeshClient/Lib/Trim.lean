import Mathlib

-- Removing what is matched at both ends of a list.
namespace Trim

variable {α : Type*} (p : α → Bool)

def trim (xs : List α) : List α := (xs.dropWhile p).rdropWhile p

structure Neat (xs : List α) : Prop where
  head : ∀ x ∈ xs.head?, p x = false
  last : ∀ x ∈ xs.getLast?, p x = false

variable {p} {xs ys : List α}

theorem dropWhile_of_head (h : ∀ x ∈ xs.head?, p x = false) : xs.dropWhile p = xs := by
  cases xs with
  | nil => rfl
  | cons x xs => exact List.dropWhile_cons_of_neg (by simp [h x rfl])

theorem rdropWhile_of_last (h : ∀ x ∈ xs.getLast?, p x = false) : xs.rdropWhile p = xs := by
  rw [List.rdropWhile_eq_self_iff]
  intro hne
  simp [h _ (List.getLast?_eq_some_getLast hne)]

theorem trim_of_neat (h : Neat p xs) : trim p xs = xs := by
  rw [trim, dropWhile_of_head h.head, rdropWhile_of_last h.last]

theorem neat_trim (xs : List α) : Neat p (trim p xs) := by
  constructor
  · intro x hx
    obtain ⟨post, hpost⟩ := List.rdropWhile_prefix p (xs.dropWhile p)
    have hhead : (xs.dropWhile p).head? = some x := by
      rw [← hpost, List.head?_append]
      simp [trim] at hx
      simp [hx]
    have hnot := List.head?_dropWhile_not p xs
    rw [hhead] at hnot
    exact hnot
  · intro x hx
    have hne : trim p xs ≠ [] := by
      rintro hnil
      simp [hnil] at hx
    have hlast := List.rdropWhile_last_not p (xs.dropWhile p) hne
    rw [List.getLast?_eq_some_getLast hne, Option.mem_some] at hx
    rw [← hx]
    exact (Bool.not_eq_true _).mp hlast

theorem trim_eq_self_iff : trim p xs = xs ↔ Neat p xs := by
  constructor
  · intro h
    exact h ▸ neat_trim xs
  · exact trim_of_neat

theorem trim_trim (xs : List α) : trim p (trim p xs) = trim p xs := trim_of_neat (neat_trim xs)

theorem neat_nil : Neat p ([] : List α) := ⟨by simp, by simp⟩

-- The ends that go are all matched.
theorem exists_trim (xs : List α) :
    ∃ pre post, xs = pre ++ (trim p xs ++ post) ∧ (∀ x ∈ pre, p x = true) ∧ ∀ x ∈ post, p x = true := by
  refine ⟨xs.takeWhile p, (xs.dropWhile p).rtakeWhile p, ?_, ?_, ?_⟩
  · rw [trim, List.rdropWhile_append_rtakeWhile, List.takeWhile_append_dropWhile]
  · exact fun x hx => List.mem_takeWhile_imp hx
  · exact fun x hx => List.mem_rtakeWhile_imp hx

theorem mem_of_mem_trim {x : α} (h : x ∈ trim p xs) : x ∈ xs := by
  obtain ⟨pre, post, heq, _, _⟩ := @exists_trim _ p xs
  rw [heq]
  simp [h]

theorem length_trim_le (xs : List α) : (trim p xs).length ≤ xs.length := by
  obtain ⟨pre, post, heq, _, _⟩ := @exists_trim _ p xs
  have hlen := congrArg List.length heq
  simp only [List.length_append] at hlen
  omega

theorem trim_of_length (h : xs.length ≤ (trim p xs).length) : trim p xs = xs := by
  obtain ⟨pre, post, heq, _, _⟩ := @exists_trim _ p xs
  have hlen := congrArg List.length heq
  simp only [List.length_append] at hlen
  obtain rfl := List.eq_nil_of_length_eq_zero (show pre.length = 0 by omega)
  obtain rfl := List.eq_nil_of_length_eq_zero (show post.length = 0 by omega)
  simpa using heq.symm

theorem trim_eq_nil (h : ∀ x ∈ xs, p x = true) : trim p xs = [] := by
  rw [trim, List.dropWhile_eq_nil_iff.mpr h]
  rfl

theorem trim_append_left (h : ∀ x ∈ xs, p x = true) : trim p (xs ++ ys) = trim p ys := by
  rw [trim, List.dropWhile_append_of_pos h]
  rfl

theorem rdropWhile_append (h : ∀ y ∈ ys, p y = true) : (xs ++ ys).rdropWhile p = xs.rdropWhile p := by
  rw [List.rdropWhile, List.reverse_append, List.dropWhile_append_of_pos fun y hy => h y (List.mem_reverse.mp hy)]
  rfl

theorem trim_append_right (h : ∀ y ∈ ys, p y = true) : trim p (xs ++ ys) = trim p xs := by
  by_cases hxs : xs.dropWhile p = []
  · have hall := List.dropWhile_eq_nil_iff.mp hxs
    rw [trim_append_left hall, trim_eq_nil hall, trim_eq_nil h]
  · have hempty : ((xs.dropWhile p).isEmpty) = false := by simpa using hxs
    rw [trim, List.dropWhile_append, hempty, if_neg Bool.false_ne_true, rdropWhile_append h]
    rfl

theorem rdropWhile_append_cons {a : α} (ha : p a = false) (xs ys : List α) :
    (xs ++ a :: ys).rdropWhile p = xs ++ a :: ys.rdropWhile p := by
  have hsplit : xs ++ a :: ys = (xs ++ a :: ys.rdropWhile p) ++ ys.rtakeWhile p := by
    rw [List.append_assoc, List.cons_append, List.rdropWhile_append_rtakeWhile]
  rw [hsplit, rdropWhile_append fun y hy => List.mem_rtakeWhile_imp hy]
  refine rdropWhile_of_last fun x hx => ?_
  rw [List.getLast?_append, List.getLast?_cons, Option.some_or, Option.mem_some] at hx
  cases hlast : (ys.rdropWhile p).getLast? with
  | none => rw [← hx, hlast]; exact ha
  | some b =>
      rw [← hx, hlast, Option.getD_some]
      have hne : ys.rdropWhile p ≠ [] := by
        intro hnil
        simp [hnil] at hlast
      have hnot := List.rdropWhile_last_not p ys hne
      rw [List.getLast?_eq_some_getLast hne, Option.some.injEq] at hlast
      rw [← hlast]
      exact (Bool.not_eq_true _).mp hnot

-- Two neat parts with anything between them are neat as a whole.
theorem Neat.append {mid : List α} (hx : Neat p xs) (hy : Neat p ys) (hxs : xs ≠ []) (hys : ys ≠ []) :
    Neat p (xs ++ (mid ++ ys)) := by
  constructor
  · intro x hhead
    rw [List.head?_append] at hhead
    cases xs with
    | nil => exact absurd rfl hxs
    | cons a xs => exact hx.head x (by simpa using hhead)
  · intro y hlast
    rw [List.getLast?_append, List.getLast?_append] at hlast
    cases hlasty : ys.getLast? with
    | none => exact absurd (List.getLast?_eq_none_iff.mp hlasty) hys
    | some z =>
        simp only [hlasty, Option.some_or, Option.mem_some] at hlast
        exact hlast ▸ hy.last z hlasty

end Trim
