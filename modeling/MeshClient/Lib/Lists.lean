import Mathlib

namespace Lists

-- `[...new Set(xs)]`: the first occurrence of every value, in order.
def unique {α : Type*} [DecidableEq α] : List α → List α
  | [] => []
  | x :: xs => x :: (unique xs).filter (· ≠ x)

-- `xs.slice(-n)` for a positive `n`.
def lastN {α : Type*} (n : Nat) (xs : List α) : List α := xs.drop (xs.length - n)

section

variable {α : Type*} [DecidableEq α]

@[simp] theorem mem_unique (x : α) (xs : List α) : x ∈ unique xs ↔ x ∈ xs := by
  induction xs with
  | nil => simp [unique]
  | cons y ys ih =>
      by_cases h : x = y
      · simp [unique, h]
      · simp [unique, h, ih]

theorem unique_nodup (xs : List α) : (unique xs).Nodup := by
  induction xs with
  | nil => exact List.nodup_nil
  | cons y ys ih => exact List.nodup_cons.mpr ⟨by simp, ih.filter _⟩

theorem unique_sublist (xs : List α) : (unique xs).Sublist xs := by
  induction xs with
  | nil => exact List.Sublist.refl _
  | cons y ys ih => exact (List.filter_sublist.trans ih).cons_cons y

theorem unique_of_nodup {xs : List α} (h : xs.Nodup) : unique xs = xs := by
  induction xs with
  | nil => rfl
  | cons y ys ih =>
      obtain ⟨hy, hys⟩ := List.nodup_cons.mp h
      rw [unique, ih hys, List.filter_eq_self.mpr]
      intro x hx
      have hne : x ≠ y := fun he => hy (he ▸ hx)
      simpa using hne

theorem unique_eq_self_iff (xs : List α) : unique xs = xs ↔ xs.Nodup :=
  ⟨fun h => h ▸ unique_nodup xs, unique_of_nodup⟩

theorem unique_append (xs ys : List α) :
    unique (xs ++ ys) = unique xs ++ (unique ys).filter (· ∉ xs) := by
  induction xs with
  | nil => simp [unique]
  | cons x xs ih =>
      simp only [List.cons_append, unique, ih, List.filter_append, List.filter_filter]
      congr 2
      apply List.filter_congr
      intro y _
      simp [List.mem_cons, not_or]

theorem unique_append_of_subset {xs ys : List α} (h : ys ⊆ xs) : unique (xs ++ ys) = unique xs := by
  rw [unique_append, List.filter_eq_nil_iff.mpr, List.append_nil]
  intro y hy
  simpa using h ((mem_unique y ys).mp hy)

end

section

variable {α : Type*}

theorem lastN_of_length_le {n : Nat} {xs : List α} (h : xs.length ≤ n) : lastN n xs = xs := by
  simp [lastN, Nat.sub_eq_zero_of_le h]

theorem lastN_length_le (n : Nat) (xs : List α) : (lastN n xs).length ≤ n := by
  simp only [lastN, List.length_drop]
  omega

theorem lastN_sublist (n : Nat) (xs : List α) : (lastN n xs).Sublist xs := List.drop_sublist _ _

end

end Lists
