import Mathlib

-- A receiver of numbered pieces that arrive twice, late or not at all: it takes what is beyond
-- all it took before. Zero is the number of a piece that has none.
namespace Ascents

variable {α : Type*} (number : α → ℕ)

def Stale (last : ℕ) (x : α) : Prop := number x ≠ 0 ∧ number x ≤ last

instance Stale.decidable (last : ℕ) (x : α) : Decidable (Stale number last x) :=
  inferInstanceAs (Decidable (number x ≠ 0 ∧ number x ≤ last))

def advance (last : ℕ) (x : α) : ℕ := if number x = 0 then last else number x

def taken (last : ℕ) : List α → List α
  | [] => []
  | x :: xs => if Stale number last x then taken last xs else x :: taken (advance number last x) xs

def lastTaken (last : ℕ) : List α → ℕ
  | [] => last
  | x :: xs => if Stale number last x then lastTaken last xs else lastTaken (advance number last x) xs

-- The numbers that were passed over, the ones before the first piece apart.
def skipped (last : ℕ) : List α → ℕ
  | [] => 0
  | x :: xs =>
      if Stale number last x then skipped last xs
      else
        (if number x ≠ 0 ∧ last ≠ 0 ∧ last + 1 < number x then number x - last - 1 else 0) +
          skipped (advance number last x) xs

-- The numbers of the pieces that have one.
def numbers (xs : List α) : List ℕ := (xs.map number).filter (· ≠ 0)

variable {number} {last : ℕ} {xs ys : List α} {x : α}

theorem taken_append : taken number last (xs ++ ys) =
    taken number last xs ++ taken number (lastTaken number last xs) ys := by
  induction xs generalizing last with
  | nil => rfl
  | cons x xs ih =>
      rw [List.cons_append, taken, taken, lastTaken]
      split_ifs
      · exact ih
      · rw [ih, List.cons_append]

theorem lastTaken_append : lastTaken number last (xs ++ ys) = lastTaken number (lastTaken number last xs) ys := by
  induction xs generalizing last with
  | nil => rfl
  | cons x xs ih =>
      rw [List.cons_append, lastTaken, lastTaken]
      split_ifs <;> exact ih

theorem skipped_append : skipped number last (xs ++ ys) =
    skipped number last xs + skipped number (lastTaken number last xs) ys := by
  induction xs generalizing last with
  | nil => rw [List.nil_append, skipped, lastTaken, Nat.zero_add]
  | cons x xs ih =>
      rw [List.cons_append, skipped, skipped, lastTaken]
      split_ifs
      all_goals rw [ih]
      all_goals omega

theorem taken_sublist : (taken number last xs).Sublist xs := by
  induction xs generalizing last with
  | nil => exact List.Sublist.refl _
  | cons x xs ih =>
      rw [taken]
      split_ifs
      · exact ih.cons x
      · exact ih.cons_cons x

theorem le_lastTaken : last ≤ lastTaken number last xs := by
  induction xs generalizing last with
  | nil => exact Nat.le_refl _
  | cons x xs ih =>
      rw [lastTaken]
      split_ifs with hstale
      · exact ih
      · refine Nat.le_trans ?_ ih
        rw [advance]
        split_ifs with hzero
        · exact Nat.le_refl _
        · have hbeyond := not_and.mp hstale hzero
          omega

theorem numbers_cons (x : α) (xs : List α) :
    numbers number (x :: xs) = if number x = 0 then numbers number xs else number x :: numbers number xs := by
  rw [numbers, List.map_cons, List.filter_cons, numbers]
  split_ifs with hkept hzero hzero
  · simp [hzero] at hkept
  · rfl
  · rfl
  · simp [hzero] at hkept

-- What is taken ascends.
theorem numbers_taken_ascend : (last :: numbers number (taken number last xs)).Pairwise (· < ·) := by
  induction xs generalizing last with
  | nil => exact List.pairwise_singleton _ _
  | cons x xs ih =>
      rw [taken]
      split_ifs with hstale
      · exact ih
      · rw [numbers_cons]
        split_ifs with hzero
        · have hrest := @ih (advance number last x)
          rwa [advance, if_pos hzero] at hrest ⊢
        · have hrest := @ih (advance number last x)
          rw [advance, if_neg hzero] at hrest ⊢
          have hbeyond : last < number x := Nat.not_le.mp (not_and.mp hstale hzero)
          rw [List.pairwise_cons] at hrest ⊢
          refine ⟨fun n hn => ?_, List.pairwise_cons.mpr hrest⟩
          rw [List.mem_cons] at hn
          cases hn with
          | inl hn => exact hn ▸ hbeyond
          | inr hn => exact hbeyond.trans (hrest.1 n hn)

-- What is left out was no news when it came.
theorem taken_or_stale (front back : List α) :
    taken number last (front ++ x :: back) =
        taken number last front ++ x :: taken number (lastTaken number last (front ++ [x])) back ∨
      number x ≤ lastTaken number last front := by
  rw [taken_append, taken, lastTaken_append, lastTaken, lastTaken]
  split_ifs with hstale
  · exact .inr hstale.2
  · exact .inl rfl

theorem lastTaken_eq : lastTaken number last xs = (numbers number (taken number last xs)).getLast?.getD last := by
  induction xs generalizing last with
  | nil => rfl
  | cons x xs ih =>
      rw [lastTaken, taken]
      split_ifs
      · exact ih
      · rw [ih, numbers_cons, advance]
        split_ifs with hzero
        · rfl
        · rw [List.getLast?_cons]
          rfl

-- Every number up to the last is taken, passed over, or before the first.
theorem count_numbers (h : last ≠ 0) :
    lastTaken number last xs = last + (numbers number (taken number last xs)).length + skipped number last xs := by
  induction xs generalizing last with
  | nil => simp [lastTaken, taken, numbers, skipped]
  | cons x xs ih =>
      rw [lastTaken, taken, skipped]
      split_ifs with hstale hgap
      · exact ih h
      · rw [numbers_cons, if_neg hgap.1, advance, if_neg hgap.1, ih hgap.1, List.length_cons]
        omega
      · rw [numbers_cons, advance]
        split_ifs with hzero
        · rw [ih h]
          omega
        · have hbeyond : last < number x := Nat.not_le.mp (not_and.mp hstale hzero)
          have hnext : ¬last + 1 < number x := fun hlt => hgap ⟨hzero, h, hlt⟩
          rw [ih hzero, List.length_cons]
          omega

theorem count_numbers_zero {n : ℕ} {ns : List ℕ} (h : numbers number (taken number 0 xs) = n :: ns) :
    lastTaken number 0 xs = n + ns.length + skipped number 0 xs := by
  induction xs with
  | nil => cases h
  | cons x xs ih =>
      have hfresh : ¬Stale number 0 x := fun hstale => hstale.1 (Nat.le_zero.mp hstale.2)
      rw [taken, if_neg hfresh, numbers_cons] at h
      rw [lastTaken, skipped, if_neg hfresh, if_neg hfresh, if_neg fun hgap => hgap.2.1 rfl, Nat.zero_add]
      rw [advance] at h ⊢
      split_ifs at h ⊢ with hzero
      · exact ih h
      · obtain ⟨rfl, rfl⟩ := List.cons.inj h
        exact count_numbers hzero

-- Nothing is left out of what comes in order.
theorem taken_eq_self (h : (last :: numbers number xs).Pairwise (· < ·)) : taken number last xs = xs := by
  induction xs generalizing last with
  | nil => rfl
  | cons x xs ih =>
      rw [numbers_cons] at h
      by_cases hzero : number x = 0
      · rw [if_pos hzero] at h
        rw [taken, if_neg fun hstale => hstale.1 hzero, advance, if_pos hzero, ih h]
      · rw [if_neg hzero, List.pairwise_cons] at h
        have hbeyond := h.1 (number x) List.mem_cons_self
        rw [taken, if_neg fun hstale => Nat.not_le.mpr hbeyond hstale.2, advance, if_neg hzero, ih h.2]

end Ascents
