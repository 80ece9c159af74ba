import Mathlib

-- Records kept in a list and changed one at a time, by their place.
namespace Slots

variable {α : Type*} {xs : List α} {i j : Nat} {x y : α} {f : α → α} {p : α → Bool}

theorem modify_cases (h : (xs.modify i f)[j]? = some y) :
    (i ≠ j ∧ xs[j]? = some y) ∨ ∃ x, i = j ∧ xs[i]? = some x ∧ y = f x := by
  rw [List.getElem?_modify] at h
  obtain ⟨x, hx, hy⟩ := Option.map_eq_some_iff.mp h
  by_cases hij : i = j
  · subst hij
    exact .inr ⟨x, rfl, hx, by simpa using hy.symm⟩
  · exact .inl ⟨hij, by simpa [hij, hx] using hy⟩

theorem modify_self (h : xs[i]? = some x) : (xs.modify i f)[i]? = some (f x) := by simp [h]

theorem modify_of_ne (h : i ≠ j) : (xs.modify i f)[j]? = xs[j]? := by simp [h]

theorem mem_modify (h : y ∈ xs.modify i f) : y ∈ xs ∨ ∃ x, xs[i]? = some x ∧ y = f x := by
  obtain ⟨j, hj⟩ := List.mem_iff_getElem?.mp h
  rcases modify_cases hj with ⟨-, hold⟩ | ⟨x, -, hx, rfl⟩
  · exact .inl (List.mem_of_getElem? hold)
  · exact .inr ⟨x, hx, rfl⟩

-- A count changes by what the changed record counts before and after.
theorem countP_modify (h : xs[i]? = some x) :
    (xs.modify i f).countP p + (p x).toNat = xs.countP p + (p (f x)).toNat := by
  induction xs generalizing i with
  | nil => simp at h
  | cons a xs ih =>
      cases i with
      | zero =>
          obtain rfl : a = x := by simpa using h
          rw [List.modify_zero_cons, List.countP_cons, List.countP_cons]
          cases p a <;> cases p (f a) <;> simp
      | succ i =>
          have hi : xs[i]? = some x := by simpa using h
          rw [List.modify_succ_cons, List.countP_cons, List.countP_cons]
          have hrest := ih hi
          omega

theorem countP_congr {β : Type*} {ys : List β} {q : β → Bool} (hlength : xs.length = ys.length)
    (h : ∀ (i : Nat) (x : α) (y : β), xs[i]? = some x → ys[i]? = some y → p x = q y) : xs.countP p = ys.countP q := by
  induction xs generalizing ys with
  | nil =>
      obtain rfl := List.eq_nil_of_length_eq_zero hlength.symm
      rfl
  | cons a xs ih =>
      cases ys with
      | nil => simp at hlength
      | cons b ys =>
          have hhead : p a = q b := h 0 a b rfl rfl
          have htail : xs.countP p = ys.countP q :=
            ih (by simpa using hlength) fun i x y hx hy => h (i + 1) x y (by simpa using hx) (by simpa using hy)
          rw [List.countP_cons, List.countP_cons, hhead, htail]

theorem countP_concat : (xs ++ [x]).countP p = xs.countP p + (p x).toNat := by
  rw [List.countP_append, List.countP_singleton]
  cases p x <;> rfl

theorem concat_cases (h : (xs ++ [x])[j]? = some y) : xs[j]? = some y ∨ (j = xs.length ∧ y = x) := by
  rcases Nat.lt_trichotomy j xs.length with hj | rfl | hj
  · rw [List.getElem?_append_left hj] at h
    exact .inl h
  · rw [List.getElem?_concat_length] at h
    exact .inr ⟨rfl, (Option.some.inj h).symm⟩
  · have hnone : (xs ++ [x])[j]? = none :=
      List.getElem?_eq_none (by rw [List.length_append, List.length_singleton]; omega)
    rw [hnone] at h
    cases h

theorem concat_of_some (h : xs[j]? = some y) : (xs ++ [x])[j]? = some y := by
  rw [List.getElem?_append_left (List.getElem?_eq_some_iff.mp h).1, h]

end Slots
