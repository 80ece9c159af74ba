import Mathlib

namespace Shift

variable {α : Type*} {xs : List α} {x : α} {i j : Nat}

-- One element goes in at two places with one result only when the elements between are the same.
theorem insertIdx_eq_iff (hij : i ≤ j) (hj : j ≤ xs.length) :
    xs.insertIdx i x = xs.insertIdx j x ↔ ∀ k, i ≤ k → k < j → xs[k]? = some x := by
  induction i generalizing xs j with
  | zero =>
      induction j generalizing xs with
      | zero => simp
      | succ j ih =>
          cases xs with
          | nil => simp at hj
          | cons y ys =>
              have hlater := @ih ys (by omega) (by simpa using hj)
              rw [List.insertIdx_zero, List.insertIdx_succ_cons, List.cons.injEq]
              rw [List.insertIdx_zero] at hlater
              constructor
              · rintro ⟨rfl, heq⟩ k _ hk
                cases k with
                | zero => rfl
                | succ k => exact hlater.mp heq k (by omega) (by omega)
              · intro h
                obtain rfl : y = x := by simpa using h 0 (by omega) (by omega)
                exact ⟨rfl, hlater.mpr fun k _ hk => by simpa using h (k + 1) (by omega) (by omega)⟩
  | succ i ih =>
      cases j with
      | zero => omega
      | succ j =>
          cases xs with
          | nil => simp at hj
          | cons y ys =>
              have hlater := @ih ys j (by omega) (by simpa using hj)
              rw [List.insertIdx_succ_cons, List.insertIdx_succ_cons, List.cons.injEq, and_iff_right rfl, hlater]
              constructor
              · intro h k hik hk
                cases k with
                | zero => omega
                | succ k => exact h k (by omega) (by omega)
              · intro h k hik hk
                simpa using h (k + 1) (by omega) (by omega)

theorem insertIdx_eraseIdx_self (h : xs[i]? = some x) : (xs.eraseIdx i).insertIdx i x = xs := by
  obtain ⟨hlt, hx⟩ := List.getElem?_eq_some_iff.mp h
  subst hx
  rw [List.insertIdx_eraseIdx_getElem hlt]

theorem perm_shift (h : xs[i]? = some x) (hj : j < xs.length) : ((xs.eraseIdx i).insertIdx j x).Perm xs := by
  obtain ⟨hlt, hx⟩ := List.getElem?_eq_some_iff.mp h
  have hlen := List.length_eraseIdx_of_lt hlt
  have hinsert := List.perm_insertIdx x (xs.eraseIdx i) (i := j) (by omega)
  have herase := List.getElem_cons_eraseIdx_perm hlt
  rw [hx] at herase
  exact hinsert.trans herase

-- An element of the list that is taken out is found where it is put in, the others as they were.
theorem placed_iff {k : Nat} (h : xs[i]? = some x) (hk : k < xs.length) :
    ((xs.eraseIdx i).insertIdx j x)[k]? = some x ∧
        ((xs.eraseIdx i).insertIdx j x).eraseIdx k = xs.eraseIdx i ↔
      (xs.eraseIdx i).insertIdx j x = (xs.eraseIdx i).insertIdx k x := by
  obtain ⟨hlt, hx⟩ := List.getElem?_eq_some_iff.mp h
  have hlen := List.length_eraseIdx_of_lt hlt
  constructor
  · rintro ⟨hget, hrest⟩
    rw [← hrest, insertIdx_eraseIdx_self hget]
    rw [hrest]
  · intro heq
    rw [heq]
    refine ⟨?_, List.eraseIdx_insertIdx_self x⟩
    rw [List.getElem?_insertIdx_self, if_pos (by omega)]

end Shift
