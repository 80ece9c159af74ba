import Mathlib

-- The next integer after a given one that has a property.
namespace Successor

variable {P Q : ℤ → Prop} {after next other : ℤ}

def IsNext (P : ℤ → Prop) (after next : ℤ) : Prop :=
  after < next ∧ P next ∧ ∀ u, after < u → u < next → ¬P u

theorem IsNext.unique (h : IsNext P after next) (hother : IsNext P after other) : next = other := by
  rcases lt_trichotomy next other with hlt | heq | hgt
  · exact absurd h.2.1 (hother.2.2 next h.1 hlt)
  · exact heq
  · exact absurd hother.2.1 (h.2.2 other hother.1 hgt)

theorem IsNext.le_of (h : IsNext P after next) (hlater : after < other) (hP : P other) :
    next ≤ other := by
  by_contra hlt
  exact h.2.2 other hlater (not_le.mp hlt) hP

theorem exists_isNext (h : ∃ u, after < u ∧ P u) : ∃ next, IsNext P after next := by
  obtain ⟨next, ⟨hlater, hP⟩, hleast⟩ := Int.exists_least_of_bdd (P := fun u => after < u ∧ P u)
    ⟨after, fun u hu => hu.1.le⟩ h
  exact ⟨next, hlater, hP, fun u hu hlt hPu => absurd (hleast u ⟨hu, hPu⟩) (not_le.mpr hlt)⟩

theorem IsNext.congr (h : IsNext P after next) (hPQ : ∀ u, P u ↔ Q u) : IsNext Q after next :=
  ⟨h.1, (hPQ next).mp h.2.1, fun u hu hlt hQ => h.2.2 u hu hlt ((hPQ u).mpr hQ)⟩

-- How many have the property from `after` on, up to and with `last`.
noncomputable def count (P : ℤ → Prop) (after last : ℤ) : ℕ :=
  Set.ncard {u | after < u ∧ u ≤ last ∧ P u}

theorem finite_between (after last : ℤ) : {u | after < u ∧ u ≤ last ∧ P u}.Finite :=
  (Set.finite_Ioc after last).subset fun _ hu => ⟨hu.1, hu.2.1⟩

theorem IsNext.count_of_lt {last : ℤ} (h : IsNext P after next) (hlt : last < next) :
    count P after last = 0 := by
  rw [count, Set.ncard_eq_zero (finite_between after last), Set.eq_empty_iff_forall_notMem]
  rintro u ⟨hu, hle, hP⟩
  exact h.2.2 u hu (hle.trans_lt hlt) hP

theorem IsNext.count_of_le {last : ℤ} (h : IsNext P after next) (hle : next ≤ last) :
    count P after last = count P next last + 1 := by
  have hsplit : {u | after < u ∧ u ≤ last ∧ P u} =
      insert next {u | next < u ∧ u ≤ last ∧ P u} := by
    ext u
    simp only [Set.mem_setOf_eq, Set.mem_insert_iff]
    constructor
    · rintro ⟨hu, hul, hP⟩
      rcases (h.le_of hu hP).eq_or_lt with heq | hlt
      · exact .inl heq.symm
      · exact .inr ⟨hlt, hul, hP⟩
    · rintro (rfl | ⟨hu, hul, hP⟩)
      · exact ⟨h.1, hle, h.2.1⟩
      · exact ⟨h.1.trans hu, hul, hP⟩
  have hnew : next ∉ {u | next < u ∧ u ≤ last ∧ P u} := fun hu => lt_irrefl next hu.1
  rw [count, hsplit, Set.ncard_insert_of_notMem hnew (finite_between next last), ← count]

theorem IsNext.of_le {last : ℤ} (h : IsNext P after next) (hle : after ≤ last) (hlt : last < next) :
    IsNext P last next :=
  ⟨hlt, h.2.1, fun u hu hun => h.2.2 u (hle.trans_lt hu) hun⟩

end Successor
