import Mathlib

-- What `List.insertionSort` adds to sortedness: equal elements keep their order.
namespace StableSort

variable {α : Type*}

theorem pair_sublist_or {xs : List α} {a b : α} (ha : a ∈ xs) (hb : b ∈ xs) (hab : a ≠ b) :
    [a, b].Sublist xs ∨ [b, a].Sublist xs := by
  induction xs with
  | nil => exact absurd ha List.not_mem_nil
  | cons x xs ih =>
      rcases List.mem_cons.mp ha with rfl | ha'
      · have hb' := (List.mem_cons.mp hb).resolve_left (Ne.symm hab)
        exact .inl ((List.singleton_sublist.mpr hb').cons_cons a)
      · rcases List.mem_cons.mp hb with rfl | hb'
        · exact .inr ((List.singleton_sublist.mpr ha').cons_cons b)
        · exact (ih ha' hb').imp (·.cons x) (·.cons x)

theorem not_pair_sublist_both {xs : List α} (hn : xs.Nodup) {a b : α} (hab : [a, b].Sublist xs) :
    ¬[b, a].Sublist xs := by
  intro hba
  obtain ⟨front, back, rfl, ha, hb⟩ := List.cons_sublist_iff.mp hab
  rw [List.singleton_sublist] at hb
  have hdisjoint := (List.nodup_append'.mp hn).2.2
  rcases List.sublist_append_iff.mp hba with ⟨l, r, hsplit, hl, hr⟩
  cases l with
  | nil =>
      simp only [List.nil_append] at hsplit
      exact hdisjoint ha (hr.subset (hsplit ▸ by simp))
  | cons x l =>
      obtain ⟨rfl, _⟩ := List.cons.inj hsplit
      exact hdisjoint (hl.subset List.mem_cons_self) hb

variable {r : α → α → Prop} [DecidableRel r] [Std.Total r] [IsTrans α r]

-- Of two elements the sorted list puts the lesser one first and, between equals, the one that
-- came first.
theorem of_pair_sublist_insertionSort {xs : List α} (hn : xs.Nodup) {a b : α}
    (hab : [a, b].Sublist (xs.insertionSort r)) : r a b ∧ (r b a → [a, b].Sublist xs) := by
  have hperm := List.perm_insertionSort r xs
  have hns : (xs.insertionSort r).Nodup := hperm.nodup_iff.mpr hn
  refine ⟨List.pairwise_iff_forall_sublist.mp (List.pairwise_insertionSort r xs) hab, fun hba => ?_⟩
  have ha : a ∈ xs := hperm.mem_iff.mp (hab.subset (by simp))
  have hb : b ∈ xs := hperm.mem_iff.mp (hab.subset (by simp))
  have hne : a ≠ b := by simpa using hns.sublist hab
  refine (pair_sublist_or ha hb hne).resolve_right fun hsub => ?_
  exact not_pair_sublist_both hns hab (List.pair_sublist_insertionSort hba hsub)

omit [Std.Total r] [IsTrans α r] in
-- Elements that are equal in the order come out in the order they came in.
theorem filter_insertionSort (p : α → Bool) (hequal : ∀ a b, p a = true → p b = true → r a b) (xs : List α) :
    (xs.insertionSort r).filter p = xs.filter p := by
  have hinsert : ∀ (a : α) (ys : List α), (ys.orderedInsert r a).filter p = (a :: ys).filter p := by
    intro a ys
    induction ys with
    | nil => rfl
    | cons b ys ih =>
        rw [List.orderedInsert]
        split_ifs with hab
        · rfl
        · rw [List.filter_cons, ih, List.filter_cons, List.filter_cons, List.filter_cons]
          by_cases ha : p a = true
          · by_cases hb : p b = true
            · exact absurd (hequal a b ha hb) hab
            · rw [if_neg hb, if_neg hb]
          · rw [if_neg ha, if_neg ha]
  induction xs with
  | nil => rfl
  | cons a xs ih => rw [List.insertionSort_cons, hinsert, List.filter_cons, ih, List.filter_cons]

theorem pair_sublist_of_cut {xs : List α} {n : Nat} {a b : α} (ha : a ∈ xs.take n)
    (hb : b ∈ xs.drop n) : [a, b].Sublist xs := by
  have hsub := (List.singleton_sublist.mpr ha).append (List.singleton_sublist.mpr hb)
  rwa [List.take_append_drop] at hsub

-- The last element of a list is sorted after its equals: just the greater ones follow it.
theorem insertionSort_concat {xs : List α} {x : α} (hn : (xs ++ [x]).Nodup) :
    ∃ before after, (xs ++ [x]).insertionSort r = before ++ x :: after ∧
      after.length = xs.countP fun y => ¬r y x := by
  have hperm := List.perm_insertionSort r (xs ++ [x])
  obtain ⟨before, after, hsplit⟩ := List.append_of_mem (hperm.mem_iff.mpr (by simp : x ∈ xs ++ [x]))
  refine ⟨before, after, hsplit, ?_⟩
  have hbefore : ∀ y ∈ before, r y x := by
    intro y hy
    have hsorted := List.pairwise_insertionSort r (xs ++ [x])
    rw [hsplit] at hsorted
    exact (List.pairwise_append.mp hsorted).2.2 y hy x List.mem_cons_self
  have hafter : ∀ y ∈ after, ¬r y x := by
    intro y hy hyx
    have hsub : [x, y].Sublist ((xs ++ [x]).insertionSort r) := by
      rw [hsplit]
      exact ((List.singleton_sublist.mpr hy).cons_cons x).trans (List.sublist_append_right _ _)
    have hlast := (of_pair_sublist_insertionSort hn hsub).2 hyx
    have hne : x ≠ y := by simpa using (hn.sublist hlast)
    have hy' : y ∈ xs := by
      have hm : y ∈ xs ++ [x] := hlast.subset (by simp)
      simpa [Ne.symm hne] using hm
    have hfirst : [y, x].Sublist (xs ++ [x]) := (List.singleton_sublist.mpr hy').append (List.Sublist.refl [x])
    exact not_pair_sublist_both hn hlast hfirst
  have hrest : (before ++ after).Perm xs := by
    rw [hsplit] at hperm
    have hcons := (List.perm_middle.symm.trans hperm).trans (List.perm_append_singleton x xs)
    exact List.Perm.cons_inv hcons
  have hcount := hrest.countP_eq (fun y => ¬r y x)
  rw [List.countP_append] at hcount
  have hzero : before.countP (fun y => ¬r y x) = 0 :=
    List.countP_eq_zero.mpr fun y hy => by simpa using hbefore y hy
  have hall : after.countP (fun y => ¬r y x) = after.length :=
    List.countP_eq_length.mpr fun y hy => by simpa using hafter y hy
  omega

end StableSort
