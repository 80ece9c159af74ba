import Mathlib

-- Texts cut at a mark that is written twice.
namespace PairSplit

variable {α : Type*} [DecidableEq α] (mark : α)

-- The parts between the doubled marks, read from the left without overlap.
def split : List α → List (List α)
  | [] => [[]]
  | [x] => [[x]]
  | x :: y :: rest =>
      if x = mark ∧ y = mark then [] :: split rest
      else (split (y :: rest)).modifyHead (x :: ·)

-- No two marks stand next to each other.
def Single (xs : List α) : Prop := xs.IsChain fun x y => ¬(x = mark ∧ y = mark)

variable {mark}

theorem split_ne_nil (xs : List α) : split mark xs ≠ [] := by
  induction xs using split.induct mark with
  | case1 => simp [split]
  | case2 x => simp [split]
  | case3 x y rest h => simp [split, h]
  | case4 x y rest h ih =>
      rw [split, if_neg h]
      simpa using ih

-- Parts with a doubled mark between each two give the text back.
theorem intercalate_split (xs : List α) : [mark, mark].intercalate (split mark xs) = xs := by
  induction xs using split.induct mark with
  | case1 => simp [split]
  | case2 x => simp [split]
  | case3 x y rest h ih =>
      obtain ⟨rfl, rfl⟩ := h
      rw [split, if_pos ⟨rfl, rfl⟩, List.intercalate_cons_of_ne_nil (split_ne_nil rest), ih]
      rfl
  | case4 x y rest h ih =>
      rw [split, if_neg h]
      cases hsplit : split mark (y :: rest) with
      | nil => exact absurd hsplit (split_ne_nil _)
      | cons part parts =>
          rw [hsplit] at ih
          rw [List.modifyHead_cons, List.intercalate_cons_cons_left]
          exact congrArg (x :: ·) ih

theorem eq_of_split_pair {xs left right : List α} (h : split mark xs = [left, right]) :
    xs = left ++ mark :: mark :: right := by
  have hjoin := @intercalate_split _ _ mark xs
  rw [h, List.intercalate_cons_cons, List.intercalate_singleton] at hjoin
  simpa using hjoin.symm

theorem suffix_of_split {xs last : List α} {front : List (List α)} (h : split mark xs = front ++ [last]) :
    last <:+ xs := by
  rw [← @intercalate_split _ _ mark xs, h]
  clear h
  induction front with
  | nil => rw [List.nil_append, List.intercalate_singleton]
  | cons part front ih =>
      rw [List.cons_append, List.intercalate_cons_of_ne_nil (by simp)]
      exact ih.trans (List.suffix_append _ _)

theorem split_of_single {xs : List α} (h : Single mark xs) : split mark xs = [xs] := by
  induction xs using split.induct mark with
  | case1 => rfl
  | case2 x => rfl
  | case3 x y rest hmarks => exact absurd hmarks (List.isChain_cons_cons.mp h).1
  | case4 x y rest hmarks ih =>
      rw [split, if_neg hmarks, ih (List.isChain_cons_cons.mp h).2]
      rfl

-- The first cut falls after a part without a doubled mark that does not end with a mark itself.
theorem split_append {left right : List α} (h : Single mark left) (hlast : ∀ x ∈ left.getLast?, x ≠ mark) :
    split mark (left ++ mark :: mark :: right) = left :: split mark right := by
  induction left with
  | nil => rw [List.nil_append, split, if_pos ⟨rfl, rfl⟩]
  | cons x left ih =>
      cases left with
      | nil =>
          have hx : x ≠ mark := hlast x rfl
          have hrest := ih List.isChain_nil (by simp)
          rw [List.nil_append] at hrest
          rw [List.singleton_append, split, if_neg fun hmarks => hx hmarks.1, hrest]
          rfl
      | cons y left =>
          obtain ⟨hxy, hleft⟩ := List.isChain_cons_cons.mp h
          rw [List.cons_append, List.cons_append, split, if_neg hxy, ← List.cons_append,
            ih hleft (by simpa using hlast)]
          rfl

omit [DecidableEq α] in
theorem single_of_notMem {xs : List α} (h : mark ∉ xs) : Single mark xs := by
  induction xs with
  | nil => exact List.isChain_nil
  | cons x xs ih =>
      rw [List.mem_cons, not_or] at h
      exact List.isChain_cons.mpr ⟨fun y _ hmarks => h.1 hmarks.1.symm, ih h.2⟩

-- A text without the mark at the end only makes the last part longer.
theorem exists_split_append (xs : List α) : ∃ front last, split mark xs = front ++ [last] ∧
    ∀ ys, mark ∉ ys → split mark (xs ++ ys) = front ++ [last ++ ys] := by
  induction xs using split.induct mark with
  | case1 => exact ⟨[], [], rfl, fun ys hys => by simpa using split_of_single (single_of_notMem hys)⟩
  | case2 x =>
      refine ⟨[], [x], rfl, fun ys hys => split_of_single ?_⟩
      exact List.isChain_cons.mpr
        ⟨fun y hy hmarks => hys (hmarks.2 ▸ List.mem_of_mem_head? hy), single_of_notMem hys⟩
  | case3 x y rest h ih =>
      obtain ⟨front, last, hsplit, happend⟩ := ih
      refine ⟨[] :: front, last, ?_, fun ys hys => ?_⟩
      · rw [split, if_pos h, hsplit]
        rfl
      · rw [List.cons_append, List.cons_append, split, if_pos h, happend ys hys]
        rfl
  | case4 x y rest h ih =>
      obtain ⟨front, last, hsplit, happend⟩ := ih
      cases front with
      | nil =>
          refine ⟨[], x :: last, ?_, fun ys hys => ?_⟩
          · rw [split, if_neg h, hsplit]
            rfl
          · rw [List.cons_append, List.cons_append, split, if_neg h, ← List.cons_append, happend ys hys]
            rfl
      | cons first front =>
          refine ⟨(x :: first) :: front, last, ?_, fun ys hys => ?_⟩
          · rw [split, if_neg h, hsplit]
            rfl
          · rw [List.cons_append, List.cons_append, split, if_neg h, ← List.cons_append, happend ys hys]
            rfl

theorem split_map {f : α → α} (h : ∀ x, f x = mark ↔ x = mark) (xs : List α) :
    split mark (xs.map f) = (split mark xs).map (List.map f) := by
  induction xs using split.induct mark with
  | case1 => rfl
  | case2 x => rfl
  | case3 x y rest hmarks ih =>
      rw [List.map_cons, List.map_cons, split, if_pos ⟨(h x).mpr hmarks.1, (h y).mpr hmarks.2⟩, split,
        if_pos hmarks, ih]
      rfl
  | case4 x y rest hmarks ih =>
      rw [List.map_cons, List.map_cons, split, if_neg (by rwa [h, h]), split, if_neg hmarks, ← List.map_cons, ih]
      cases split mark (y :: rest) with
      | nil => rfl
      | cons part parts => rfl

omit [DecidableEq α] in
-- Non-empty parts without the mark, joined by one mark each.
theorem single_intercalate {parts : List (List α)} (h : ∀ p ∈ parts, p ≠ [] ∧ mark ∉ p) :
    Single mark ([mark].intercalate parts) ∧ (∀ x ∈ ([mark].intercalate parts).getLast?, x ≠ mark) ∧
      ∀ x ∈ ([mark].intercalate parts).head?, x ≠ mark := by
  induction parts with
  | nil => exact ⟨List.isChain_nil, by simp, by simp⟩
  | cons p parts ih =>
      obtain ⟨hne, hp⟩ := h p List.mem_cons_self
      have hends : ∀ x ∈ p, x ≠ mark := fun x hx heq => hp (heq ▸ hx)
      cases parts with
      | nil =>
          rw [List.intercalate_singleton]
          exact ⟨single_of_notMem hp, fun x hx => hends x (List.mem_of_mem_getLast? hx),
            fun x hx => hends x (List.mem_of_mem_head? hx)⟩
      | cons q parts =>
          obtain ⟨hsingle, hlast, hhead⟩ := ih fun r hr => h r (List.mem_cons_of_mem p hr)
          have hrest : [mark].intercalate (q :: parts) ≠ [] := by
            intro hnil
            obtain ⟨hq, -⟩ := h q (List.mem_cons_of_mem p List.mem_cons_self)
            cases parts with
            | nil =>
                rw [List.intercalate_singleton] at hnil
                exact hq hnil
            | cons r parts =>
                rw [List.intercalate_cons_cons] at hnil
                simp at hnil
          rw [List.intercalate_cons_cons]
          generalize [mark].intercalate (q :: parts) = rest at hsingle hlast hhead hrest
          refine ⟨?_, ?_, ?_⟩
          · rw [Single, List.append_assoc, List.singleton_append, List.isChain_append]
            refine ⟨single_of_notMem hp, List.isChain_cons.mpr ⟨fun y hy hmarks => hhead y hy hmarks.2, hsingle⟩, ?_⟩
            intro x hx y _ hmarks
            exact hends x (List.mem_of_mem_getLast? hx) hmarks.1
          · intro x hx
            rw [List.getLast?_append_of_ne_nil _ hrest] at hx
            exact hlast x hx
          · intro x hx
            rw [List.append_assoc, List.head?_append_of_ne_nil _ hne] at hx
            exact hends x (List.mem_of_mem_head? hx)

end PairSplit
