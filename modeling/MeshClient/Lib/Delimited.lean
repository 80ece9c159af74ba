import Mathlib

-- Texts whose parts end at a mark that does not occur in them.
namespace Delimited

variable {α : Type*}

theorem append_cons_inj {mark : α} {xs ys rest rest' : List α} (hx : mark ∉ xs) (hy : mark ∉ ys)
    (h : xs ++ mark :: rest = ys ++ mark :: rest') : xs = ys ∧ rest = rest' := by
  induction xs generalizing ys with
  | nil =>
      cases ys with
      | nil => exact ⟨rfl, (List.cons.inj h).2⟩
      | cons y ys => exact absurd (List.mem_cons.mpr (.inl (List.cons.inj h).1)) hy
  | cons x xs ih =>
      cases ys with
      | nil => exact absurd (List.mem_cons.mpr (.inl (List.cons.inj h).1.symm)) hx
      | cons y ys =>
          obtain ⟨rfl, htail⟩ := List.cons.inj h
          rw [List.mem_cons, not_or] at hx hy
          obtain ⟨rfl, hrest⟩ := ih hx.2 hy.2 htail
          exact ⟨rfl, hrest⟩

end Delimited
