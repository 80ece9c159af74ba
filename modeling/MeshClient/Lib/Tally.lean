import Mathlib

-- Passes over a list that may fail, and how much each of their steps may add to a count.
namespace Tally

variable {σ α ε : Type*} (f : σ → α → Except ε σ)

def Runs (s : σ) (xs : List α) (t : σ) : Prop := xs.foldlM f s = .ok t

variable {f} {s t : σ} {x : α} {xs ys : List α}

@[simp] theorem runs_nil : Runs f s [] t ↔ s = t := by
  simp [Runs, pure, Except.pure]

theorem runs_cons : Runs f s (x :: xs) t ↔ ∃ m, f s x = .ok m ∧ Runs f m xs t := by
  unfold Runs
  rw [List.foldlM_cons]
  cases f s x with
  | error e => simp [bind, Except.bind]
  | ok m => simp [bind, Except.bind]

theorem runs_cons_of_ok {m : σ} (h : f s x = .ok m) : Runs f s (x :: xs) t ↔ Runs f m xs t := by
  simp [runs_cons, h]

theorem runs_append : Runs f s (xs ++ ys) t ↔ ∃ m, Runs f s xs m ∧ Runs f m ys t := by
  induction xs generalizing s with
  | nil => simp
  | cons x xs ih =>
      simp only [List.cons_append, runs_cons, ih]
      constructor
      · rintro ⟨m, hstep, m', hxs, hys⟩
        exact ⟨m', ⟨m, hstep, hxs⟩, hys⟩
      · rintro ⟨m', ⟨m, hstep, hxs⟩, hys⟩
        exact ⟨m, hstep, m', hxs, hys⟩

theorem runs_singleton : Runs f s [x] t ↔ f s x = .ok t := by
  simp [runs_cons]

section Count

variable {c : σ → Nat} (hone : ∀ s x t, f s x = .ok t → c t ≤ c s + 1)
include hone

theorem count_le (h : Runs f s xs t) : c t ≤ c s + xs.length := by
  induction xs generalizing s with
  | nil => rw [runs_nil.mp h]; simp
  | cons x xs ih =>
      obtain ⟨m, hstep, hrest⟩ := runs_cons.mp h
      have hfirst := hone s x m hstep
      have hlast := ih hrest
      rw [List.length_cons]
      omega

-- A pass that reaches the bound has added one at every step.
theorem full_cons (h : Runs f s (x :: xs) t) (hfull : c t = c s + (x :: xs).length) :
    ∃ m, f s x = .ok m ∧ c m = c s + 1 ∧ Runs f m xs t ∧ c t = c m + xs.length := by
  obtain ⟨m, hstep, hrest⟩ := runs_cons.mp h
  have hfirst := hone s x m hstep
  have hlast := count_le hone hrest
  rw [List.length_cons] at hfull
  exact ⟨m, hstep, by omega, hrest, by omega⟩

theorem full_invariant {I : σ → Prop}
    (hstep : ∀ s x t, I s → f s x = .ok t → c t = c s + 1 → I t) (hs : I s)
    (h : Runs f s xs t) (hfull : c t = c s + xs.length) : I t := by
  induction xs generalizing s with
  | nil => exact runs_nil.mp h ▸ hs
  | cons x xs ih =>
      obtain ⟨m, hfirst, hcount, hrest, hfull⟩ := full_cons hone h hfull
      exact ih (hstep s x m hs hfirst hcount) hrest hfull

end Count

-- What every step keeps, a pass keeps.
theorem Runs.invariant {I : σ → Prop} (hstep : ∀ s, ∀ x ∈ xs, ∀ t, I s → f s x = .ok t → I t) (hs : I s)
    (h : Runs f s xs t) : I t := by
  induction xs generalizing s with
  | nil => exact runs_nil.mp h ▸ hs
  | cons x xs ih =>
      obtain ⟨m, hfirst, hrest⟩ := runs_cons.mp h
      exact ih (fun s y hy => hstep s y (List.mem_cons_of_mem _ hy)) (hstep s x List.mem_cons_self m hs hfirst) hrest

-- A quantity that no step makes smaller.
theorem Runs.mono {size : σ → Nat} (hstep : ∀ s x t, f s x = .ok t → size s ≤ size t) (h : Runs f s xs t) :
    size s ≤ size t :=
  h.invariant (I := fun m => size s ≤ size m) (fun m x _ t hm hx => hm.trans (hstep m x t hx)) (le_refl _)

end Tally
