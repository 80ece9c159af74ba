import MeshClient.Lib.Run

-- What the steps of a run leave behind: each step adds marks, and the run's trace is all of
-- them in order.
namespace Trace

open Run

variable {σ ι μ : Type*} (step : σ → ι → σ) (marks : σ → ι → List μ)

def trace : σ → List ι → List μ
  | _, [] => []
  | s, input :: rest => marks s input ++ trace (step s input) rest

variable {step marks}

theorem trace_append (s : σ) (front back : List ι) :
    trace step marks s (front ++ back) = trace step marks s front ++ trace step marks (run step s front) back := by
  induction front generalizing s with
  | nil => rfl
  | cons input front ih => rw [List.cons_append, trace, trace, ih, List.append_assoc, run_cons]

-- Every mark was left by some step of the run.
theorem exists_step {s : σ} {inputs : List ι} {pre post : List μ} {m : μ}
    (h : trace step marks s inputs = pre ++ m :: post) :
    ∃ front input back p q, inputs = front ++ input :: back ∧
      marks (run step s front) input = p ++ m :: q ∧ pre = trace step marks s front ++ p ∧
      post = q ++ trace step marks (step (run step s front) input) back := by
  induction inputs generalizing s pre with
  | nil => simp [trace] at h
  | cons input rest ih =>
      rw [trace] at h
      rcases List.append_eq_append_iff.mp h with ⟨mid, hpre, hrest⟩ | ⟨mid, hmarks, hpost⟩
      · obtain ⟨front, next, back, p, q, hsplit, hm, hp, hq⟩ := ih hrest
        refine ⟨input :: front, next, back, p, q, by rw [hsplit, List.cons_append], hm, ?_, hq⟩
        rw [hpre, hp, trace, List.append_assoc]
      · cases mid with
        | nil =>
            rw [List.nil_append] at hpost
            obtain ⟨front, next, back, p, q, hsplit, hm, hp, hq⟩ := @ih _ [] hpost.symm
            refine ⟨input :: front, next, back, p, q, by rw [hsplit, List.cons_append], hm, ?_, hq⟩
            rw [trace, List.append_assoc, ← hp, hmarks, List.append_nil, List.append_nil]
        | cons first mid =>
            rw [List.cons_append] at hpost
            obtain ⟨rfl, htail⟩ := List.cons.inj hpost
            exact ⟨[], input, rest, pre, mid, rfl, hmarks, by simp [trace], htail⟩

theorem each_append {C : σ → ι → Prop} {s : σ} {front back : List ι} :
    Each step C s (front ++ back) ↔ Each step C s front ∧ Each step C (run step s front) back := by
  induction front generalizing s with
  | nil => simp [Each]
  | cons input front ih =>
      rw [List.cons_append, Each, Each, ih, and_assoc, run_cons]

-- When a step leaves one mark at most, the trace is cut at a step where it is cut at a mark.
theorem exists_single_step (hone : ∀ s input, (marks s input).length ≤ 1) {s : σ} {inputs : List ι}
    {pre post : List μ} {m : μ} (h : trace step marks s inputs = pre ++ m :: post) :
    ∃ front input back, inputs = front ++ input :: back ∧ m ∈ marks (run step s front) input ∧
      pre = trace step marks s front ∧ post = trace step marks (step (run step s front) input) back := by
  obtain ⟨front, input, back, p, q, hsplit, hm, hpre, hpost⟩ := exists_step h
  have hlength := hone (run step s front) input
  rw [hm, List.length_append, List.length_cons] at hlength
  have hp : p = [] := List.length_eq_zero_iff.mp (by omega)
  have hq : q = [] := List.length_eq_zero_iff.mp (by omega)
  subst hp hq
  exact ⟨front, input, back, hsplit, by simp [hm], by simpa using hpre, by simpa using hpost⟩

-- What holds until a mark of a kind is left.
theorem kept {P : σ → Prop} {C : σ → ι → Prop} {R : μ → Prop}
    (hstep : ∀ s input, C s input → P s → (∀ m ∈ marks s input, ¬ R m) → P (step s input)) {s : σ}
    {inputs : List ι} (hc : Each step C s inputs) (hs : P s)
    (hmarks : ∀ m ∈ trace step marks s inputs, ¬ R m) : P (run step s inputs) := by
  induction inputs generalizing s with
  | nil => exact hs
  | cons input rest ih =>
      rw [trace, List.forall_mem_append] at hmarks
      exact ih hc.2 (hstep s input hc.1 hs hmarks.1) hmarks.2

end Trace
