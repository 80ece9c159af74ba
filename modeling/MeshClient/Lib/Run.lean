import Mathlib

-- Runs of a system that answers every input: what one step preserves, a run preserves.
namespace Run

variable {σ ι : Type*} (step : σ → ι → σ)

def run (s : σ) (inputs : List ι) : σ := inputs.foldl step s

def Reachable (start s : σ) : Prop := ∃ inputs, run step start inputs = s

-- `Q` holds before, between and after the steps of the run.
def Visits (Q : σ → Prop) : σ → List ι → Prop
  | s, [] => Q s
  | s, input :: rest => Q s ∧ Visits Q (step s input) rest

-- `P` holds of every step of the run, together with the state it is taken in.
def Each (P : σ → ι → Prop) : σ → List ι → Prop
  | _, [] => True
  | s, input :: rest => P s input ∧ Each P (step s input) rest

instance Each.decidable {P : σ → ι → Prop} [∀ s input, Decidable (P s input)] :
    (s : σ) → (inputs : List ι) → Decidable (Each step P s inputs)
  | _, [] => inferInstanceAs (Decidable True)
  | s, input :: rest =>
      have : Decidable (Each step P (step s input) rest) := Each.decidable _ rest
      inferInstanceAs (Decidable (P s input ∧ Each step P (step s input) rest))

instance Visits.decidable {Q : σ → Prop} [DecidablePred Q] :
    (s : σ) → (inputs : List ι) → Decidable (Visits step Q s inputs)
  | s, [] => inferInstanceAs (Decidable (Q s))
  | s, input :: rest =>
      have : Decidable (Visits step Q (step s input) rest) := Visits.decidable _ rest
      inferInstanceAs (Decidable (Q s ∧ Visits step Q (step s input) rest))

@[simp] theorem run_nil (s : σ) : run step s [] = s := rfl

@[simp] theorem run_cons (s : σ) (input : ι) (rest : List ι) :
    run step s (input :: rest) = run step (step s input) rest := rfl

theorem run_append (s : σ) (first second : List ι) :
    run step s (first ++ second) = run step (run step s first) second :=
  List.foldl_append

theorem run_concat (s : σ) (inputs : List ι) (input : ι) :
    run step s (inputs ++ [input]) = step (run step s inputs) input := by
  rw [run_append, run_cons, run_nil]

variable {step}

theorem invariant_run {P : σ → Prop} (hstep : ∀ s input, P s → P (step s input)) {s : σ}
    (hs : P s) (inputs : List ι) : P (run step s inputs) := by
  induction inputs generalizing s with
  | nil => exact hs
  | cons input rest ih => exact ih (hstep s input hs)

theorem Reachable.invariant {P : σ → Prop} {start s : σ} (h : Reachable step start s)
    (hstart : P start) (hstep : ∀ s input, P s → P (step s input)) : P s := by
  obtain ⟨inputs, rfl⟩ := h
  exact invariant_run hstep hstart inputs

theorem Reachable.run {start s : σ} (h : Reachable step start s) (inputs : List ι) :
    Reachable step start (run step s inputs) := by
  obtain ⟨before, rfl⟩ := h
  exact ⟨before ++ inputs, run_append step start before inputs⟩

theorem Visits.start {Q : σ → Prop} {s : σ} {inputs : List ι} (h : Visits step Q s inputs) :
    Q s := by
  cases inputs with
  | nil => exact h
  | cons _ _ => exact h.1

-- An invariant whose step needs `Q` on both sides holds along every run that stays in `Q`.
theorem invariant_of_visits {P Q : σ → Prop}
    (hstep : ∀ s input, Q s → Q (step s input) → P s → P (step s input)) {s : σ}
    {inputs : List ι} (hq : Visits step Q s inputs) (hs : P s) : P (run step s inputs) := by
  induction inputs generalizing s with
  | nil => exact hs
  | cons input rest ih => exact ih hq.2 (hstep s input hq.1 hq.2.start hs)

theorem Visits.of_invariant {Q : σ → Prop} (hstep : ∀ s input, Q s → Q (step s input)) {s : σ}
    (hs : Q s) (inputs : List ι) : Visits step Q s inputs := by
  induction inputs generalizing s with
  | nil => exact hs
  | cons input rest ih => exact ⟨hs, ih (hstep s input hs)⟩

-- An invariant that only some steps keep holds along every run of such steps.
theorem invariant_of_each {P : σ → Prop} {Q : σ → ι → Prop}
    (hstep : ∀ s input, Q s input → P s → P (step s input)) {s : σ} {inputs : List ι}
    (hq : Each step Q s inputs) (hs : P s) : P (run step s inputs) := by
  induction inputs generalizing s with
  | nil => exact hs
  | cons input rest ih => exact ih hq.2 (hstep s input hq.1 hs)

theorem Each.of_append {P : σ → ι → Prop} {s : σ} {front back : List ι} {input : ι}
    (h : Each step P s (front ++ input :: back)) : P (run step s front) input := by
  induction front generalizing s with
  | nil => exact h.1
  | cons first front ih => exact ih h.2

-- What holds of a step under an invariant holds of every step of a run of steps that keep it.
theorem Each.of_invariant {I : σ → Prop} {P Q : σ → ι → Prop}
    (hstep : ∀ s input, I s → P s input → I (step s input) ∧ Q s input) {s : σ} {inputs : List ι}
    (hp : Each step P s inputs) (hs : I s) : Each step Q s inputs := by
  induction inputs generalizing s with
  | nil => trivial
  | cons input rest ih =>
      obtain ⟨hnext, hq⟩ := hstep s input hs hp.1
      exact ⟨hq, ih hp.2 hnext⟩

theorem visits_of_each {I Q : σ → Prop} {P : σ → ι → Prop}
    (hstep : ∀ s input, I s → P s input → I (step s input)) (hstate : ∀ s, I s → Q s) {s : σ}
    {inputs : List ι} (hp : Each step P s inputs) (hs : I s) : Visits step Q s inputs := by
  induction inputs generalizing s with
  | nil => exact hstate s hs
  | cons input rest ih => exact ⟨hstate s hs, ih hp.2 (hstep s input hs hp.1)⟩

-- Two properties of a step that agree under an invariant agree along runs.
theorem each_congr {I : σ → Prop} {P Q R : σ → ι → Prop}
    (hiff : ∀ s input, I s → R s input → (P s input ↔ Q s input))
    (hstep : ∀ s input, P s input → I (step s input)) {s : σ} {inputs : List ι}
    (hr : Each step R s inputs) (hs : I s) : Each step P s inputs ↔ Each step Q s inputs := by
  induction inputs generalizing s with
  | nil => exact Iff.rfl
  | cons input rest ih =>
      constructor
      · rintro ⟨hp, hrest⟩
        exact ⟨(hiff s input hs hr.1).mp hp, (ih hr.2 (hstep s input hp)).mp hrest⟩
      · rintro ⟨hq, hrest⟩
        have hp := (hiff s input hs hr.1).mpr hq
        exact ⟨hp, (ih hr.2 (hstep s input hp)).mpr hrest⟩

end Run
