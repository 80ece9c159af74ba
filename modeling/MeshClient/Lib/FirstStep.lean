import MeshClient.Lib.Run

-- The first step of a run that has some property, and what does not change before and after it.
namespace Run

variable {σ ι α : Type*} {step : σ → ι → σ}

theorem Each.append {P : σ → ι → Prop} {s : σ} {front back : List ι} (h : Each step P s (front ++ back)) :
    Each step P s front ∧ Each step P (run step s front) back := by
  induction front generalizing s with
  | nil => exact ⟨trivial, h⟩
  | cons first front ih =>
      obtain ⟨hfront, hback⟩ := ih h.2
      exact ⟨⟨h.1, hfront⟩, hback⟩

theorem Each.and {P Q : σ → ι → Prop} {s : σ} {inputs : List ι} (hp : Each step P s inputs)
    (hq : Each step Q s inputs) : Each step (fun s input => P s input ∧ Q s input) s inputs := by
  induction inputs generalizing s with
  | nil => trivial
  | cons input rest ih => exact ⟨⟨hp.1, hq.1⟩, ih hp.2 hq.2⟩

theorem Each.of_forall {P : ι → Prop} {s : σ} {inputs : List ι} (h : ∀ input ∈ inputs, P input) :
    Each step (fun _ input => P input) s inputs := by
  induction inputs generalizing s with
  | nil => trivial
  | cons input rest ih =>
      exact ⟨h input List.mem_cons_self, ih fun later hlater => h later (List.mem_cons_of_mem _ hlater)⟩

-- Either no step has the property, or there is a first one.
theorem exists_first (A : σ → ι → Prop) (s : σ) (inputs : List ι) :
    Each step (fun s input => ¬ A s input) s inputs ∨
      ∃ front input back, inputs = front ++ input :: back ∧ Each step (fun s input => ¬ A s input) s front ∧
        A (run step s front) input := by
  induction inputs generalizing s with
  | nil => exact .inl trivial
  | cons input rest ih =>
      by_cases hfirst : A s input
      · exact .inr ⟨[], input, rest, rfl, trivial, hfirst⟩
      · obtain hnone | ⟨front, later, back, rfl, hfront, hlater⟩ := ih (step s input)
        · exact .inl ⟨hfirst, hnone⟩
        · exact .inr ⟨input :: front, later, back, rfl, ⟨hfirst, hfront⟩, hlater⟩

-- What every step of a run keeps, under an invariant of the run.
theorem unchanged_of_each {I : σ → Prop} {P : σ → ι → Prop} {view : σ → α}
    (hstep : ∀ s input, I s → P s input → I (step s input) ∧ view (step s input) = view s) {s : σ} {inputs : List ι}
    (hp : Each step P s inputs) (hs : I s) : view (run step s inputs) = view s := by
  induction inputs generalizing s with
  | nil => rfl
  | cons input rest ih =>
      obtain ⟨hnext, hview⟩ := hstep s input hs hp.1
      exact (ih hp.2 hnext).trans hview

end Run
