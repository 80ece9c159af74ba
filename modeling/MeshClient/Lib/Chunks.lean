import Mathlib

-- A machine that reads a stream symbol by symbol, but is handed the stream in chunks: what a
-- chunk gives reaches the caller when the whole chunk is read, and a failure in the chunk
-- keeps all of it back.
namespace Chunks

variable {σ β ω ε : Type*} (step : σ → β → σ × Except ε (Option ω))

def feed (s : σ) : List β → σ × Except ε (List ω)
  | [] => (s, .ok [])
  | b :: bs =>
      match step s b with
      | (s', .error e) => (s', .error e)
      | (s', .ok output) =>
          match feed s' bs with
          | (s'', .error e) => (s'', .error e)
          | (s'', .ok outputs) => (s'', .ok (output.toList ++ outputs))

-- What the caller gets of the chunks up to the first failure, and the failure.
def delivered (s : σ) : List (List β) → List ω × Option ε
  | [] => ([], none)
  | c :: cs =>
      match feed step s c with
      | (_, .error e) => ([], some e)
      | (s', .ok outputs) => (outputs ++ (delivered s' cs).1, (delivered s' cs).2)

-- The run over the uncut stream from position `n` on: every output with the number of symbols
-- read by then, and the position of the symbol that fails.
def trace (s : σ) (n : Nat) : List β → List (Nat × ω) × Option (Nat × ε)
  | [] => ([], none)
  | b :: bs =>
      match step s b with
      | (_, .error e) => ([], some (n, e))
      | (s', .ok output) =>
          (output.toList.map (n + 1, ·) ++ (trace s' (n + 1) bs).1, (trace s' (n + 1) bs).2)

-- Where the chunk with the `i`-th symbol begins.
def chunkStart : List (List β) → Nat → Nat
  | [], _ => 0
  | c :: cs, i => if i < c.length then 0 else c.length + chunkStart cs (i - c.length)

theorem trace_bounds (s : σ) (n : Nat) (bs : List β) :
    (∀ o ∈ (trace step s n bs).1, n < o.1 ∧ o.1 ≤ n + bs.length) ∧
    ∀ f ∈ (trace step s n bs).2, n ≤ f.1 ∧ f.1 < n + bs.length := by
  induction bs generalizing s n with
  | nil => simp [trace]
  | cons b bs ih =>
      obtain ⟨s', result⟩ : _ × _ := step s b
      cases hstep : step s b with
      | mk s' result =>
          cases result with
          | error e => simp [trace, hstep]
          | ok output =>
              obtain ⟨hout, hfail⟩ := ih s' (n + 1)
              simp only [trace, hstep, List.length_cons]
              constructor
              · intro o ho
                rcases List.mem_append.mp ho with ho | ho
                · obtain ⟨_, _, rfl⟩ := List.mem_map.mp ho
                  dsimp only
                  omega
                · have := hout o ho
                  omega
              · intro f hf
                have := hfail f hf
                omega

theorem feed_eq_trace (s : σ) (n : Nat) (bs : List β) :
    (feed step s bs).2 = match (trace step s n bs).2 with
      | none => .ok ((trace step s n bs).1.map Prod.snd)
      | some f => .error f.2 := by
  induction bs generalizing s n with
  | nil => rfl
  | cons b bs ih =>
      cases hstep : step s b with
      | mk s' result =>
          cases result with
          | error e => simp [feed, trace, hstep]
          | ok output =>
              have hrest := ih s' (n + 1)
              cases hfeed : feed step s' bs with
              | mk s'' rest =>
                  rw [hfeed] at hrest
                  cases hfail : (trace step s' (n + 1) bs).2 with
                  | none =>
                      simp only [hfail] at hrest
                      subst hrest
                      cases output with
                      | none => simp [feed, trace, hstep, hfeed, hfail]
                      | some w => simp [feed, trace, hstep, hfeed, hfail]
                  | some f =>
                      simp only [hfail] at hrest
                      subst hrest
                      simp [feed, trace, hstep, hfeed, hfail]

-- A chunk that is read to its end hands the machine on to the next one.
theorem trace_append {s s' : σ} {outputs : List ω} {c : List β}
    (h : feed step s c = (s', .ok outputs)) (n : Nat) (bs : List β) :
    trace step s n (c ++ bs) =
      ((trace step s n c).1 ++ (trace step s' (n + c.length) bs).1, (trace step s' (n + c.length) bs).2) := by
  induction c generalizing s n outputs with
  | nil =>
      cases h
      simp [trace]
  | cons b c ih =>
      cases hstep : step s b with
      | mk s₁ result =>
          cases result with
          | error e => simp [feed, hstep] at h
          | ok output =>
              cases hfeed : feed step s₁ c with
              | mk s₂ rest =>
                  cases rest with
                  | error e => simp [feed, hstep, hfeed] at h
                  | ok rest =>
                      have hs : s₂ = s' := by
                        simp only [feed, hstep, hfeed, Prod.mk.injEq] at h
                        exact h.1
                      subst hs
                      have hlen : n + 1 + c.length = n + (c.length + 1) := by omega
                      simp only [List.cons_append, trace, hstep, ih hfeed (n + 1), List.length_cons, hlen,
                        List.append_assoc]

theorem trace_append_of_fail {s : σ} {n : Nat} {c : List β} {f : Nat × ε}
    (h : (trace step s n c).2 = some f) (bs : List β) : trace step s n (c ++ bs) = trace step s n c := by
  induction c generalizing s n with
  | nil => simp [trace] at h
  | cons b c ih =>
      cases hstep : step s b with
      | mk s' result =>
          cases result with
          | error e => simp [trace, hstep]
          | ok output =>
              have hrest : (trace step s' (n + 1) c).2 = some f := by simpa [trace, hstep] using h
              simp only [List.cons_append, trace, hstep, ih hrest]

-- What arrives: without a failure everything; with one, what was given before the chunk of
-- the failing symbol began.
theorem delivered_eq (s : σ) (n : Nat) (cs : List (List β)) :
    delivered step s cs = match (trace step s n cs.flatten).2 with
      | none => ((trace step s n cs.flatten).1.map Prod.snd, none)
      | some f =>
          (((trace step s n cs.flatten).1.filter fun o => o.1 ≤ n + chunkStart cs (f.1 - n)).map Prod.snd,
            some f.2) := by
  induction cs generalizing s n with
  | nil => rfl
  | cons c cs ih =>
      have hfeed := feed_eq_trace step s n c
      cases hc : (trace step s n c).2 with
      | some f =>
          obtain ⟨hlow, hhigh⟩ := (trace_bounds step s n c).2 f (by simp [hc])
          have hstart : chunkStart (c :: cs) (f.1 - n) = 0 := by
            rw [chunkStart, if_pos (by omega)]
          have hnone : (trace step s n c).1.filter (fun o => o.1 ≤ n) = [] := by
            rw [List.filter_eq_nil_iff]
            intro o ho
            have := ((trace_bounds step s n c).1 o ho).1
            simp only [decide_eq_true_eq]
            omega
          rw [hc] at hfeed
          rw [List.flatten_cons, trace_append_of_fail step hc, hc]
          simp only [hstart, Nat.add_zero, hnone, List.map_nil]
          rw [delivered]
          cases hd : feed step s c with
          | mk s' result =>
              rw [hd] at hfeed
              obtain rfl : result = .error f.2 := hfeed
              rfl
      | none =>
          rw [hc] at hfeed
          cases hd : feed step s c with
          | mk s' result =>
              rw [hd] at hfeed
              obtain rfl : result = .ok ((trace step s n c).1.map Prod.snd) := hfeed
              have hrest := ih s' (n + c.length)
              rw [List.flatten_cons, trace_append step hd, delivered, hd]
              simp only [hrest]
              cases hf : (trace step s' (n + c.length) cs.flatten).2 with
              | none => simp
              | some f =>
                  obtain ⟨hlow, hhigh⟩ := (trace_bounds step s' (n + c.length) cs.flatten).2 f (by simp [hf])
                  have hstart : n + chunkStart (c :: cs) (f.1 - n) =
                      n + c.length + chunkStart cs (f.1 - (n + c.length)) := by
                    rw [chunkStart, if_neg (by omega), Nat.sub_sub]
                    omega
                  have hall : (trace step s n c).1.filter
                      (fun o => o.1 ≤ n + c.length + chunkStart cs (f.1 - (n + c.length))) =
                      (trace step s n c).1 := by
                    rw [List.filter_eq_self]
                    intro o ho
                    have := ((trace_bounds step s n c).1 o ho).2
                    simp only [decide_eq_true_eq]
                    omega
                  simp only [hstart, List.filter_append, hall, List.map_append]

-- Of two such filters one keeps all the other keeps, so equally many are the same ones.
theorem filter_le_eq_iff (outputs : List (Nat × ω)) (a b : Nat) :
    (outputs.filter fun o => o.1 ≤ a).map Prod.snd = (outputs.filter fun o => o.1 ≤ b).map Prod.snd ↔
      ∀ o ∈ outputs, o.1 ≤ a ↔ o.1 ≤ b := by
  constructor
  · intro h
    have hlen : (outputs.filter fun o => o.1 ≤ a).length = (outputs.filter fun o => o.1 ≤ b).length := by
      simpa using congrArg List.length h
    have hsub : ∀ x y, x ≤ y → (outputs.filter fun o => o.1 ≤ x).Sublist (outputs.filter fun o => o.1 ≤ y) := by
      intro x y hxy
      have heq : outputs.filter (fun o => decide (o.1 ≤ x)) =
          (outputs.filter fun o => decide (o.1 ≤ y)).filter fun o => decide (o.1 ≤ x) := by
        rw [List.filter_filter]
        apply List.filter_congr
        intro o _
        rw [← Bool.decide_and]
        exact decide_eq_decide.mpr ⟨fun h => ⟨h, h.trans hxy⟩, And.left⟩
      rw [heq]
      exact List.filter_sublist
    have hsame : (outputs.filter fun o => o.1 ≤ a) = outputs.filter fun o => o.1 ≤ b := by
      rcases Nat.le_total a b with hab | hab
      · exact (hsub a b hab).eq_of_length hlen
      · exact ((hsub b a hab).eq_of_length hlen.symm).symm
    intro o ho
    have hmem : o ∈ outputs.filter (fun o => decide (o.1 ≤ a)) ↔ o ∈ outputs.filter fun o => decide (o.1 ≤ b) := by
      rw [hsame]
    simpa [List.mem_filter, ho] using hmem
  · intro h
    congr 1
    apply List.filter_congr
    intro o ho
    exact decide_eq_decide.mpr (h o ho)

-- Two cuttings of one stream deliver the same, unless it fails and some output is given between
-- the beginnings of the two chunks that hold the failing symbol.
theorem delivered_agree_iff (s : σ) {cs ds : List (List β)} (h : cs.flatten = ds.flatten) :
    delivered step s cs = delivered step s ds ↔
      ∀ f ∈ (trace step s 0 cs.flatten).2, ∀ o ∈ (trace step s 0 cs.flatten).1,
        o.1 ≤ chunkStart cs f.1 ↔ o.1 ≤ chunkStart ds f.1 := by
  rw [delivered_eq step s 0 cs, delivered_eq step s 0 ds, ← h]
  cases hf : (trace step s 0 cs.flatten).2 with
  | none => simp
  | some f =>
      simp only [Nat.zero_add, Nat.sub_zero, Prod.mk.injEq, and_true, Option.mem_def, Option.some.injEq,
        forall_eq']
      exact filter_le_eq_iff _ _ _

end Chunks
