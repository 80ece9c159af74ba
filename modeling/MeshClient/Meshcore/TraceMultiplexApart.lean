import MeshClient.Meshcore.TraceMultiplexRuns

namespace MeshClient.Meshcore.TraceMux

open Lists Run Trace Slots

namespace Multiplex

variable {π ρ : Type} {s : Multiplex} {i : Nat} {t : PendingTrace} {m : Mark ρ}

theorem mem_settle {outcome : Except TraceError ρ} (h : m ∈ (s.settle i outcome).2) : m = .settled i outcome := by
  unfold settle at h
  split at h
  · simp at h
  · rename_i t ht
    by_cases hsettled : t.settled = true
    · rw [if_pos hsettled] at h
      simp at h
    · rw [if_neg hsettled] at h
      exact List.mem_singleton.mp h

theorem mem_settleAll {outcome : Except TraceError ρ} {ids : List Nat} (h : m ∈ (s.settleAll outcome ids).2) :
    ∃ i, m = .settled i outcome := by
  induction ids generalizing s with
  | nil => simp [settleAll] at h
  | cons i rest ih =>
      rcases List.mem_append.mp h with hfirst | hrest
      · exact ⟨i, mem_settle hfirst⟩
      · exact ih hrest

-- A trace is sent when none waits for its data, in the turn of its own function.
structure Sends (s : Multiplex) (i : Nat) (tag : Int) : Prop where
  responses : s.traceResponsesInFlight = 0
  trace : ∃ t, s.traces[i]? = some t ∧ t.settled = false ∧ t.tag = tag
  running : ∀ j, ¬ s.acknowledged j

theorem mem_poll (h : m ∈ (s.poll : Multiplex × List (Mark ρ)).2) :
    (∃ i, m = .settled i (.error .waitingForPriorTrace)) ∨ ∃ i tag, m = .sendTracePath i tag ∧ Sends s i tag := by
  unfold poll at h
  split at h
  · rename_i i idleWaitStart hrunning
    cases ht : s.traces[i]? with
    | none => simp [ht] at h
    | some t =>
        simp only [ht] at h
        split_ifs at h with hflight hsettled hlate hsettled'
        · simp at h
        · exact .inl ⟨i, mem_settle h⟩
        · simp at h
        · simp at h
        · refine .inr ⟨i, t.tag, List.mem_singleton.mp h, by omega, ⟨t, ht, by simpa using hsettled', rfl⟩, ?_⟩
          exact not_acknowledged (by simp [hrunning])
  · simp at h

theorem mem_dequeue (h : m ∈ (s.dequeue : Multiplex × List (Mark ρ)).2) :
    (∃ i, m = .settled i (.error .waitingForPriorTrace)) ∨ ∃ i tag, m = .sendTracePath i tag ∧ Sends s i tag := by
  unfold dequeue at h
  split at h
  · rename_i i rest hrunning hqueue
    rcases mem_poll h with hsettled | ⟨j, tag, heq, hsends⟩
    · exact .inl hsettled
    · exact .inr ⟨j, tag, heq, hsends.responses, hsends.trace, not_acknowledged (by simp [hrunning])⟩
  · simp at h

theorem mem_resume (h : m ∈ (s.resume : Multiplex × List (Mark ρ)).2) : ∃ i message, m = .settled i (.error (.send message)) := by
  unfold resume at h
  split at h
  · rename_i i estTimeoutMs hrunning
    cases ht : s.traces[i]? with
    | none => simp [ht] at h
    | some t =>
        simp only [ht] at h
        split_ifs at h <;> simp at h
  · exact ⟨_, _, mem_settle h⟩
  · simp at h

-- What a listener settles is a trace of the tag that the radio reports.
theorem mem_onTraceData {env : Env π ρ} (h : Sound s) {tagSigned : Int} {payload : π} {k : Nat}
    (hm : m ∈ (s.onTraceData env tagSigned payload k).2) :
    ∃ i t, s.traces[i]? = some t ∧ tagSigned % 2 ^ 32 = t.tag ∧
      m = .settled i
        (match env.traceDataPayloadToResult payload with
        | .ok result => .ok result
        | .error message => .error (.invalidResponse message)) := by
  rcases onTraceData_cases env h tagSigned payload k with heq | ⟨i, t, s', ht, -, htag, -, heq⟩
  · simp [heq] at hm
  · rw [heq] at hm
    exact ⟨i, t, ht, htag, List.mem_singleton.mp hm⟩

theorem tag_onTraceData (env : Env π ρ) (h : Sound s) (tagSigned : Int) (payload : π) (k : Nat)
    (ht : (s.onTraceData env tagSigned payload k).1.traces[i]? = some t) : ∃ t', s.traces[i]? = some t' ∧ t'.tag = t.tag := by
  rcases onTraceData_cases env h tagSigned payload k with heq | ⟨j, x, s', hx, -, -, hc, heq⟩
  · rw [heq] at ht
    exact ⟨t, ht, rfl⟩
  · rw [heq] at ht
    dsimp only at ht
    rw [hc.traces] at ht
    rcases modify_cases ht with ⟨-, hold⟩ | ⟨y, rfl, hy, rfl⟩
    · exact ⟨t, hold, rfl⟩
    · exact ⟨y, hy, rfl⟩

theorem mem_onTraceDataAll {env : Env π ρ} (h : Sound s) {tagSigned : Int} {payload : π} {ks : List Nat}
    (hm : m ∈ (s.onTraceDataAll env tagSigned payload ks).2) :
    ∃ i t, s.traces[i]? = some t ∧ tagSigned % 2 ^ 32 = t.tag ∧
      m = .settled i
        (match env.traceDataPayloadToResult payload with
        | .ok result => .ok result
        | .error message => .error (.invalidResponse message)) := by
  induction ks generalizing s with
  | nil => simp [onTraceDataAll] at hm
  | cons k rest ih =>
      rcases List.mem_append.mp hm with hfirst | hrest
      · exact mem_onTraceData h hfirst
      · obtain ⟨i, t, ht, htag, heq⟩ := ih (onTraceData_good env h tagSigned payload k).sound hrest
        obtain ⟨t', ht', htag'⟩ := tag_onTraceData env h tagSigned payload k ht
        exact ⟨i, t', ht', htag.trans htag'.symm, heq⟩

-- What a step leaves behind.
theorem mem_marks {env : Env π ρ} (h : Sound s) {e : Event π} (hm : m ∈ s.marks env e) :
    (∃ i error, m = .settled i (.error error)) ∨ (∃ i tag, m = .sendTracePath i tag ∧ Sends s i tag) ∨
      ∃ tag payload i t result, e = .traceData (some tag) payload ∧ s.traces[i]? = some t ∧ tag % 2 ^ 32 = t.tag ∧
        env.traceDataPayloadToResult payload = .ok result ∧ m = .settled i (.ok result) := by
  have hsends : ((∃ i, m = .settled i (.error .waitingForPriorTrace)) ∨ ∃ i tag, m = .sendTracePath i tag ∧ Sends s i tag) →
      (∃ i error, m = .settled i (.error error)) ∨ ∃ i tag, m = .sendTracePath i tag ∧ Sends s i tag := by
    rintro (⟨i, heq⟩ | hsent)
    · exact .inl ⟨i, _, heq⟩
    · exact .inr hsent
  rw [← or_assoc]
  unfold marks at hm
  cases e with
  | cancel i reason => exact .inl (.inl ⟨i, _, mem_settle hm⟩)
  | cancelAll reason =>
      simp only [handle, cancelAllPending] at hm
      split at hm
      · simp at hm
      · obtain ⟨i, heq⟩ := mem_settleAll hm
        exact .inl (.inl ⟨i, _, heq⟩)
  | resetOnDisconnect =>
      simp only [handle, resetOnDisconnect] at hm
      split at hm
      · simp at hm
      · obtain ⟨i, heq⟩ := mem_settleAll hm
        exact .inl (.inl ⟨i, _, heq⟩)
  | traceData tag payload =>
      cases tag with
      | none => simp [handle] at hm
      | some tag =>
          obtain ⟨i, t, ht, htag, heq⟩ := mem_onTraceDataAll h hm
          cases hdecode : env.traceDataPayloadToResult payload with
          | error message => exact .inl (.inl ⟨i, .invalidResponse message, by rw [heq, hdecode]⟩)
          | ok result => exact .inr ⟨tag, payload, i, t, result, rfl, ht, htag, hdecode, by rw [heq, hdecode]⟩
  | dequeue => exact .inl (hsends (mem_dequeue hm))
  | poll => exact .inl (hsends (mem_poll hm))
  | resume =>
      obtain ⟨i, message, heq⟩ := mem_resume hm
      exact .inl (.inl ⟨i, _, heq⟩)
  | traceTimeout i =>
      simp only [handle, traceTimeout] at hm
      split_ifs at hm
      · exact .inl (.inl ⟨i, _, mem_settle hm⟩)
      · simp at hm
  | _ => simp [handle] at hm

-- An acknowledged function is about to go on for a trace that is still open.
def resuming (s : Multiplex) : Bool :=
  match s.running with
  | some ⟨i, .acknowledged _⟩ => (s.traces[i]?).any isOpen
  | _ => false

def isAccepted (t : PendingTrace) : Bool := isOpen t && t.accepted

theorem resuming_eq_true_iff : s.resuming = true ↔ ∃ i t, s.acknowledged i ∧ s.traces[i]? = some t ∧ t.settled = false := by
  unfold resuming
  split
  · rename_i i estTimeoutMs hrunning
    rw [Option.any_eq_true]
    constructor
    · rintro ⟨t, ht, hopen⟩
      exact ⟨i, t, ⟨_, hrunning⟩, ht, by simpa [isOpen] using hopen⟩
    · rintro ⟨j, t, hacknowledged, ht, hopen⟩
      obtain rfl := (acknowledged_iff hrunning).mp hacknowledged
      exact ⟨t, ht, by simpa [isOpen] using hopen⟩
  · rename_i hrunning
    refine iff_of_false (by simp) ?_
    rintro ⟨i, t, ⟨estTimeoutMs, heq⟩, -⟩
    exact hrunning i estTimeoutMs heq

-- The counter counts the open traces that were accepted, but for one whose function is about to
-- go on.
theorem responses_eq (h : Sound s) : s.traceResponsesInFlight + s.resuming.toNat = s.traces.countP isAccepted := by
  rw [h.responses]
  cases hresuming : s.resuming with
  | false =>
      rw [Bool.toNat_false, Nat.add_zero]
      apply countP_congr rfl
      intro i x y hx hy
      obtain rfl := Option.some.inj (hx.symm.trans hy)
      have hnone : x.settled = false → ¬ s.acknowledged i := by
        intro hopen hacknowledged
        have := resuming_eq_true_iff.mpr ⟨i, x, hacknowledged, hx, hopen⟩
        rw [hresuming] at this
        cases this
      cases hsettled : x.settled with
      | true =>
          have hquiet : x.awaitingResponse = false := by
            by_contra hawaiting
            have hopen := h.awaiting i x hx (by simpa using hawaiting)
            rw [hsettled] at hopen
            cases hopen
          simp [isAwaiting, isAccepted, isOpen, hsettled, hquiet]
      | false =>
          have haccepted := h.accepted i x hx hsettled
          simp only [hnone hsettled, or_false] at haccepted
          simp only [isAwaiting, isAccepted, isOpen, hsettled, Bool.not_false, Bool.true_and]
          exact (Bool.eq_iff_iff.mpr haccepted).symm
  | true =>
      obtain ⟨i, t, hacknowledged, ht, hopen⟩ := resuming_eq_true_iff.mp hresuming
      obtain ⟨estTimeoutMs, hrunning⟩ := hacknowledged
      obtain ⟨t', ht', hquiet⟩ := h.ahead_quiet i (by simp [ahead, hrunning])
      obtain rfl := Option.some.inj (ht.symm.trans ht')
      have hcount := countP_modify (f := fun t => { t with awaitingResponse := true }) (p := isAwaiting) ht
      have hcongr : (s.traces.modify i fun t => { t with awaitingResponse := true }).countP isAwaiting =
          s.traces.countP isAccepted := by
        apply countP_congr (List.length_modify ..)
        intro j x y hx hy
        rcases modify_cases hx with ⟨hij, hold⟩ | ⟨z, rfl, hz, rfl⟩
        · obtain rfl := Option.some.inj (hold.symm.trans hy)
          cases hsettled : x.settled with
          | true =>
              have hquiet' : x.awaitingResponse = false := by
                by_contra hawaiting
                have hopen' := h.awaiting j x hold (by simpa using hawaiting)
                rw [hsettled] at hopen'
                cases hopen'
              simp [isAwaiting, isAccepted, isOpen, hsettled, hquiet']
          | false =>
              have haccepted := h.accepted j x hold hsettled
              rw [acknowledged_iff hrunning] at haccepted
              simp only [hij, or_false] at haccepted
              simp only [isAwaiting, isAccepted, isOpen, hsettled, Bool.not_false, Bool.true_and]
              exact (Bool.eq_iff_iff.mpr haccepted).symm
        · obtain rfl := Option.some.inj (hz.symm.trans hy)
          obtain rfl := Option.some.inj (ht.symm.trans hz)
          have haccepted := (h.accepted i t ht hopen).mpr (.inr ⟨estTimeoutMs, hrunning⟩)
          simp [isAwaiting, isAccepted, isOpen, hopen, haccepted]
      simp only [isAwaiting, hquiet, Bool.toNat_false, Bool.toNat_true] at hcount hcongr ⊢
      omega

-- Traces are kept apart: a result is that of the trace's own tag, the counters count, and no
-- trace is sent while another is on the air.
structure KeepsApart (env : Env π ρ) (events : List (Event π)) : Prop where
  settles_once : ∀ i, (Trace.trace (step env) (marks env) {} events).countP (isSettled i) ≤ 1
  own_tag : Each (step env) (fun s e => ∀ i result, .settled i (.ok result) ∈ s.marks env e →
    ∃ tag payload t, e = .traceData (some tag) payload ∧ s.traces[i]? = some t ∧ tag % 2 ^ 32 = t.tag ∧
      env.traceDataPayloadToResult payload = .ok result) {} events
  in_flight : Visits (step env) (fun s => s.traceResponsesInFlight + s.resuming.toNat = s.traces.countP isAccepted) {} events
  pending : Visits (step env) (fun s => s.tracePendingRouteCount = s.traces.countP isOpen) {} events
  idle : Visits (step env) (fun s => (∀ t ∈ s.traces, t.settled = true) →
    s.traceResponsesInFlight = 0 ∧ s.tracePendingRouteCount = 0) {} events
  one_on_air : Each (step env) (fun s e => ∀ i tag, .sendTracePath i tag ∈ s.marks env e →
    (∃ t, s.traces[i]? = some t ∧ t.settled = false ∧ t.tag = tag) ∧ ∀ t ∈ s.traces, isAccepted t = false) {} events

theorem settled_run (env : Env π ρ) (h : Sound s) (events : List (Event π)) :
    ((run (step env) s events).settledAt i).toNat =
      (s.settledAt i).toNat + (Trace.trace (step env) (marks env) s events).countP (isSettled i) := by
  induction events generalizing s with
  | nil => simp [Trace.trace]
  | cons e rest ih =>
      have hgood : Good s (s.handle env e) := handle_good h e
      have hstep : ((s.step env e).settledAt i).toNat = (s.settledAt i).toNat + (s.marks env e).countP (isSettled i) :=
        hgood.balanced i
      have hrest := @ih (s.step env e) hgood.sound
      rw [run_cons, Trace.trace, List.countP_append]
      omega

theorem not_accepted_of_sends {tag : Int} (h : Sound s) (hsends : Sends s i tag) : ∀ t ∈ s.traces, isAccepted t = false := by
  have hcount := responses_eq h
  have hresuming : s.resuming = false := by
    by_contra hcon
    obtain ⟨j, t, hacknowledged, -⟩ := resuming_eq_true_iff.mp (by simpa using hcon)
    exact hsends.running j hacknowledged
  rw [hsends.responses, hresuming] at hcount
  intro t ht
  have hzero := List.countP_eq_zero.mp hcount.symm t ht
  simpa using hzero

theorem keeps_apart (env : Env π ρ) (events : List (Event π)) : KeepsApart env events := by
  have hstep : ∀ s (e : Event π), Sound s → Sound (s.step env e) := fun s e h => (handle_good h e).sound
  have heach : ∀ {Q : Multiplex → Event π → Prop}, (∀ s e, Sound s → Q s e) → Each (step env) Q {} events := by
    intro Q hq
    have hall : ∀ {s : Multiplex}, Sound s → Each (step env) Q s events := by
      induction events with
      | nil => exact fun _ => trivial
      | cons e rest ih => exact fun hs => ⟨hq _ e hs, ih (hstep _ e hs)⟩
    exact hall sound_start
  have hvisits : ∀ {Q : Multiplex → Prop}, (∀ s, Sound s → Q s) → Visits (step env) Q {} events := by
    intro Q hq
    exact @visits_of_each _ _ (step env) Sound Q (fun _ _ => True) (fun s e hs _ => hstep s e hs) hq _ _
      (heach fun _ _ _ => trivial) sound_start
  refine ⟨?_, ?_, hvisits fun _ => responses_eq, hvisits fun _ => Sound.routes, ?_, ?_⟩
  · intro i
    have hrun := @settled_run π ρ {} i env sound_start events
    have hle := Bool.toNat_le ((run (step env) {} events).settledAt i)
    omega
  · apply heach
    intro s e hs i result hm
    rcases mem_marks hs hm with ⟨j, error, heq⟩ | ⟨j, tag, heq, -⟩ | ⟨tag, payload, j, t, result', he, ht, htag, hdecode, heq⟩
    · simp at heq
    · simp at heq
    · obtain ⟨rfl, rfl⟩ : i = j ∧ result = result' := by simpa using heq
      exact ⟨tag, payload, t, he, ht, htag, hdecode⟩
  · apply hvisits
    intro s hs hall
    exact counts_of_settled hs fun i t ht => hall t (List.mem_of_getElem? ht)
  · apply heach
    intro s e hs i tag hm
    rcases mem_marks hs hm with ⟨j, error, heq⟩ | ⟨j, tag', heq, hsends⟩ | ⟨_, _, _, _, _, _, _, _, _, heq⟩
    · simp at heq
    · obtain ⟨rfl, rfl⟩ : i = j ∧ tag = tag' := by simpa using heq
      exact ⟨hsends.trace, not_accepted_of_sends hs hsends⟩
    · simp at heq

end Multiplex

end MeshClient.Meshcore.TraceMux
