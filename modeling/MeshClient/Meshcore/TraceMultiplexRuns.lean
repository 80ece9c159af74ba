import MeshClient.Lib.Slots
import MeshClient.Meshcore.TraceMultiplex

namespace MeshClient.Meshcore.TraceMux

open Lists Run Trace Slots

namespace Multiplex

variable {π ρ : Type} {env : Env π ρ} {s s' : Multiplex} {i j : Nat} {t : PendingTrace}

def isOpen (t : PendingTrace) : Bool := !t.settled

def isAwaiting (t : PendingTrace) : Bool := t.awaitingResponse

def isSettled (i : Nat) : Mark ρ → Bool
  | .settled j _ => i = j
  | .sendTracePath _ _ => false

-- The traces whose serialized functions have not returned.
def ahead (s : Multiplex) : List Nat := (s.running.map Running.trace).toList ++ s.queue

def acknowledged (s : Multiplex) (i : Nat) : Prop := ∃ estTimeoutMs, s.running = some ⟨i, .acknowledged estTimeoutMs⟩

structure Sound (s : Multiplex) : Prop where
  responses : s.traceResponsesInFlight = s.traces.countP isAwaiting
  routes : s.tracePendingRouteCount = s.traces.countP isOpen
  awaiting : ∀ (i : Nat) (t : PendingTrace), s.traces[i]? = some t → t.awaitingResponse = true → t.settled = false
  accepted : ∀ (i : Nat) (t : PendingTrace), s.traces[i]? = some t → t.settled = false →
    (t.accepted = true ↔ t.awaitingResponse = true ∨ s.acknowledged i)
  ahead_nodup : s.ahead.Nodup
  ahead_quiet : ∀ i ∈ s.ahead, ∃ t : PendingTrace, s.traces[i]? = some t ∧ t.awaitingResponse = false
  placed : ∀ (i : Nat) (t : PendingTrace), s.traces[i]? = some t → t.settled = false →
    s.mux = some t.mux ∧ ∃ m : OrderedMap Int Nat, s.muxes[t.mux]? = some m ∧ m.get? t.tag = some i
  entry : ∀ (k : Nat) (m : OrderedMap Int Nat) (tag : Int) (i : Nat), s.muxes[k]? = some m → m.get? tag = some i →
    ∃ t : PendingTrace, s.traces[i]? = some t ∧ t.tag = tag ∧ t.mux = k ∧ t.settled = false
  range : ∀ (i : Nat) (t : PendingTrace), s.traces[i]? = some t → 0 ≤ t.tag ∧ t.tag < 2 ^ 32
  current : ∀ m, s.mux = some m → m < s.muxes.length

theorem sound_start : Sound {} :=
  ⟨rfl, rfl, by simp, by simp, List.nodup_nil, by simp [ahead], by simp, by simp, by simp, by simp⟩

-- What the settlement of an open trace changes.
structure Closes (s s' : Multiplex) (i : Nat) (t : PendingTrace) : Prop where
  traces : s'.traces = s.traces.modify i close
  responses : s'.traceResponsesInFlight = s.traceResponsesInFlight - t.awaitingResponse.toNat
  routes : s'.tracePendingRouteCount = s.tracePendingRouteCount - 1
  length : s'.muxes.length = s.muxes.length
  muxes : ∀ (k : Nat) (m m' : OrderedMap Int Nat), s.muxes[k]? = some m → s'.muxes[k]? = some m' →
    ∀ (tag : Int) (j : Nat), m'.get? tag = some j ↔ m.get? tag = some j ∧ j ≠ i
  mux : s'.mux = s.mux
  queue : s'.queue = s.queue
  running : s'.running = s.running

theorem sound_of_closes (h : Sound s) (ht : s.traces[i]? = some t) (hopen : t.settled = false)
    (hc : Closes s s' i t) : Sound s' := by
  have hcases : ∀ j t', s'.traces[j]? = some t' → (i ≠ j ∧ s.traces[j]? = some t') ∨ (i = j ∧ t' = close t) := by
    intro j t' ht'
    rw [hc.traces] at ht'
    rcases modify_cases ht' with hold | ⟨x, rfl, hx, rfl⟩
    · exact .inl hold
    · obtain rfl := Option.some.inj (ht.symm.trans hx)
      exact .inr ⟨rfl, rfl⟩
  have hmux : ∀ (k : Nat) (m' : OrderedMap Int Nat), s'.muxes[k]? = some m' → ∃ m, s.muxes[k]? = some m := by
    intro k m' hm'
    have hlt := (List.getElem?_eq_some_iff.mp hm').1
    rw [hc.length] at hlt
    exact ⟨_, List.getElem?_eq_getElem hlt⟩
  refine ⟨?_, ?_, ?_, ?_, ?_, ?_, ?_, ?_, ?_, ?_⟩
  · have hcount := countP_modify (f := close) (p := isAwaiting) ht
    rw [hc.responses, hc.traces, h.responses]
    simp only [isAwaiting, close, Bool.toNat_false] at hcount ⊢
    omega
  · have hcount := countP_modify (f := close) (p := isOpen) ht
    rw [hc.routes, hc.traces, h.routes]
    simp only [isOpen, close, hopen, Bool.not_true, Bool.not_false, Bool.toNat_false, Bool.toNat_true] at hcount ⊢
    omega
  · intro j t' ht' hawaiting
    rcases hcases j t' ht' with ⟨-, hold⟩ | ⟨-, rfl⟩
    · exact h.awaiting j t' hold hawaiting
    · cases hawaiting
  · intro j t' ht' hsettled
    rcases hcases j t' ht' with ⟨-, hold⟩ | ⟨-, rfl⟩
    · rw [acknowledged, hc.running]
      exact h.accepted j t' hold hsettled
    · cases hsettled
  · rw [ahead, hc.running, hc.queue]
    exact h.ahead_nodup
  · rw [ahead, hc.running, hc.queue]
    intro j hj
    obtain ⟨t', ht', hquiet⟩ := h.ahead_quiet j hj
    rw [hc.traces]
    by_cases hij : i = j
    · subst hij
      exact ⟨close t, modify_self ht, rfl⟩
    · exact ⟨t', by rw [modify_of_ne hij, ht'], hquiet⟩
  · intro j t' ht' hsettled
    rcases hcases j t' ht' with ⟨hij, hold⟩ | ⟨-, rfl⟩
    · obtain ⟨hcurrent, m, hm, hget⟩ := h.placed j t' hold hsettled
      have hlt := (List.getElem?_eq_some_iff.mp hm).1
      rw [← hc.length] at hlt
      refine ⟨by rw [hc.mux, hcurrent], _, List.getElem?_eq_getElem hlt, ?_⟩
      exact (hc.muxes _ m _ hm (List.getElem?_eq_getElem hlt) _ _).mpr ⟨hget, Ne.symm hij⟩
    · cases hsettled
  · intro k m' tag j hm' hget
    obtain ⟨m, hm⟩ := hmux k m' hm'
    obtain ⟨hold, hne⟩ := (hc.muxes k m m' hm hm' tag j).mp hget
    obtain ⟨t', ht', hrest⟩ := h.entry k m tag j hm hold
    exact ⟨t', by rw [hc.traces, modify_of_ne (Ne.symm hne), ht'], hrest⟩
  · intro j t' ht'
    rcases hcases j t' ht' with ⟨-, hold⟩ | ⟨rfl, rfl⟩
    · exact h.range j t' hold
    · exact h.range i t ht
  · intro m hm
    rw [hc.mux] at hm
    rw [hc.length]
    exact h.current m hm

-- Erasing a trace's tag removes the trace and no other.
theorem get?_erase_tag (h : Sound s) (ht : s.traces[i]? = some t) (hopen : t.settled = false) {k : Nat}
    {m : OrderedMap Int Nat} (hm : s.muxes[k]? = some m) (tag : Int) (j : Nat) :
    (if t.mux = k then m.erase t.tag else m).get? tag = some j ↔ m.get? tag = some j ∧ j ≠ i := by
  obtain ⟨-, own, hown, hget⟩ := h.placed i t ht hopen
  by_cases hk : t.mux = k
  · subst hk
    obtain rfl := Option.some.inj (hown.symm.trans hm)
    rw [if_pos rfl, OrderedMap.get?_erase]
    constructor
    · intro hj
      split_ifs at hj with htag
      refine ⟨hj, ?_⟩
      rintro rfl
      obtain ⟨t', ht', rfl, -⟩ := h.entry _ _ _ _ hm hj
      obtain rfl := Option.some.inj (ht.symm.trans ht')
      exact htag rfl
    · rintro ⟨hj, hne⟩
      rw [if_neg, hj]
      rintro rfl
      exact hne (Option.some.inj (hj.symm.trans hget))
  · rw [if_neg hk]
    refine ⟨fun hj => ⟨hj, ?_⟩, And.left⟩
    rintro rfl
    obtain ⟨t', ht', -, hmux, -⟩ := h.entry _ _ _ _ hm hj
    obtain rfl := Option.some.inj (ht.symm.trans ht')
    exact hk hmux

theorem settle_of_open (ht : s.traces[i]? = some t) (hopen : t.settled = false) (outcome : Except TraceError ρ) :
    s.settle i outcome =
      ({ s.update i close with
          traceResponsesInFlight := if t.awaitingResponse then s.traceResponsesInFlight - 1 else s.traceResponsesInFlight
          tracePendingRouteCount := s.tracePendingRouteCount - 1
          muxes := s.muxes.modify t.mux fun m => m.erase t.tag }, [.settled i outcome]) := by
  simp [settle, ht, hopen]

theorem settle_of_settled (h : ∀ t, s.traces[i]? = some t → t.settled = true) (outcome : Except TraceError ρ) :
    s.settle i outcome = (s, []) := by
  unfold settle
  cases ht : s.traces[i]? with
  | none => rfl
  | some t => simp [h t ht]

theorem closes_settle (h : Sound s) (ht : s.traces[i]? = some t) (hopen : t.settled = false) (outcome : Except TraceError ρ) :
    Closes s (s.settle i outcome).1 i t := by
  rw [settle_of_open ht hopen]
  refine ⟨rfl, ?_, rfl, by simp, ?_, rfl, rfl, rfl⟩
  · cases t.awaitingResponse <;> rfl
  · intro k m m' hm hm' tag j
    rw [← get?_erase_tag h ht hopen hm]
    rw [List.getElem?_modify, hm] at hm'
    obtain rfl : m' = if t.mux = k then m.erase t.tag else m := by
      by_cases hk : t.mux = k
      · simpa [hk] using hm'.symm
      · simpa [hk] using hm'.symm
    rfl

def settledAt (s : Multiplex) (i : Nat) : Bool := (s.traces[i]?).any PendingTrace.settled

-- A step seen from the outside: a promise is settled exactly when a mark says so.
structure Good (s : Multiplex) (r : Multiplex × List (Mark ρ)) : Prop where
  sound : Sound r.1
  balanced : ∀ i, (r.1.settledAt i).toNat = (s.settledAt i).toNat + r.2.countP (isSettled i)

theorem good_of_traces {r : Multiplex × List (Mark ρ)} (h : Sound r.1) (htraces : r.1.traces = s.traces)
    (hmarks : ∀ i, r.2.countP (isSettled i) = 0) : Good s r :=
  ⟨h, fun i => by rw [settledAt, settledAt, htraces, hmarks, Nat.add_zero]⟩

theorem good_refl (h : Sound s) : Good s ((s, []) : Multiplex × List (Mark ρ)) := good_of_traces h rfl fun _ => rfl

theorem good_of_closes (h : Sound s) (ht : s.traces[i]? = some t) (hopen : t.settled = false) (hc : Closes s s' i t)
    (outcome : Except TraceError ρ) : Good s (s', [.settled i outcome]) := by
  refine ⟨sound_of_closes h ht hopen hc, ?_⟩
  intro j
  unfold settledAt
  rw [hc.traces]
  by_cases hij : i = j
  · subst hij
    rw [modify_self ht, ht]
    simp [close, hopen, isSettled]
  · rw [modify_of_ne hij]
    simp [isSettled, Ne.symm hij]

theorem settle_good (h : Sound s) (i : Nat) (outcome : Except TraceError ρ) : Good s (s.settle i outcome) := by
  by_cases hany : ∃ t, s.traces[i]? = some t ∧ t.settled = false
  · obtain ⟨t, ht, hopen⟩ := hany
    have hgood := good_of_closes h ht hopen (closes_settle h ht hopen outcome) outcome
    rw [settle_of_open ht hopen] at hgood ⊢
    exact hgood
  · push Not at hany
    rw [settle_of_settled (fun t ht => by simpa using hany t ht)]
    exact good_refl h

theorem Good.append {r r' : Multiplex × List (Mark ρ)} (h : Good s r) (h' : Good r.1 r') : Good s (r'.1, r.2 ++ r'.2) := by
  refine ⟨h'.sound, ?_⟩
  intro i
  have hfirst := h.balanced i
  have hsecond := h'.balanced i
  rw [List.countP_append]
  dsimp only
  omega

theorem settleAll_good (h : Sound s) (outcome : Except TraceError ρ) (ids : List Nat) :
    Good s (s.settleAll outcome ids) := by
  induction ids generalizing s with
  | nil => exact good_refl h
  | cons i rest ih =>
      have hfirst := settle_good h i outcome
      exact hfirst.append (ih hfirst.sound)

theorem modify_close (xs : List PendingTrace) (i : Nat) (f : PendingTrace → PendingTrace) (hf : ∀ t, close (f t) = close t) :
    (xs.modify i f).modify i close = xs.modify i close := by
  rw [List.modify_modify_eq]
  congr 1
  funext t
  exact hf t

-- A map of pending traces answers for no tag outside 32 bits.
theorem tag_of_get? (h : Sound s) {m : Nat} {pendingByTag : OrderedMap Int Nat} (hm : s.muxes[m]? = some pendingByTag)
    {tag : Int} (hget : pendingByTag.get? tag = some i) : tag % 2 ^ 32 = tag := by
  obtain ⟨t, ht, rfl, -⟩ := h.entry m pendingByTag tag i hm hget
  obtain ⟨hlow, hhigh⟩ := h.range i t ht
  exact Int.emod_eq_of_lt hlow hhigh

theorem get?_of_listener (h : Sound s) {m : Nat} {pendingByTag : OrderedMap Int Nat} (hm : s.muxes[m]? = some pendingByTag)
    {tagSigned : Int} (hget : (pendingByTag.get? (tagSigned % 2 ^ 32)).or (pendingByTag.get? tagSigned) = some i) :
    pendingByTag.get? (tagSigned % 2 ^ 32) = some i := by
  rcases Option.or_eq_some_iff.mp hget with hfound | ⟨-, hsigned⟩
  · exact hfound
  · rw [tag_of_get? h hm hsigned, hsigned]

-- The trace that a listener finds is open, has the tag, and is the one that is settled.
theorem onTraceData_cases (env : Env π ρ) (h : Sound s) (tagSigned : Int) (payload : π) (m : Nat) :
    s.onTraceData env tagSigned payload m = (s, []) ∨
      ∃ i t s', s.traces[i]? = some t ∧ t.settled = false ∧ tagSigned % 2 ^ 32 = t.tag ∧ Closes s s' i t ∧
        s.onTraceData env tagSigned payload m =
          (s', [.settled i
            (match env.traceDataPayloadToResult payload with
            | .ok result => .ok result
            | .error message => .error (.invalidResponse message))]) := by
  unfold onTraceData
  cases hm : s.muxes[m]? with
  | none => exact .inl rfl
  | some pendingByTag =>
      dsimp only
      cases hget : (pendingByTag.get? (tagSigned % 2 ^ 32)).or (pendingByTag.get? tagSigned) with
      | none => exact .inl rfl
      | some i =>
          have hfound := get?_of_listener h hm hget
          obtain ⟨t, ht, htag, hmux, hopen⟩ := h.entry m pendingByTag _ i hm hfound
          right
          have hlisten : ({ s.update i untimed with
              muxes := s.muxes.modify m fun p => (p.erase (tagSigned % 2 ^ 32)).erase tagSigned } : Multiplex).traces[i]? =
              some (untimed t) := modify_self ht
          refine ⟨i, t, _, ht, hopen, htag.symm, ?_, settle_of_open hlisten hopen _⟩
          refine ⟨modify_close _ i _ fun _ => rfl, ?_, rfl, by simp, ?_, rfl, rfl, rfl⟩
          · show (if t.awaitingResponse = true then s.traceResponsesInFlight - 1 else s.traceResponsesInFlight) = _
            cases t.awaitingResponse <;> rfl
          · intro k p p' hp hp' tag j
            rw [← get?_erase_tag h ht hopen hp]
            change ((s.muxes.modify m fun p => (p.erase (tagSigned % 2 ^ 32)).erase tagSigned).modify t.mux
              fun p => p.erase t.tag)[k]? = some p' at hp'
            rw [hmux, List.getElem?_modify, List.getElem?_modify, hp] at hp'
            by_cases hk : m = k
            · subst hk
              obtain rfl := Option.some.inj (hm.symm.trans hp)
              obtain rfl : p' = ((pendingByTag.erase (tagSigned % 2 ^ 32)).erase tagSigned).erase t.tag := by
                simpa using hp'.symm
              rw [if_pos hmux, OrderedMap.get?_erase, OrderedMap.get?_erase, OrderedMap.get?_erase, OrderedMap.get?_erase, ← htag]
              by_cases hsame : tag = t.tag
              · rw [if_pos hsame, if_pos hsame]
              · rw [if_neg hsame, if_neg hsame]
                by_cases hsigned : tag = tagSigned
                · rw [if_pos hsigned]
                  refine ⟨fun hcon => (by cases hcon), fun hcon => ?_⟩
                  rw [hsigned] at hcon
                  rw [hsigned, htag] at hsame
                  exact absurd (tag_of_get? h hm hcon).symm hsame
                · rw [if_neg hsigned]
            · obtain rfl : p' = p := by simpa [hk] using hp'.symm
              rw [if_neg (by rw [hmux]; exact hk)]

theorem onTraceData_good (env : Env π ρ) (h : Sound s) (tagSigned : Int) (payload : π) (m : Nat) :
    Good s (s.onTraceData env tagSigned payload m) := by
  rcases onTraceData_cases env h tagSigned payload m with heq | ⟨i, t, s', ht, hopen, -, hc, heq⟩
  · rw [heq]
    exact good_refl h
  · rw [heq]
    exact good_of_closes h ht hopen hc _

theorem onTraceDataAll_good (env : Env π ρ) (h : Sound s) (tagSigned : Int) (payload : π) (ms : List Nat) :
    Good s (s.onTraceDataAll env tagSigned payload ms) := by
  induction ms generalizing s with
  | nil => exact good_refl h
  | cons m rest ih =>
      have hfirst := onTraceData_good env h tagSigned payload m
      exact hfirst.append (ih hfirst.sound)

-- A serialized function goes on: the traces and what is known of them stay.
theorem sound_of_running (h : Sound s) (htraces : s'.traces = s.traces)
    (hresponses : s'.traceResponsesInFlight = s.traceResponsesInFlight)
    (hroutes : s'.tracePendingRouteCount = s.tracePendingRouteCount) (hmuxes : s'.muxes = s.muxes) (hmux : s'.mux = s.mux)
    (hahead : s'.ahead.Sublist s.ahead)
    (hacknowledged : ∀ i (t : PendingTrace), s.traces[i]? = some t → t.settled = false →
      (s'.acknowledged i ↔ s.acknowledged i)) : Sound s' := by
  refine ⟨by rw [hresponses, htraces, h.responses], by rw [hroutes, htraces, h.routes], ?_, ?_, h.ahead_nodup.sublist hahead,
    ?_, ?_, ?_, ?_, ?_⟩
  · rw [htraces]
    exact h.awaiting
  · rw [htraces]
    intro i t ht hopen
    rw [hacknowledged i t ht hopen]
    exact h.accepted i t ht hopen
  · rw [htraces]
    intro i hi
    exact h.ahead_quiet i (hahead.subset hi)
  · rw [htraces, hmuxes, hmux]
    exact h.placed
  · rw [htraces, hmuxes]
    exact h.entry
  · rw [htraces]
    exact h.range
  · rw [hmuxes, hmux]
    exact h.current

theorem not_acknowledged (h : ∀ i estTimeoutMs, s.running ≠ some ⟨i, .acknowledged estTimeoutMs⟩) (i : Nat) :
    ¬ s.acknowledged i := fun ⟨estTimeoutMs, hrunning⟩ => h i estTimeoutMs hrunning

-- A function whose trace is settled, or that has not been acknowledged, returns.
theorem sound_returned (h : Sound s)
    (hquiet : ∀ i (t : PendingTrace), s.traces[i]? = some t → t.settled = false → ¬ s.acknowledged i) : Sound s.returned := by
  refine @sound_of_running s s.returned h rfl rfl rfl rfl rfl ?_ ?_
  · exact List.sublist_append_right _ _
  · intro i t ht hopen
    exact iff_of_false (not_acknowledged (by simp [returned]) i) (hquiet i t ht hopen)

theorem poll_good (h : Sound s) : Good s (s.poll : Multiplex × List (Mark ρ)) := by
  unfold poll
  split
  · rename_i i idleWaitStart hrunning
    have hquiet : ∀ j, ¬ s.acknowledged j := not_acknowledged (by simp [hrunning])
    have hreturned := sound_returned h fun j _ _ _ => hquiet j
    cases ht : s.traces[i]? with
    | none => exact good_refl h
    | some t =>
        dsimp only
        split_ifs
        · exact good_of_traces hreturned rfl fun _ => rfl
        · have hsettle := settle_good hreturned i (.error .waitingForPriorTrace : Except TraceError ρ)
          exact ⟨hsettle.sound, hsettle.balanced⟩
        · exact good_refl h
        · exact good_of_traces hreturned rfl fun _ => rfl
        · refine good_of_traces (@sound_of_running s _ h rfl rfl rfl rfl rfl ?_ ?_) rfl fun _ => rfl
          · rw [ahead, ahead, hrunning]
            exact List.Sublist.refl _
          · intro j _ _ _
            exact iff_of_false (not_acknowledged (by simp) j) (hquiet j)
  · exact good_refl h

theorem dequeue_good (h : Sound s) : Good s (s.dequeue : Multiplex × List (Mark ρ)) := by
  unfold dequeue
  split
  · rename_i i rest hrunning hqueue
    have hnext : Sound { s with queue := rest, running := some ⟨i, .idle s.now⟩ } := by
      refine @sound_of_running s _ h rfl rfl rfl rfl rfl ?_ ?_
      · rw [ahead, ahead, hrunning, hqueue]
        exact List.Sublist.refl _
      · intro j _ _ _
        exact iff_of_false (not_acknowledged (by simp) j) (not_acknowledged (by simp [hrunning]) j)
    have hpoll := poll_good (ρ := ρ) hnext
    exact ⟨hpoll.sound, hpoll.balanced⟩
  · exact good_refl h

theorem sentFails_good (h : Sound s) (message : String) : Sound (s.sentFails message) ∧ (s.sentFails message).traces = s.traces := by
  unfold sentFails
  split
  · rename_i i hrunning
    refine ⟨@sound_of_running s _ h rfl rfl rfl rfl rfl ?_ ?_, rfl⟩
    · rw [ahead, ahead, hrunning]
      exact List.Sublist.refl _
    · intro j _ _ _
      exact iff_of_false (not_acknowledged (by simp) j) (not_acknowledged (by simp [hrunning]) j)
  · exact ⟨h, rfl⟩

-- A change that leaves the tag of a trace, its map and whether it is settled.
theorem placed_of_modify (h : Sound s) {f : PendingTrace → PendingTrace}
    (hf : ∀ t, (f t).tag = t.tag ∧ (f t).mux = t.mux ∧ (f t).settled = t.settled)
    (htraces : s'.traces = s.traces.modify i f) (hmuxes : s'.muxes = s.muxes) (hmux : s'.mux = s.mux) :
    (∀ (j : Nat) (t : PendingTrace), s'.traces[j]? = some t → t.settled = false →
      s'.mux = some t.mux ∧ ∃ m, s'.muxes[t.mux]? = some m ∧ m.get? t.tag = some j) ∧
    (∀ (k : Nat) (m : OrderedMap Int Nat) (tag : Int) (j : Nat), s'.muxes[k]? = some m → m.get? tag = some j →
      ∃ t, s'.traces[j]? = some t ∧ t.tag = tag ∧ t.mux = k ∧ t.settled = false) ∧
    (∀ (j : Nat) (t : PendingTrace), s'.traces[j]? = some t → 0 ≤ t.tag ∧ t.tag < 2 ^ 32) := by
  rw [htraces, hmuxes, hmux]
  refine ⟨?_, ?_, ?_⟩
  · intro j t ht hopen
    rcases modify_cases ht with ⟨-, hold⟩ | ⟨x, rfl, hx, rfl⟩
    · exact h.placed j t hold hopen
    · rw [(hf x).1, (hf x).2.1]
      exact h.placed i x hx ((hf x).2.2.symm.trans hopen)
  · intro k m tag j hm hget
    obtain ⟨t, ht, htag, hk, hopen⟩ := h.entry k m tag j hm hget
    by_cases hij : i = j
    · subst hij
      exact ⟨f t, modify_self ht, (hf t).1.trans htag, (hf t).2.1.trans hk, (hf t).2.2.trans hopen⟩
    · exact ⟨t, by rw [modify_of_ne hij, ht], htag, hk, hopen⟩
  · intro j t ht
    rcases modify_cases ht with ⟨-, hold⟩ | ⟨x, rfl, hx, rfl⟩
    · exact h.range j t hold
    · rw [(hf x).1]
      exact h.range i x hx

theorem acknowledged_iff {estTimeoutMs : Nat} (h : s.running = some ⟨i, .acknowledged estTimeoutMs⟩) :
    s.acknowledged j ↔ i = j := by
  unfold acknowledged
  rw [h]
  constructor
  · rintro ⟨_, heq⟩
    exact congrArg Running.trace (Option.some.inj heq)
  · rintro rfl
    exact ⟨_, rfl⟩

-- The traces whose functions have yet to return keep quiet where a change leaves them so.
theorem quiet_of_modify (h : Sound s) {f : PendingTrace → PendingTrace} (hi : i ∉ s'.ahead ∨ ∀ t, (f t).awaitingResponse = t.awaitingResponse)
    (htraces : s'.traces = s.traces.modify i f) (hahead : s'.ahead.Sublist s.ahead) :
    ∀ j ∈ s'.ahead, ∃ t : PendingTrace, s'.traces[j]? = some t ∧ t.awaitingResponse = false := by
  intro j hj
  obtain ⟨t, ht, hquiet⟩ := h.ahead_quiet j (hahead.subset hj)
  rw [htraces]
  by_cases hij : i = j
  · subst hij
    rcases hi with hnot | hsame
    · exact absurd hj hnot
    · exact ⟨f t, modify_self ht, (hsame t).trans hquiet⟩
  · exact ⟨t, by rw [modify_of_ne hij, ht], hquiet⟩

theorem sentAck_good (h : Sound s) (estTimeoutMs : Nat) :
    Sound (s.sentAck estTimeoutMs) ∧ ∀ j, (s.sentAck estTimeoutMs).settledAt j = s.settledAt j := by
  unfold sentAck
  split
  · rename_i i hrunning
    obtain ⟨t, ht, hquiet⟩ := h.ahead_quiet i (by simp [ahead, hrunning])
    have hplaced := @placed_of_modify s
      { s.update i (fun t => { t with accepted := true }) with running := some ⟨i, .acknowledged estTimeoutMs⟩ } i h
      (fun t => { t with accepted := true }) (fun _ => ⟨rfl, rfl, rfl⟩) rfl rfl rfl
    have hahead : ahead { s.update i (fun t => { t with accepted := true }) with running := some ⟨i, .acknowledged estTimeoutMs⟩ } =
        s.ahead := by
      rw [ahead, ahead, hrunning]
      rfl
    refine ⟨⟨?_, ?_, ?_, ?_, ?_, ?_, hplaced.1, hplaced.2.1, hplaced.2.2, h.current⟩, ?_⟩
    · have hcount := countP_modify (f := fun t => { t with accepted := true }) (p := isAwaiting) ht
      have hsame : isAwaiting { t with accepted := true } = isAwaiting t := rfl
      rw [hsame] at hcount
      show s.traceResponsesInFlight = (s.traces.modify i fun t => { t with accepted := true }).countP isAwaiting
      rw [h.responses]
      omega
    · have hcount := countP_modify (f := fun t => { t with accepted := true }) (p := isOpen) ht
      have hsame : isOpen { t with accepted := true } = isOpen t := rfl
      rw [hsame] at hcount
      show s.tracePendingRouteCount = (s.traces.modify i fun t => { t with accepted := true }).countP isOpen
      rw [h.routes]
      omega
    · intro j t' ht' hawaiting
      rcases modify_cases ht' with ⟨-, hold⟩ | ⟨x, rfl, hx, rfl⟩
      · exact h.awaiting j t' hold hawaiting
      · exact h.awaiting i x hx hawaiting
    · intro j t' ht' hopen
      rw [acknowledged_iff rfl]
      rcases modify_cases ht' with ⟨hij, hold⟩ | ⟨x, rfl, hx, rfl⟩
      · rw [h.accepted j t' hold hopen]
        have hnot := not_acknowledged (s := s) (by simp [hrunning]) j
        simp [hnot, hij]
      · simp
    · rw [hahead]
      exact h.ahead_nodup
    · exact @quiet_of_modify s _ i h (fun t => { t with accepted := true }) (.inr fun _ => rfl) rfl (by rw [hahead])
    · intro j
      unfold settledAt
      show ((s.traces.modify i fun t => { t with accepted := true })[j]?).any PendingTrace.settled = _
      by_cases hij : i = j
      · subst hij
        rw [modify_self ht, ht]
        rfl
      · rw [modify_of_ne hij]
  · exact ⟨h, fun _ => rfl⟩

-- The acknowledged function of an open trace: it now waits for its data.
theorem resume_open_good (h : Sound s) {estTimeoutMs : Nat} (hrunning : s.running = some ⟨i, .acknowledged estTimeoutMs⟩)
    (ht : s.traces[i]? = some t) (hopen : t.settled = false) {f : PendingTrace → PendingTrace}
    (hf : ∀ t, (f t).tag = t.tag ∧ (f t).mux = t.mux ∧ (f t).settled = t.settled)
    (hawaits : ∀ t, (f t).awaitingResponse = true ∧ (f t).accepted = t.accepted) :
    Good s (({ s.returned.update i f with traceResponsesInFlight := s.traceResponsesInFlight + 1 }, []) :
      Multiplex × List (Mark ρ)) := by
  have hplaced := @placed_of_modify s
    { s.returned.update i f with traceResponsesInFlight := s.traceResponsesInFlight + 1 } i h f hf rfl rfl rfl
  have hquiet : t.awaitingResponse = false := by
    obtain ⟨t', ht', hquiet⟩ := h.ahead_quiet i (by simp [ahead, hrunning])
    obtain rfl := Option.some.inj (ht.symm.trans ht')
    exact hquiet
  have haccepted := (h.accepted i t ht hopen).mpr (.inr ⟨estTimeoutMs, hrunning⟩)
  have hnodup := h.ahead_nodup
  have hahead : s.ahead = i :: s.queue := by
    rw [ahead, hrunning]
    rfl
  rw [hahead, List.nodup_cons] at hnodup
  refine ⟨⟨?_, ?_, ?_, ?_, hnodup.2, ?_, hplaced.1, hplaced.2.1, hplaced.2.2, h.current⟩, ?_⟩
  · have hcount := countP_modify (f := f) (p := isAwaiting) ht
    show s.traceResponsesInFlight + 1 = (s.traces.modify i f).countP isAwaiting
    rw [h.responses]
    simp only [isAwaiting, hquiet, (hawaits t).1, Bool.toNat_false, Bool.toNat_true] at hcount ⊢
    omega
  · have hcount := countP_modify (f := f) (p := isOpen) ht
    show s.tracePendingRouteCount = (s.traces.modify i f).countP isOpen
    rw [h.routes]
    simp only [isOpen, (hf t).2.2] at hcount ⊢
    omega
  · intro j t' ht' hawaiting
    rcases modify_cases ht' with ⟨-, hold⟩ | ⟨x, rfl, hx, rfl⟩
    · exact h.awaiting j t' hold hawaiting
    · obtain rfl := Option.some.inj (ht.symm.trans hx)
      rw [(hf t).2.2, hopen]
  · intro j t' ht' hsettled
    have hnone : ¬ acknowledged { s.returned.update i f with traceResponsesInFlight := s.traceResponsesInFlight + 1 } j :=
      not_acknowledged (by simp [returned, update]) j
    rcases modify_cases ht' with ⟨hij, hold⟩ | ⟨x, rfl, hx, rfl⟩
    · rw [h.accepted j t' hold hsettled, acknowledged_iff hrunning]
      simp [hij, hnone]
    · obtain rfl := Option.some.inj (ht.symm.trans hx)
      simp [hawaits, haccepted]
  · refine @quiet_of_modify s _ i h f (.inl ?_) rfl ?_
    · exact hnodup.1
    · rw [hahead]
      exact List.sublist_cons_self i s.queue
  · intro j
    unfold settledAt
    show (((s.traces.modify i f)[j]?).any PendingTrace.settled).toNat = _
    by_cases hij : i = j
    · subst hij
      rw [modify_self ht, ht]
      simp [(hf t).2.2]
    · rw [modify_of_ne hij]
      simp

theorem resume_good (h : Sound s) : Good s (s.resume : Multiplex × List (Mark ρ)) := by
  unfold resume
  split
  · rename_i i estTimeoutMs hrunning
    cases ht : s.traces[i]? with
    | none => exact good_refl h
    | some t =>
        dsimp only
        cases hsettled : t.settled with
        | true =>
            rw [if_pos rfl]
            refine good_of_traces (sound_returned h ?_) rfl fun _ => rfl
            intro j t' ht' hopen
            rw [acknowledged_iff hrunning]
            rintro rfl
            rw [ht] at ht'
            obtain rfl := Option.some.inj ht'
            rw [hsettled] at hopen
            cases hopen
        | false =>
            rw [if_neg (by simp)]
            exact resume_open_good h hrunning ht hsettled (fun _ => ⟨rfl, rfl, rfl⟩) fun _ => ⟨rfl, rfl⟩
  · rename_i i message hrunning
    have hreturned := sound_returned h fun j _ _ _ => not_acknowledged (by simp [hrunning]) j
    have hsettle := settle_good hreturned i (.error (.send message) : Except TraceError ρ)
    exact ⟨hsettle.sound, hsettle.balanced⟩
  · exact good_refl h

-- The open traces that a pass over some of them leaves open.
theorem open_of_settleAll (outcome : Except TraceError ρ) (ids : List Nat)
    (ht : (s.settleAll outcome ids).1.traces[j]? = some t) (hopen : t.settled = false) :
    s.traces[j]? = some t ∧ j ∉ ids := by
  induction ids generalizing s with
  | nil => exact ⟨ht, by simp⟩
  | cons i rest ih =>
      obtain ⟨hold, hrest⟩ := ih (s := (s.settle i outcome).1) ht
      by_cases hany : ∃ x, s.traces[i]? = some x ∧ x.settled = false
      · obtain ⟨x, hx, hxopen⟩ := hany
        rw [settle_of_open hx hxopen] at hold
        rcases modify_cases hold with ⟨hij, hold⟩ | ⟨y, -, -, rfl⟩
        · exact ⟨hold, by rw [List.mem_cons, not_or]; exact ⟨Ne.symm hij, hrest⟩⟩
        · cases hopen
      · push Not at hany
        rw [settle_of_settled (fun x hx => by simpa using hany x hx)] at hold
        refine ⟨hold, ?_⟩
        rw [List.mem_cons, not_or]
        refine ⟨?_, hrest⟩
        rintro rfl
        exact hany t hold hopen

theorem mem_pendingTraces {m : Nat} {pendingByTag : OrderedMap Int Nat} {tag : Int} (hm : s.muxes[m]? = some pendingByTag)
    (hget : pendingByTag.get? tag = some i) : i ∈ s.pendingTraces m := by
  rw [pendingTraces, hm]
  exact (pendingByTag.mem_values_iff i).mpr ⟨tag, hget⟩

-- Where every trace is settled, nothing is in flight.
theorem counts_of_settled (h : Sound s) (hall : ∀ (i : Nat) (t : PendingTrace), s.traces[i]? = some t → t.settled = true) :
    s.traceResponsesInFlight = 0 ∧ s.tracePendingRouteCount = 0 := by
  rw [h.responses, h.routes, List.countP_eq_zero, List.countP_eq_zero]
  constructor
  · intro t hmem hawaiting
    obtain ⟨i, ht⟩ := List.mem_iff_getElem?.mp hmem
    have hopen := h.awaiting i t ht hawaiting
    rw [hall i t ht] at hopen
    cases hopen
  · intro t hmem hopen
    obtain ⟨i, ht⟩ := List.mem_iff_getElem?.mp hmem
    rw [isOpen, hall i t ht] at hopen
    cases hopen

theorem reset_good (h : Sound s) : Good s (s.resetOnDisconnect : Multiplex × List (Mark ρ)) := by
  unfold resetOnDisconnect
  cases hmux : s.mux with
  | none =>
      have hall : ∀ (i : Nat) (t : PendingTrace), s.traces[i]? = some t → t.settled = true := by
        intro i t ht
        by_contra hopen
        obtain ⟨hcurrent, -⟩ := h.placed i t ht (by simpa using hopen)
        rw [hmux] at hcurrent
        cases hcurrent
      obtain ⟨hresponses, hroutes⟩ := counts_of_settled h hall
      refine good_of_traces (@sound_of_running s _ h rfl ?_ ?_ rfl hmux.symm (List.Sublist.refl _) fun _ _ _ _ => Iff.rfl)
        rfl fun _ => rfl
      · exact hresponses.symm
      · exact hroutes.symm
  | some m =>
      have hsettle := settleAll_good h (.error .disconnect : Except TraceError ρ) (s.pendingTraces m)
      have hall : ∀ (i : Nat) (t : PendingTrace),
          (s.settleAll (.error .disconnect : Except TraceError ρ) (s.pendingTraces m)).1.traces[i]? = some t → t.settled = true := by
        intro i t ht
        by_contra hopen
        have hfalse : t.settled = false := by simpa using hopen
        obtain ⟨hold, hnot⟩ := open_of_settleAll _ _ ht hfalse
        obtain ⟨hcurrent, p, hp, hget⟩ := h.placed i t hold hfalse
        obtain rfl : m = t.mux := by simpa [hmux] using hcurrent
        exact hnot (mem_pendingTraces hp hget)
      dsimp only
      generalize s.settleAll (.error .disconnect : Except TraceError ρ) (s.pendingTraces m) = r at hsettle hall
      obtain ⟨hresponses, hroutes⟩ := counts_of_settled hsettle.sound hall
      have hsound := hsettle.sound
      refine ⟨⟨?_, ?_, hsound.awaiting, hsound.accepted, hsound.ahead_nodup, hsound.ahead_quiet, ?_, ?_, hsound.range, ?_⟩,
        hsettle.balanced⟩
      · rw [← hresponses]
        exact hsound.responses
      · rw [← hroutes]
        exact hsound.routes
      · intro i t ht hopen
        rw [hall i t ht] at hopen
        cases hopen
      · intro k p tag i hp hget
        rcases modify_cases hp with ⟨-, hold⟩ | ⟨q, -, -, rfl⟩
        · obtain ⟨t, ht, -, -, hopen⟩ := hsound.entry k p tag i hold hget
          rw [hall i t ht] at hopen
          cases hopen
        · simp at hget
      · intro m' hm'
        cases hm'

-- A map for the connection is there, or is made with its listener.
theorem getMuxState_good (h : Sound s) :
    Sound s.getMuxState.1 ∧ s.getMuxState.1.mux = some s.getMuxState.2 ∧ s.getMuxState.1.traces = s.traces := by
  unfold getMuxState
  cases hmux : s.mux with
  | some m => exact ⟨h, hmux, rfl⟩
  | none =>
      refine ⟨⟨h.responses, h.routes, h.awaiting, h.accepted, h.ahead_nodup, h.ahead_quiet, ?_, ?_, h.range, ?_⟩, rfl, rfl⟩
      · intro i t ht hopen
        obtain ⟨hcurrent, -⟩ := h.placed i t ht hopen
        rw [hmux] at hcurrent
        cases hcurrent
      · intro k m tag i hm hget
        rcases concat_cases hm with hold | ⟨-, rfl⟩
        · exact h.entry k m tag i hold hget
        · simp at hget
      · intro m hm
        obtain rfl := Option.some.inj hm
        simp

theorem start_good (h : Sound s) (tag : BitVec 32) (extraTimeoutMillis : Nat) :
    Sound (s.start tag.toNat extraTimeoutMillis) ∧ ∀ j, (s.start tag.toNat extraTimeoutMillis).settledAt j = s.settledAt j := by
  obtain ⟨hsound, hcurrent, htraces⟩ := getMuxState_good h
  have hsettledAt : ∀ j, s.settledAt j = s.getMuxState.1.settledAt j := fun j => by rw [settledAt, settledAt, htraces]
  unfold start
  generalize s.getMuxState = r at hsound hcurrent hsettledAt
  obtain ⟨s', m⟩ := r
  dsimp only at hsound hcurrent hsettledAt ⊢
  obtain ⟨p, hp⟩ : ∃ p, s'.muxes[m]? = some p := ⟨_, List.getElem?_eq_getElem (hsound.current m hcurrent)⟩
  split_ifs with hused
  · exact ⟨hsound, fun j => (hsettledAt j).symm⟩
  have hfree : p.get? (tag.toNat : Int) = none := by simpa [hp] using hused
  have hlast : s'.traces[s'.traces.length]? = none := List.getElem?_eq_none (le_refl _)
  have hold : ∀ {j : Nat} {t : PendingTrace}, s'.traces[j]? = some t → j ≠ s'.traces.length := by
    rintro j t ht rfl
    rw [hlast] at ht
    cases ht
  have hnone : ∀ i, i ∈ s'.ahead → i ≠ s'.traces.length := by
    intro i hi
    obtain ⟨t, ht, -⟩ := hsound.ahead_quiet i hi
    exact hold ht
  refine ⟨⟨?_, ?_, ?_, ?_, ?_, ?_, ?_, ?_, ?_, ?_⟩, ?_⟩
  · show s'.traceResponsesInFlight = (s'.traces ++ [_]).countP isAwaiting
    rw [countP_concat, hsound.responses]
    rfl
  · show s'.tracePendingRouteCount + 1 = (s'.traces ++ [_]).countP isOpen
    rw [countP_concat, hsound.routes]
    rfl
  · intro j t ht hawaiting
    rcases concat_cases ht with ht | ⟨-, rfl⟩
    · exact hsound.awaiting j t ht hawaiting
    · cases hawaiting
  · intro j t ht hopen
    rcases concat_cases ht with ht | ⟨rfl, rfl⟩
    · exact hsound.accepted j t ht hopen
    · refine iff_of_false (by simp) ?_
      rintro (hawaiting | ⟨estTimeoutMs, hrunning⟩)
      · cases hawaiting
      · exact hnone s'.traces.length (by simp [ahead, show s'.running = _ from hrunning]) rfl
  · show ((s'.running.map Running.trace).toList ++ (s'.queue ++ [s'.traces.length])).Nodup
    rw [← List.append_assoc, List.nodup_append']
    refine ⟨hsound.ahead_nodup, List.nodup_singleton _, ?_⟩
    intro i hi hlen
    exact hnone i hi (List.mem_singleton.mp hlen)
  · intro i hi
    have hmem : i ∈ s'.ahead ∨ i = s'.traces.length := by
      simpa [ahead, or_assoc] using hi
    rcases hmem with hmem | rfl
    · obtain ⟨t, ht, hquiet⟩ := hsound.ahead_quiet i hmem
      exact ⟨t, concat_of_some ht, hquiet⟩
    · exact ⟨_, List.getElem?_concat_length, rfl⟩
  · intro j t ht hopen
    rcases concat_cases ht with ht | ⟨rfl, rfl⟩
    · obtain ⟨hmux, q, hq, hget⟩ := hsound.placed j t ht hopen
      obtain rfl : t.mux = m := by simpa [hcurrent] using hmux.symm
      obtain rfl := Option.some.inj (hp.symm.trans hq)
      refine ⟨hmux, _, modify_self hp, ?_⟩
      rw [OrderedMap.get?_set_of_ne, hget]
      rintro heq
      rw [← heq, hget] at hfree
      cases hfree
    · exact ⟨hcurrent, _, modify_self hp, OrderedMap.get?_set_self _ _ _⟩
  · intro k q t' j hq hget
    have hkept : ∀ {k' : Nat} {q' : OrderedMap Int Nat}, s'.muxes[k']? = some q' → q'.get? t' = some j →
        ∃ t, (s'.traces ++ [({ tag := tag.toNat, mux := m, extraTimeoutMillis } : PendingTrace)])[j]? = some t ∧ t.tag = t' ∧
          t.mux = k' ∧ t.settled = false := by
      intro k' q' hq' hget'
      obtain ⟨t, ht, hrest⟩ := hsound.entry k' q' t' j hq' hget'
      exact ⟨t, concat_of_some ht, hrest⟩
    rcases modify_cases hq with ⟨-, hsame⟩ | ⟨q', rfl, hq', rfl⟩
    · exact hkept hsame hget
    · rw [OrderedMap.get?_set] at hget
      split_ifs at hget with htag
      · obtain rfl := Option.some.inj hget
        exact ⟨_, List.getElem?_concat_length, htag.symm, rfl, rfl⟩
      · exact hkept hq' hget
  · intro j t ht
    rcases concat_cases ht with ht | ⟨-, rfl⟩
    · exact hsound.range j t ht
    · have hlt := tag.isLt
      dsimp only
      omega
  · intro k hk
    show k < (s'.muxes.modify m _).length
    rw [List.length_modify]
    exact hsound.current k hk
  · intro j
    rw [hsettledAt]
    unfold settledAt
    show ((s'.traces ++ [_])[j]?).any PendingTrace.settled = _
    rcases Nat.lt_trichotomy j s'.traces.length with hj | rfl | hj
    · rw [List.getElem?_append_left hj]
    · rw [List.getElem?_concat_length, hlast]
      rfl
    · rw [List.getElem?_eq_none (by rw [List.length_append, List.length_singleton]; omega), List.getElem?_eq_none (by omega)]

theorem cancelAllPending_good (h : Sound s) (reason : String) : Good s (s.cancelAllPending reason : Multiplex × List (Mark ρ)) := by
  unfold cancelAllPending
  split
  · exact good_refl h
  · exact settleAll_good h _ _

theorem good_of_settledAt {s' : Multiplex} (h : Sound s') (hsame : ∀ j, s'.settledAt j = s.settledAt j) :
    Good s ((s', []) : Multiplex × List (Mark ρ)) :=
  ⟨h, fun j => by rw [hsame]; rfl⟩

theorem handle_good (h : Sound s) (e : Event π) : Good s (s.handle env e) := by
  cases e with
  | start tag extraTimeoutMillis =>
      obtain ⟨hsound, hsame⟩ := start_good h tag extraTimeoutMillis
      exact good_of_settledAt hsound hsame
  | cancel i reason => exact settle_good h i _
  | cancelAll reason => exact cancelAllPending_good h reason
  | resetOnDisconnect => exact reset_good h
  | traceData tag payload =>
      cases tag with
      | none => exact good_refl h
      | some tag => exact onTraceDataAll_good env h tag payload _
  | dequeue => exact dequeue_good h
  | poll => exact poll_good h
  | sentAck estTimeoutMs =>
      obtain ⟨hsound, hsame⟩ := sentAck_good h estTimeoutMs
      exact good_of_settledAt hsound hsame
  | sentFails message =>
      obtain ⟨hsound, htraces⟩ := sentFails_good h message
      exact good_of_traces hsound htraces fun _ => rfl
  | resume => exact resume_good h
  | traceTimeout i =>
      simp only [handle, traceTimeout]
      split_ifs
      · exact settle_good h i _
      · exact good_refl h
  | wait ms =>
      exact good_of_traces (@sound_of_running s { s with now := s.now + ms } h rfl rfl rfl rfl rfl (List.Sublist.refl _) fun _ _ _ _ => Iff.rfl)
        rfl fun _ => rfl

end Multiplex

end MeshClient.Meshcore.TraceMux
