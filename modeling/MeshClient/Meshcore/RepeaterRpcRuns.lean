import MeshClient.Meshcore.RepeaterRpc

namespace MeshClient.Meshcore

open Run Turns

-- The radio's one trace queue, or the admin queue of a node.
def Rpc.queue (r : Rpc) : Option Int := if r.kind = .trace then none else some r.nodeId

-- The calls to one queue between two resets take turns.
def rpcLine : Line Rpc (Option Int × Nat) where
  lane r := (r.queue, r.madeIn)
  before := Rpc.before
  started r := r.phase ≠ .queued
  settled r := r.phase = .settled ∨ r.phase = .done
  started_of_settled r hr hq := by
    rcases hr with h | h
    · exact absurd (h.symm.trans hq) (by decide)
    · exact absurd (h.symm.trans hq) (by decide)

def RepeaterRpcs.tailOf (s : RepeaterRpcs) : Option Int → Option Nat
  | none => s.traceQueueTail
  | some nodeId => s.adminQueueTailByNode.get? nodeId

structure Lined (s : RepeaterRpcs) : Prop where
  linked : rpcLine.Linked s.rpcs
  inTurn : rpcLine.InTurn s.rpcs
  tails : ∀ q, rpcLine.Tail s.rpcs (q, s.resets) (s.tailOf q)
  made : ∀ r ∈ s.rpcs, r.madeIn ≤ s.resets

-- Each entry of the two maps is a promise that has not settled for its caller.
structure Tracked (s : RepeaterRpcs) : Prop where
  admin : ∀ key id, s.inFlightByKey.get? key = some id →
    ∃ r, s.rpcs[id]? = some r ∧ r.kind ≠ .trace ∧ r.key = key ∧ r.phase ≠ .done
  trace : ∀ key id, s.traceInFlightByKey.get? key = some id →
    ∃ r, s.rpcs[id]? = some r ∧ r.kind = .trace ∧ r.key = key ∧ r.phase ≠ .done

def CliHold.live (h : CliHold) (resets : Nat) : Bool := decide (h.madeIn = resets) && !h.ended

def RepeaterRpcs.heldNow (s : RepeaterRpcs) : Nat := s.holds.countP fun h => h.live s.resets

structure Held (s : RepeaterRpcs) : Prop where
  count : s.cliReplyHoldCount ≤ s.heldNow
  made : ∀ h ∈ s.holds, h.madeIn ≤ s.resets

variable {s : RepeaterRpcs} {id : Nat} {r r' : Rpc}

theorem rpcLine_lane (r : Rpc) : rpcLine.lane r = (r.queue, r.madeIn) := rfl

theorem running_iff : rpcLine.Running r ↔ r.phase = .running := by
  show r.phase ≠ .queued ∧ ¬ (r.phase = .settled ∨ r.phase = .done) ↔ _
  cases r.phase <;> simp

theorem free_iff : s.tailResolved r = true ↔ rpcLine.Free s.rpcs r := by
  unfold RepeaterRpcs.tailResolved Line.Free
  simp only [Option.all_eq_true, Option.any_eq_true, Bool.or_eq_true, decide_eq_true_eq]
  exact Iff.rfl

theorem Lined.put (h : Lined s) (hr : s.rpcs[id]? = some r) (hkind : r'.kind = r.kind)
    (hnode : r'.nodeId = r.nodeId) (hbefore : r'.before = r.before) (hmade : r'.madeIn = r.madeIn)
    (hsettled : rpcLine.settled r → rpcLine.settled r')
    (hstarted : rpcLine.started r' → rpcLine.started r ∨ rpcLine.Free s.rpcs r) : Lined (s.put id r') where
  linked := h.linked.set hr (by simp [rpcLine, Rpc.queue, hkind, hnode, hmade]) hbefore
  inTurn := h.inTurn.set h.linked hr (by simp [rpcLine, Rpc.queue, hkind, hnode, hmade]) hsettled hstarted
  tails q := (h.tails q).set hr (by simp [rpcLine, Rpc.queue, hkind, hnode, hmade])
  made y hy := by
    rcases List.mem_or_eq_of_mem_set hy with hy | rfl
    · exact h.made y hy
    · exact hmade ▸ h.made r (List.mem_of_getElem? hr)

theorem Lined.start (h : Lined s) : Lined (s.start id) := by
  unfold RepeaterRpcs.start
  cases hr : s.rpcs[id]? with
  | none => exact h
  | some r =>
      by_cases hready : r.phase = .queued ∧ s.tailResolved r = true
      · have hno : ¬ rpcLine.settled r := fun hs => rpcLine.started_of_settled r hs hready.1
        simp only [if_pos hready]
        split_ifs
        · exact h.put hr rfl rfl rfl rfl (fun hs => absurd hs hno) fun _ => .inr (free_iff.mp hready.2)
        · exact h.put hr rfl rfl rfl rfl (fun hs => absurd hs hno) fun _ => .inr (free_iff.mp hready.2)
      · simp only [if_neg hready]
        exact h

theorem Lined.settle (h : Lined s) : Lined (s.settle id) := by
  unfold RepeaterRpcs.settle
  cases hr : s.rpcs[id]? with
  | none => exact h
  | some r =>
      by_cases hrunning : r.phase = .running
      · simp only [if_pos hrunning]
        exact h.put hr rfl rfl rfl rfl (fun _ => .inl rfl) fun _ => .inl fun hq => by simp [hq] at hrunning
      · simp only [if_neg hrunning]
        exact h

-- The maps and counts play no part in whose turn it is.
theorem Lined.congr {t : RepeaterRpcs} (h : Lined s) (hrpcs : t.rpcs = s.rpcs) (hresets : t.resets = s.resets)
    (htail : t.traceQueueTail = s.traceQueueTail) (htails : t.adminQueueTailByNode = s.adminQueueTailByNode) :
    Lined t where
  linked := hrpcs ▸ h.linked
  inTurn := hrpcs ▸ h.inTurn
  tails q := by
    have hq : t.tailOf q = s.tailOf q := by cases q <;> simp [RepeaterRpcs.tailOf, htail, htails]
    rw [hq, hrpcs, hresets]
    exact h.tails q
  made := by
    rw [hrpcs, hresets]
    exact h.made

theorem forgetTrace_rpcs (key : String) : (s.forgetTrace id key).rpcs = s.rpcs := by
  unfold RepeaterRpcs.forgetTrace
  split_ifs <;> rfl

theorem forgetAdmin_rpcs (key : String) : (s.forgetAdmin id key).rpcs = s.rpcs := by
  unfold RepeaterRpcs.forgetAdmin
  split_ifs <;> rfl

theorem Lined.forgetTrace (h : Lined s) (key : String) : Lined (s.forgetTrace id key) := by
  unfold RepeaterRpcs.forgetTrace
  split_ifs
  · exact h.congr rfl rfl rfl rfl
  · exact h

theorem Lined.forgetAdmin (h : Lined s) (key : String) : Lined (s.forgetAdmin id key) := by
  unfold RepeaterRpcs.forgetAdmin
  split_ifs
  · exact h.congr rfl rfl rfl rfl
  · exact h

theorem Lined.cleanUp (h : Lined s) : Lined (s.cleanUp id) := by
  unfold RepeaterRpcs.cleanUp
  cases hr : s.rpcs[id]? with
  | none => exact h
  | some r =>
      by_cases hsettled : r.phase = .settled
      · have hput : Lined (s.put id { r with phase := .done }) :=
          h.put hr rfl rfl rfl rfl (fun _ => .inr rfl) fun _ => .inl fun hq => by simp [hq] at hsettled
        simp only [if_pos hsettled]
        split_ifs
        · exact (hput.forgetTrace r.key).congr rfl rfl rfl rfl
        · exact hput.forgetAdmin r.key
      · simp only [if_neg hsettled]
        exact h

theorem Lined.trace (h : Lined s) (nodeId : Int) (coalesceKey : Option String) :
    Lined (s.runMeshcoreTraceRpcOnce nodeId coalesceKey) := by
  unfold RepeaterRpcs.runMeshcoreTraceRpcOnce
  simp only
  split_ifs
  · exact h
  · constructor
    · exact h.linked.concat (h.tails none)
    · exact h.inTurn.concat fun hstarted => hstarted rfl
    · intro q
      cases q with
      | none => exact tail_concat_self
      | some n => exact (h.tails (some n)).concat_ne (by simp [rpcLine, Rpc.queue])
    · intro y hy
      rcases List.mem_append.mp hy with hy | hy
      · exact h.made y hy
      · obtain rfl := List.mem_singleton.mp hy
        exact le_refl _

theorem Lined.admin (h : Lined s) {kind : MeshcoreRepeaterRpcKind} (hkind : kind ≠ .trace) (nodeId : Int)
    (coalesceKey : Option String) : Lined (s.runMeshcoreAdminRpcOnce kind nodeId coalesceKey) := by
  unfold RepeaterRpcs.runMeshcoreAdminRpcOnce
  simp only
  split_ifs
  · exact h
  · have hqueue : ∀ before phase madeIn startedIn, (Rpc.mk kind nodeId (rpcKey kind nodeId coalesceKey) before
        phase madeIn startedIn).queue = some nodeId := fun _ _ _ _ => by simp [Rpc.queue, hkind]
    constructor
    · refine h.linked.concat ?_
      rw [rpcLine_lane, hqueue]
      exact h.tails (some nodeId)
    · exact h.inTurn.concat fun hstarted => hstarted rfl
    · intro q
      by_cases hq : q = some nodeId
      · subst hq
        have hself := @tail_concat_self _ _ rpcLine s.rpcs (Rpc.mk kind nodeId (rpcKey kind nodeId coalesceKey)
          (s.adminQueueTailByNode.get? nodeId) .queued s.resets 0)
        rw [rpcLine_lane, hqueue] at hself
        simpa only [RepeaterRpcs.tailOf, OrderedMap.get?_set_self] using hself
      · have hsame : RepeaterRpcs.tailOf { s with
            adminQueueTailByNode := s.adminQueueTailByNode.set nodeId s.rpcs.length } q = s.tailOf q := by
          cases q with
          | none => rfl
          | some n => exact OrderedMap.get?_set_of_ne _ _ fun hn => hq (congrArg some hn)
        have hold := (h.tails q).concat_ne (x := Rpc.mk kind nodeId (rpcKey kind nodeId coalesceKey)
          (s.adminQueueTailByNode.get? nodeId) .queued s.resets 0) (by
            rw [rpcLine_lane, hqueue, ne_eq, Prod.mk.injEq, not_and]
            exact fun hn => absurd hn.symm hq)
        rw [← hsame] at hold
        cases q <;> exact hold
    · intro y hy
      rcases List.mem_append.mp hy with hy | hy
      · exact h.made y hy
      · obtain rfl := List.mem_singleton.mp hy
        exact le_refl _

theorem Lined.reset (h : Lined s) : Lined s.resetMeshcoreRepeaterRpcInFlightOnDisconnect where
  linked := h.linked
  inTurn := h.inTurn
  tails q := by
    have hq : s.resetMeshcoreRepeaterRpcInFlightOnDisconnect.tailOf q = none := by cases q <;> rfl
    rw [hq]
    refine tail_none fun y hy hc => ?_
    have hmade := h.made y hy
    have hnow : y.madeIn = s.resets + 1 := congrArg Prod.snd hc
    omega
  made y hy := (h.made y hy).trans (Nat.le_succ _)

theorem endHold_eq (hold : Nat) : s.endMeshcoreCliReplyHold hold = s ∨
    ∃ h, s.holds[hold]? = some h ∧ h.ended = false ∧ s.endMeshcoreCliReplyHold hold =
      { s with
        cliReplyHoldCount := s.cliReplyHoldCount - 1
        holds := s.holds.set hold { h with ended := true } } := by
  unfold RepeaterRpcs.endMeshcoreCliReplyHold
  cases s.holds[hold]? with
  | none => exact .inl rfl
  | some x =>
      by_cases hended : x.ended = true
      · exact .inl (if_pos hended)
      · exact .inr ⟨x, rfl, by simpa using hended, if_neg hended⟩

theorem Lined.endHold (h : Lined s) (hold : Nat) : Lined (s.endMeshcoreCliReplyHold hold) := by
  obtain heq | ⟨_, _, _, heq⟩ := @endHold_eq s hold
  · rw [heq]
    exact h
  · rw [heq]
    exact h.congr rfl rfl rfl rfl

theorem Lined.step (h : Lined s) (e : RepeaterRpcEvent) : Lined (s.step e) := by
  cases e with
  | call kind nodeId coalesceKey =>
      unfold RepeaterRpcs.step RepeaterRpcs.runMeshcoreRepeaterRpcOnce
      by_cases hkind : kind = .trace
      · simp only [if_pos hkind]
        exact h.trace nodeId coalesceKey
      · simp only [if_neg hkind]
        exact h.admin hkind nodeId coalesceKey
  | start id => exact h.start
  | settle id => exact h.settle
  | cleanUp id => exact h.cleanUp
  | beginHold => exact h.congr rfl rfl rfl rfl
  | endHold hold => exact h.endHold hold
  | reset => exact h.reset

theorem get?_put (hr : s.rpcs[id]? = some r) {k : Nat} :
    (s.put id r').rpcs[k]? = if k = id then some r' else s.rpcs[k]? :=
  getElem?_set_of_some hr

theorem Tracked.put (h : Tracked s) (hr : s.rpcs[id]? = some r) (hkind : r'.kind = r.kind)
    (hkey : r'.key = r.key) (hphase : r'.phase ≠ .done) : Tracked (s.put id r') := by
  constructor
  · intro key k hk
    obtain ⟨y, hy, hy'⟩ := h.admin key k hk
    rw [get?_put hr]
    by_cases hki : k = id
    · subst hki
      obtain rfl := Option.some.inj (hr.symm.trans hy)
      exact ⟨r', if_pos rfl, hkind ▸ hy'.1, hkey.trans hy'.2.1, hphase⟩
    · exact ⟨y, (if_neg hki).trans hy, hy'⟩
  · intro key k hk
    obtain ⟨y, hy, hy'⟩ := h.trace key k hk
    rw [get?_put hr]
    by_cases hki : k = id
    · subst hki
      obtain rfl := Option.some.inj (hr.symm.trans hy)
      exact ⟨r', if_pos rfl, hkind.trans hy'.1, hkey.trans hy'.2.1, hphase⟩
    · exact ⟨y, (if_neg hki).trans hy, hy'⟩

theorem Tracked.start (h : Tracked s) : Tracked (s.start id) := by
  unfold RepeaterRpcs.start
  cases hr : s.rpcs[id]? with
  | none => exact h
  | some r =>
      by_cases hready : r.phase = .queued ∧ s.tailResolved r = true
      · simp only [if_pos hready]
        split_ifs
        · exact h.put hr rfl rfl (by simp)
        · exact h.put hr rfl rfl (by simp)
      · simp only [if_neg hready]
        exact h

theorem Tracked.settle (h : Tracked s) : Tracked (s.settle id) := by
  unfold RepeaterRpcs.settle
  cases hr : s.rpcs[id]? with
  | none => exact h
  | some r =>
      by_cases hrunning : r.phase = .running
      · simp only [if_pos hrunning]
        exact h.put hr rfl rfl (by simp)
      · simp only [if_neg hrunning]
        exact h

theorem get?_forgetTrace {key k : String} {j : Nat}
    (h : (s.forgetTrace id key).traceInFlightByKey.get? k = some j) :
    s.traceInFlightByKey.get? k = some j ∧ (k = key → j ≠ id) := by
  unfold RepeaterRpcs.forgetTrace at h
  split_ifs at h with hown
  · simp only [OrderedMap.get?_erase] at h
    split_ifs at h with hk
    exact ⟨h, fun heq => absurd heq hk⟩
  · refine ⟨h, ?_⟩
    rintro rfl rfl
    exact hown h

theorem get?_forgetAdmin {key k : String} {j : Nat}
    (h : (s.forgetAdmin id key).inFlightByKey.get? k = some j) :
    s.inFlightByKey.get? k = some j ∧ (k = key → j ≠ id) := by
  unfold RepeaterRpcs.forgetAdmin at h
  split_ifs at h with hown
  · simp only [OrderedMap.get?_erase] at h
    split_ifs at h with hk
    exact ⟨h, fun heq => absurd heq hk⟩
  · refine ⟨h, ?_⟩
    rintro rfl rfl
    exact hown h

theorem forgetTrace_inFlight (key : String) : (s.forgetTrace id key).inFlightByKey = s.inFlightByKey := by
  unfold RepeaterRpcs.forgetTrace
  split_ifs <;> rfl

theorem forgetAdmin_traceInFlight (key : String) :
    (s.forgetAdmin id key).traceInFlightByKey = s.traceInFlightByKey := by
  unfold RepeaterRpcs.forgetAdmin
  split_ifs <;> rfl

-- A map holds no other entry for the promise that is forgotten.
theorem Tracked.cleanUp (h : Tracked s) : Tracked (s.cleanUp id) := by
  unfold RepeaterRpcs.cleanUp
  cases hr : s.rpcs[id]? with
  | none => exact h
  | some r =>
      by_cases hsettled : r.phase = .settled
      · simp only [if_pos hsettled]
        split_ifs with hkind
        · constructor
          · intro key k hk
            simp only [RepeaterRpcs.countTraceDown, forgetTrace_inFlight] at hk
            obtain ⟨y, hy, hykind, hy'⟩ := h.admin key k hk
            refine ⟨y, ?_, hykind, hy'⟩
            simp only [RepeaterRpcs.countTraceDown, forgetTrace_rpcs]
            rw [get?_put hr, if_neg, hy]
            rintro rfl
            exact hykind (Option.some.inj (hr.symm.trans hy) ▸ hkind)
          · intro key k hk
            obtain ⟨hk, hother⟩ := get?_forgetTrace hk
            obtain ⟨y, hy, hykind, hykey, hyphase⟩ := h.trace key k hk
            refine ⟨y, ?_, hykind, hykey, hyphase⟩
            simp only [RepeaterRpcs.countTraceDown, forgetTrace_rpcs]
            rw [get?_put hr, if_neg, hy]
            rintro rfl
            exact hother (hykey.symm.trans (Option.some.inj (hr.symm.trans hy) ▸ rfl)) rfl
        · constructor
          · intro key k hk
            obtain ⟨hk, hother⟩ := get?_forgetAdmin hk
            obtain ⟨y, hy, hykind, hykey, hyphase⟩ := h.admin key k hk
            refine ⟨y, ?_, hykind, hykey, hyphase⟩
            rw [forgetAdmin_rpcs, get?_put hr, if_neg, hy]
            rintro rfl
            exact hother (hykey.symm.trans (Option.some.inj (hr.symm.trans hy) ▸ rfl)) rfl
          · intro key k hk
            rw [forgetAdmin_traceInFlight] at hk
            obtain ⟨y, hy, hykind, hy'⟩ := h.trace key k hk
            refine ⟨y, ?_, hykind, hy'⟩
            rw [forgetAdmin_rpcs, get?_put hr, if_neg, hy]
            rintro rfl
            exact hkind (Option.some.inj (hr.symm.trans hy) ▸ hykind)
      · simp only [if_neg hsettled]
        exact h

theorem Tracked.trace_call (h : Tracked s) (nodeId : Int) (coalesceKey : Option String) :
    Tracked (s.runMeshcoreTraceRpcOnce nodeId coalesceKey) := by
  unfold RepeaterRpcs.runMeshcoreTraceRpcOnce
  simp only
  split_ifs
  · exact h
  · constructor
    · intro key k hk
      obtain ⟨y, hy, hy'⟩ := h.admin key k hk
      exact ⟨y, getElem?_concat_of_some hy, hy'⟩
    · intro key k hk
      simp only [OrderedMap.get?_set] at hk
      split_ifs at hk with hkey
      · obtain rfl := Option.some.inj hk
        exact ⟨_, List.getElem?_concat_length, rfl, hkey.symm, by simp⟩
      · obtain ⟨y, hy, hy'⟩ := h.trace key k hk
        exact ⟨y, getElem?_concat_of_some hy, hy'⟩

theorem Tracked.admin_call (h : Tracked s) {kind : MeshcoreRepeaterRpcKind} (hkind : kind ≠ .trace)
    (nodeId : Int) (coalesceKey : Option String) : Tracked (s.runMeshcoreAdminRpcOnce kind nodeId coalesceKey) := by
  unfold RepeaterRpcs.runMeshcoreAdminRpcOnce
  simp only
  split_ifs
  · exact h
  · constructor
    · intro key k hk
      simp only [OrderedMap.get?_set] at hk
      split_ifs at hk with hkey
      · obtain rfl := Option.some.inj hk
        exact ⟨_, List.getElem?_concat_length, hkind, hkey.symm, by simp⟩
      · obtain ⟨y, hy, hy'⟩ := h.admin key k hk
        exact ⟨y, getElem?_concat_of_some hy, hy'⟩
    · intro key k hk
      obtain ⟨y, hy, hy'⟩ := h.trace key k hk
      exact ⟨y, getElem?_concat_of_some hy, hy'⟩

theorem Tracked.congr {t : RepeaterRpcs} (h : Tracked s) (hrpcs : t.rpcs = s.rpcs)
    (hadmin : t.inFlightByKey = s.inFlightByKey) (htrace : t.traceInFlightByKey = s.traceInFlightByKey) :
    Tracked t where
  admin := by
    rw [hrpcs, hadmin]
    exact h.admin
  trace := by
    rw [hrpcs, htrace]
    exact h.trace

theorem Tracked.step (h : Tracked s) (e : RepeaterRpcEvent) : Tracked (s.step e) := by
  cases e with
  | call kind nodeId coalesceKey =>
      unfold RepeaterRpcs.step RepeaterRpcs.runMeshcoreRepeaterRpcOnce
      by_cases hkind : kind = .trace
      · simp only [if_pos hkind]
        exact h.trace_call nodeId coalesceKey
      · simp only [if_neg hkind]
        exact h.admin_call hkind nodeId coalesceKey
  | start id => exact h.start
  | settle id => exact h.settle
  | cleanUp id => exact h.cleanUp
  | beginHold => exact h.congr rfl rfl rfl
  | endHold hold =>
      show Tracked (s.endMeshcoreCliReplyHold hold)
      obtain heq | ⟨_, _, _, heq⟩ := @endHold_eq s hold
      · rw [heq]
        exact h
      · rw [heq]
        exact h.congr rfl rfl rfl
  | reset =>
      constructor
      · intro key k hk
        exact absurd hk (Option.some_ne_none k).symm
      · intro key k hk
        exact absurd hk (Option.some_ne_none k).symm

theorem heldNow_endHold {x : CliHold} {hold : Nat} (hx : s.holds[hold]? = some x) (hended : x.ended = false) :
    (s.holds.set hold { x with ended := true }).countP (fun h => h.live s.resets)
      = s.heldNow - if x.madeIn = s.resets then 1 else 0 := by
  obtain ⟨hlt, hget⟩ := List.getElem?_eq_some_iff.mp hx
  rw [List.countP_set hlt, hget, RepeaterRpcs.heldNow]
  simp [CliHold.live, hended]

theorem heldNow_pos {x : CliHold} {hold : Nat} (hx : s.holds[hold]? = some x) (hended : x.ended = false)
    (hmade : x.madeIn = s.resets) : 0 < s.heldNow :=
  List.countP_pos_iff.mpr ⟨x, List.mem_of_getElem? hx, by simp [CliHold.live, hended, hmade]⟩

theorem heldNow_beginHold :
    s.beginMeshcoreCliReplyHold.heldNow = s.heldNow + 1 := by
  have happend : s.beginMeshcoreCliReplyHold.heldNow
      = List.countP (fun h : CliHold => h.live s.resets) (s.holds ++ [⟨s.resets, false⟩]) := rfl
  rw [happend, List.countP_append, RepeaterRpcs.heldNow]
  simp [CliHold.live]

theorem heldNow_reset (h : Held s) : s.resetMeshcoreRepeaterRpcInFlightOnDisconnect.heldNow = 0 := by
  refine List.countP_eq_zero.mpr fun x hx hcount => ?_
  simp only [CliHold.live, Bool.and_eq_true, decide_eq_true_eq] at hcount
  have hmade := h.made x hx
  have hnow : x.madeIn = s.resets + 1 := hcount.1
  omega

theorem Held.congr {t : RepeaterRpcs} (h : Held s) (hcount : t.cliReplyHoldCount = s.cliReplyHoldCount)
    (hholds : t.holds = s.holds) (hresets : t.resets = s.resets) : Held t where
  count := by
    rw [hcount, RepeaterRpcs.heldNow, hholds, hresets]
    exact h.count
  made := by
    rw [hholds, hresets]
    exact h.made

-- The events of calls leave the holds alone.
structure SameHolds (s t : RepeaterRpcs) : Prop where
  count : t.cliReplyHoldCount = s.cliReplyHoldCount
  holds : t.holds = s.holds
  resets : t.resets = s.resets

theorem sameHolds_call (kind : MeshcoreRepeaterRpcKind) (nodeId : Int) (coalesceKey : Option String) :
    SameHolds s (s.runMeshcoreRepeaterRpcOnce kind nodeId coalesceKey) := by
  unfold RepeaterRpcs.runMeshcoreRepeaterRpcOnce RepeaterRpcs.runMeshcoreTraceRpcOnce
    RepeaterRpcs.runMeshcoreAdminRpcOnce
  simp only
  split_ifs <;> exact ⟨rfl, rfl, rfl⟩

theorem sameHolds_start (id : Nat) : SameHolds s (s.start id) := by
  unfold RepeaterRpcs.start
  cases s.rpcs[id]? with
  | none => exact ⟨rfl, rfl, rfl⟩
  | some r =>
      simp only
      split_ifs <;> exact ⟨rfl, rfl, rfl⟩

theorem sameHolds_settle (id : Nat) : SameHolds s (s.settle id) := by
  unfold RepeaterRpcs.settle
  cases s.rpcs[id]? with
  | none => exact ⟨rfl, rfl, rfl⟩
  | some r =>
      simp only
      split_ifs <;> exact ⟨rfl, rfl, rfl⟩

theorem sameHolds_cleanUp (id : Nat) : SameHolds s (s.cleanUp id) := by
  unfold RepeaterRpcs.cleanUp RepeaterRpcs.countTraceDown RepeaterRpcs.forgetTrace RepeaterRpcs.forgetAdmin
  cases s.rpcs[id]? with
  | none => exact ⟨rfl, rfl, rfl⟩
  | some r =>
      simp only
      split_ifs <;> exact ⟨rfl, rfl, rfl⟩

theorem Held.step (h : Held s) (e : RepeaterRpcEvent) : Held (s.step e) := by
  cases e with
  | call kind nodeId coalesceKey =>
      have hsame := @sameHolds_call s kind nodeId coalesceKey
      exact h.congr hsame.count hsame.holds hsame.resets
  | start id =>
      have hsame := @sameHolds_start s id
      exact h.congr hsame.count hsame.holds hsame.resets
  | settle id =>
      have hsame := @sameHolds_settle s id
      exact h.congr hsame.count hsame.holds hsame.resets
  | cleanUp id =>
      have hsame := @sameHolds_cleanUp s id
      exact h.congr hsame.count hsame.holds hsame.resets
  | beginHold =>
      refine ⟨?_, ?_⟩
      · have hcount := h.count
        show s.cliReplyHoldCount + 1 ≤ s.beginMeshcoreCliReplyHold.heldNow
        rw [heldNow_beginHold]
        omega
      · intro x hx
        rcases List.mem_append.mp hx with hx | hx
        · exact h.made x hx
        · obtain rfl := List.mem_singleton.mp hx
          exact le_refl _
  | endHold hold =>
      show Held (s.endMeshcoreCliReplyHold hold)
      obtain heq | ⟨x, hx, hended, heq⟩ := @endHold_eq s hold
      · rw [heq]
        exact h
      · rw [heq]
        refine ⟨?_, ?_⟩
        · have hcount := h.count
          show s.cliReplyHoldCount - 1 ≤
            (s.holds.set hold { x with ended := true }).countP (fun h => h.live s.resets)
          rw [heldNow_endHold hx hended]
          split_ifs <;> omega
        · intro y hy
          rcases List.mem_or_eq_of_mem_set hy with hy | rfl
          · exact h.made y hy
          · exact h.made x (List.mem_of_getElem? hx)
  | reset =>
      refine ⟨?_, fun x hx => (h.made x hx).trans (Nat.le_succ _)⟩
      show 0 ≤ _
      exact Nat.zero_le _

-- A trace for the node that was called since the last reset and has not settled for its caller.
def Rpc.live (r : Rpc) (resets normalizedId : Nat) : Bool :=
  decide (r.kind = .trace) && decide (r.madeIn = resets) && decide (normalizedNodeId r.nodeId = normalizedId) &&
    decide (r.phase ≠ .done)

def RepeaterRpcs.liveTraces (s : RepeaterRpcs) (normalizedId : Nat) : Nat :=
  s.rpcs.countP fun r => r.live s.resets normalizedId

-- What a promise or a hold from before the last reset must not meet when it ends or goes on.
def Undisturbed (s : RepeaterRpcs) : RepeaterRpcEvent → Prop
  | .start id => ∀ r, s.rpcs[id]? = some r → r.phase = .queued → ∀ y ∈ s.rpcs, y.phase = .running →
      y.queue = r.queue → y.startedIn = s.resets → y.madeIn = r.madeIn
  | .cleanUp id => ∀ r, s.rpcs[id]? = some r → r.phase = .settled → r.kind = .trace → r.madeIn < s.resets →
      s.liveTraces (normalizedNodeId r.nodeId) = 0
  | .endHold hold => ∀ h, s.holds[hold]? = some h → h.ended = false → h.madeIn < s.resets → s.heldNow = 0
  | _ => True

instance (s : RepeaterRpcs) : (e : RepeaterRpcEvent) → Decidable (Undisturbed s e)
  | .start id => inferInstanceAs (Decidable (∀ r ∈ s.rpcs[id]?, r.phase = .queued → ∀ y ∈ s.rpcs,
      y.phase = .running → y.queue = r.queue → y.startedIn = s.resets → y.madeIn = r.madeIn))
  | .cleanUp id => inferInstanceAs (Decidable (∀ r ∈ s.rpcs[id]?, r.phase = .settled → r.kind = .trace →
      r.madeIn < s.resets → s.liveTraces (normalizedNodeId r.nodeId) = 0))
  | .endHold hold => inferInstanceAs (Decidable (∀ h ∈ s.holds[hold]?, h.ended = false →
      h.madeIn < s.resets → s.heldNow = 0))
  | .call _ _ _ => inferInstanceAs (Decidable True)
  | .settle _ => inferInstanceAs (Decidable True)
  | .beginHold => inferInstanceAs (Decidable True)
  | .reset => inferInstanceAs (Decidable True)

-- The counts of the code are the numbers they stand for, and functions of one queue that run
-- side by side started between different resets.
structure Exact (s : RepeaterRpcs) : Prop where
  traces : ∀ n, (s.traceInFlightCountByNode.get? n).getD 0 = s.liveTraces n
  held : s.cliReplyHoldCount = s.heldNow
  apart : ∀ (i j : Nat) (r r' : Rpc), s.rpcs[i]? = some r → s.rpcs[j]? = some r' → r.phase = .running →
    r'.phase = .running → r.queue = r'.queue → r.startedIn = r'.startedIn → i = j
  started : ∀ r ∈ s.rpcs, r.startedIn ≤ s.resets

theorem Rpc.live_iff {resets n : Nat} : r.live resets n = true ↔
    r.kind = .trace ∧ r.madeIn = resets ∧ normalizedNodeId r.nodeId = n ∧ r.phase ≠ .done := by
  simp only [Rpc.live, Bool.and_eq_true, decide_eq_true_eq, and_assoc]

theorem liveTraces_put (hr : s.rpcs[id]? = some r) (n : Nat) :
    (s.put id r').liveTraces n = s.liveTraces n - (if r.live s.resets n = true then 1 else 0) +
      if r'.live s.resets n = true then 1 else 0 := by
  obtain ⟨hlt, hget⟩ := List.getElem?_eq_some_iff.mp hr
  have hset : (s.put id r').liveTraces n = (s.rpcs.set id r').countP fun r => r.live s.resets n := rfl
  rw [hset, List.countP_set hlt, hget, RepeaterRpcs.liveTraces]

theorem liveTraces_pos (hr : s.rpcs[id]? = some r) {n : Nat} (hlive : r.live s.resets n = true) :
    0 < s.liveTraces n :=
  List.countP_pos_iff.mpr ⟨r, List.mem_of_getElem? hr, hlive⟩

theorem liveTraces_put_same (hr : s.rpcs[id]? = some r) (n : Nat)
    (hsame : r'.live s.resets n = r.live s.resets n) : (s.put id r').liveTraces n = s.liveTraces n := by
  rw [liveTraces_put hr, hsame]
  split_ifs with hlive
  · have hpos := liveTraces_pos hr hlive
    omega
  · rfl

theorem liveTraces_reset (h : Lined s) (n : Nat) :
    s.resetMeshcoreRepeaterRpcInFlightOnDisconnect.liveTraces n = 0 := by
  refine List.countP_eq_zero.mpr fun r hr hlive => ?_
  have hmade := h.made r hr
  have hnow : r.madeIn = s.resets + 1 := (Rpc.live_iff.mp hlive).2.1
  omega

-- Everything but a call, a start and a cleanup leaves the counted traces as they are.
theorem Exact.congr {t : RepeaterRpcs} (h : Exact s) (hrpcs : t.rpcs = s.rpcs) (hresets : t.resets = s.resets)
    (hcounts : t.traceInFlightCountByNode = s.traceInFlightCountByNode)
    (hheld : t.cliReplyHoldCount = t.heldNow) : Exact t where
  traces n := by
    rw [hcounts, RepeaterRpcs.liveTraces, hrpcs, hresets]
    exact h.traces n
  held := hheld
  apart := by
    rw [hrpcs]
    exact h.apart
  started := by
    rw [hrpcs, hresets]
    exact h.started

theorem SameHolds.held {t : RepeaterRpcs} (h : SameHolds s t) (hheld : s.cliReplyHoldCount = s.heldNow) :
    t.cliReplyHoldCount = t.heldNow := by
  rw [h.count, hheld, RepeaterRpcs.heldNow, RepeaterRpcs.heldNow, h.holds, h.resets]

-- A function that starts is alone among those of its queue that started since the reset.
theorem alone_of_start (hlined : Lined s) (hr : s.rpcs[id]? = some r) (hqueued : r.phase = .queued)
    (hfree : rpcLine.Free s.rpcs r) (hok : Undisturbed s (.start id)) {j : Nat} {y : Rpc}
    (hy : s.rpcs[j]? = some y) (hrunning : y.phase = .running) (hqueue : y.queue = r.queue)
    (hstarted : y.startedIn = s.resets) : False := by
  have hmade := hok r hr hqueued y (List.mem_of_getElem? hy) hrunning hqueue hstarted
  have hlane : rpcLine.lane y = rpcLine.lane r := Prod.ext hqueue hmade
  have hrun := running_iff.mpr hrunning
  rcases Nat.lt_trichotomy j id with hlt | rfl | hlt
  · exact hrun.2 (hlined.inTurn.settled_before hlined.linked hr hfree hy hlt hlane)
  · obtain rfl := Option.some.inj (hr.symm.trans hy)
    exact absurd (hqueued.symm.trans hrunning) (by decide)
  · have hsettled := hlined.inTurn j y hy hrun.1 id r hr hlt hlane.symm
    exact rpcLine.started_of_settled r hsettled hqueued

theorem Exact.put_idle (h : Exact s) (hr : s.rpcs[id]? = some r) {phase : RpcPhase}
    (hidle : phase ≠ .running) (hsame : ∀ n, Rpc.live { r with phase } s.resets n = r.live s.resets n) :
    Exact (s.put id { r with phase }) where
  traces n := by
    rw [liveTraces_put_same hr n (hsame n)]
    exact h.traces n
  held := h.held
  apart i j x y hx hy hrx hry hqueue hstarted := by
    rw [get?_put hr] at hx hy
    split_ifs at hx hy with hi hj hj
    · exact hi.trans hj.symm
    · obtain rfl := Option.some.inj hx
      exact absurd hrx hidle
    · obtain rfl := Option.some.inj hy
      exact absurd hry hidle
    · exact h.apart i j x y hx hy hrx hry hqueue hstarted
  started y hy := by
    rcases List.mem_or_eq_of_mem_set hy with hy | rfl
    · exact h.started y hy
    · exact h.started r (List.mem_of_getElem? hr)

theorem live_undone {phase : RpcPhase} (hphase : phase ≠ .done) (hbefore : r.phase ≠ .done) (resets n : Nat) :
    Rpc.live { r with phase } resets n = r.live resets n := by
  simp [Rpc.live, hphase, hbefore]

theorem Exact.start (h : Exact s) (hlined : Lined s) (hok : Undisturbed s (.start id)) :
    Exact (s.start id) := by
  unfold RepeaterRpcs.start
  cases hr : s.rpcs[id]? with
  | none => exact h
  | some r =>
      by_cases hready : r.phase = .queued ∧ s.tailResolved r = true
      · obtain ⟨hqueued, hfree⟩ := hready
        have hundone : r.phase ≠ .done := by simp [hqueued]
        simp only [if_pos (And.intro hqueued hfree)]
        split_ifs
        · exact h.put_idle hr (by decide) fun n => live_undone (by decide) hundone s.resets n
        · have halone := @alone_of_start s id r hlined hr hqueued (free_iff.mp hfree) hok
          constructor
          · intro n
            rw [liveTraces_put_same hr n (by simp [Rpc.live, hundone])]
            exact h.traces n
          · exact h.held
          · intro i j x y hx hy hrx hry hqueue hstarted
            rw [get?_put hr] at hx hy
            split_ifs at hx hy with hi hj hj
            · exact hi.trans hj.symm
            · obtain rfl := Option.some.inj hx
              exact (halone hy hry hqueue.symm hstarted.symm).elim
            · obtain rfl := Option.some.inj hy
              exact (halone hx hrx hqueue hstarted).elim
            · exact h.apart i j x y hx hy hrx hry hqueue hstarted
          · intro y hy
            rcases List.mem_or_eq_of_mem_set hy with hy | rfl
            · exact h.started y hy
            · exact le_refl _
      · simp only [if_neg hready]
        exact h

theorem Exact.settle (h : Exact s) : Exact (s.settle id) := by
  unfold RepeaterRpcs.settle
  cases hr : s.rpcs[id]? with
  | none => exact h
  | some r =>
      by_cases hrunning : r.phase = .running
      · simp only [if_pos hrunning]
        exact h.put_idle hr (by decide) fun n => live_undone (by decide) (by simp [hrunning]) s.resets n
      · simp only [if_neg hrunning]
        exact h

theorem get?_countTraceDown (n m : Nat) :
    ((s.countTraceDown n).traceInFlightCountByNode.get? m).getD 0
      = if m = n then (s.traceInFlightCountByNode.get? n).getD 1 - 1
        else (s.traceInFlightCountByNode.get? m).getD 0 := by
  unfold RepeaterRpcs.countTraceDown
  simp only
  split_ifs with hzero hm hm
  · rw [OrderedMap.get?_erase, if_pos hm, hzero]
    rfl
  · rw [OrderedMap.get?_erase, if_neg hm]
  · rw [OrderedMap.get?_set, if_pos hm]
    rfl
  · rw [OrderedMap.get?_set, if_neg hm]

theorem forgetTrace_counts (key : String) :
    (s.forgetTrace id key).traceInFlightCountByNode = s.traceInFlightCountByNode := by
  unfold RepeaterRpcs.forgetTrace
  split_ifs <;> rfl

theorem forgetTrace_resets (key : String) : (s.forgetTrace id key).resets = s.resets := by
  unfold RepeaterRpcs.forgetTrace
  split_ifs <;> rfl

-- The count goes down by one for a trace that was counted, and was zero where the trace was not.
theorem count_after_cleanUp (h : Exact s) (hlined : Lined s) (hok : Undisturbed s (.cleanUp id))
    (hr : s.rpcs[id]? = some r) (hsettled : r.phase = .settled) (hkind : r.kind = .trace) (n : Nat) :
    (if n = normalizedNodeId r.nodeId then (s.traceInFlightCountByNode.get? (normalizedNodeId r.nodeId)).getD 1 - 1
      else (s.traceInFlightCountByNode.get? n).getD 0) = (s.put id { r with phase := .done }).liveTraces n := by
  have hundone : r.phase ≠ .done := by simp [hsettled]
  have hdone : Rpc.live { r with phase := .done } s.resets n = false := by simp [Rpc.live]
  have hmade : r.madeIn ≤ s.resets := hlined.made r (List.mem_of_getElem? hr)
  have hput : (s.put id { r with phase := .done }).liveTraces n
      = s.liveTraces n - if r.live s.resets n = true then 1 else 0 := by
    rw [liveTraces_put hr, hdone]
    rfl
  rw [hput]
  by_cases hn : n = normalizedNodeId r.nodeId
  · subst hn
    have hcount := h.traces (normalizedNodeId r.nodeId)
    rw [if_pos rfl]
    by_cases hnow : r.madeIn = s.resets
    · have hlive := Rpc.live_iff.mpr ⟨hkind, hnow, rfl, hundone⟩
      have hpos := liveTraces_pos hr hlive
      rw [if_pos hlive]
      cases hget : s.traceInFlightCountByNode.get? (normalizedNodeId r.nodeId) with
      | none =>
          rw [hget, Option.getD_none] at hcount
          omega
      | some c =>
          rw [hget, Option.getD_some] at hcount
          rw [Option.getD_some]
          omega
    · have hzero := hok r hr hsettled hkind (by omega)
      have hlive : ¬ r.live s.resets (normalizedNodeId r.nodeId) = true := fun hl => hnow (Rpc.live_iff.mp hl).2.1
      rw [if_neg hlive]
      cases hget : s.traceInFlightCountByNode.get? (normalizedNodeId r.nodeId) with
      | none =>
          rw [Option.getD_none]
          omega
      | some c =>
          rw [hget, Option.getD_some] at hcount
          rw [Option.getD_some]
          omega
  · have hlive : ¬ r.live s.resets n = true := fun hl => hn (Rpc.live_iff.mp hl).2.2.1.symm
    rw [if_neg hn, if_neg hlive, h.traces n]
    omega

theorem Exact.put_done (h : Exact s) (hr : s.rpcs[id]? = some r) :
    (∀ (i j : Nat) (x y : Rpc), (s.put id { r with phase := .done }).rpcs[i]? = some x →
      (s.put id { r with phase := .done }).rpcs[j]? = some y → x.phase = .running → y.phase = .running →
        x.queue = y.queue → x.startedIn = y.startedIn → i = j) ∧
    ∀ y ∈ (s.put id { r with phase := .done }).rpcs, y.startedIn ≤ s.resets := by
  constructor
  · intro i j x y hx hy hrx hry hqueue hstarted
    rw [get?_put hr] at hx hy
    split_ifs at hx hy with hi hj hj
    · exact hi.trans hj.symm
    · obtain rfl := Option.some.inj hx
      simp at hrx
    · obtain rfl := Option.some.inj hy
      simp at hry
    · exact h.apart i j x y hx hy hrx hry hqueue hstarted
  · intro y hy
    rcases List.mem_or_eq_of_mem_set hy with hy | rfl
    · exact h.started y hy
    · exact h.started r (List.mem_of_getElem? hr)

theorem Exact.cleanUp (h : Exact s) (hlined : Lined s) (hok : Undisturbed s (.cleanUp id)) :
    Exact (s.cleanUp id) := by
  have hheld := (@sameHolds_cleanUp s id).held h.held
  unfold RepeaterRpcs.cleanUp at hheld ⊢
  cases hr : s.rpcs[id]? with
  | none => exact h
  | some r =>
      by_cases hsettled : r.phase = .settled
      · simp only [hr, if_pos hsettled] at hheld ⊢
        obtain ⟨hapart, hstarted⟩ := h.put_done hr
        by_cases hkind : r.kind = .trace
        · simp only [if_pos hkind] at hheld ⊢
          constructor
          · intro n
            rw [get?_countTraceDown, forgetTrace_counts]
            refine (count_after_cleanUp h hlined hok hr hsettled hkind n).trans ?_
            simp only [RepeaterRpcs.liveTraces, RepeaterRpcs.countTraceDown, forgetTrace_rpcs, forgetTrace_resets]
          · exact hheld
          · simp only [RepeaterRpcs.countTraceDown, forgetTrace_rpcs]
            exact hapart
          · simp only [RepeaterRpcs.countTraceDown, forgetTrace_rpcs, forgetTrace_resets]
            exact hstarted
        · simp only [if_neg hkind] at hheld ⊢
          have hput : Exact (s.put id { r with phase := .done }) := by
            refine ⟨fun n => ?_, h.held, hapart, hstarted⟩
            rw [liveTraces_put_same hr n (by simp [Rpc.live, hkind])]
            exact h.traces n
          unfold RepeaterRpcs.forgetAdmin at hheld ⊢
          split_ifs at hheld ⊢
          · exact hput.congr rfl rfl rfl hheld
          · exact hput
      · simp only [if_neg hsettled]
        exact h

theorem apart_concat (h : Exact s) (hr : r.phase ≠ .running) :
    ∀ (i j : Nat) (x y : Rpc), (s.rpcs ++ [r])[i]? = some x → (s.rpcs ++ [r])[j]? = some y →
      x.phase = .running → y.phase = .running → x.queue = y.queue → x.startedIn = y.startedIn → i = j := by
  intro i j x y hx hy hrx hry hqueue hstarted
  obtain hx | ⟨_, rfl⟩ := getElem?_concat_cases hx
  · obtain hy | ⟨_, rfl⟩ := getElem?_concat_cases hy
    · exact h.apart i j x y hx hy hrx hry hqueue hstarted
    · exact absurd hry hr
  · exact absurd hrx hr

theorem started_concat (h : Exact s) (hr : r.startedIn ≤ s.resets) :
    ∀ y ∈ s.rpcs ++ [r], y.startedIn ≤ s.resets := by
  intro y hy
  rcases List.mem_append.mp hy with hy | hy
  · exact h.started y hy
  · exact List.mem_singleton.mp hy ▸ hr

theorem Exact.call (h : Exact s) (kind : MeshcoreRepeaterRpcKind) (nodeId : Int) (coalesceKey : Option String) :
    Exact (s.runMeshcoreRepeaterRpcOnce kind nodeId coalesceKey) := by
  have hheld := (@sameHolds_call s kind nodeId coalesceKey).held h.held
  unfold RepeaterRpcs.runMeshcoreRepeaterRpcOnce at hheld ⊢
  by_cases hkind : kind = .trace
  · rw [if_pos hkind] at hheld ⊢
    unfold RepeaterRpcs.runMeshcoreTraceRpcOnce at hheld ⊢
    simp only at hheld ⊢
    split_ifs at hheld ⊢
    · exact h
    · refine ⟨fun n => ?_, hheld, apart_concat h (by simp), started_concat h (Nat.zero_le _)⟩
      rw [OrderedMap.get?_set, RepeaterRpcs.liveTraces, List.countP_append]
      have hcount := h.traces n
      rw [RepeaterRpcs.liveTraces] at hcount
      by_cases hn : n = normalizedNodeId nodeId
      · subst hn
        simp [Rpc.live, hcount]
      · simp [Rpc.live, hn, Ne.symm hn, hcount]
  · rw [if_neg hkind] at hheld ⊢
    unfold RepeaterRpcs.runMeshcoreAdminRpcOnce at hheld ⊢
    simp only at hheld ⊢
    split_ifs at hheld ⊢
    · exact h
    · refine ⟨fun n => ?_, hheld, apart_concat h (by simp), started_concat h (Nat.zero_le _)⟩
      rw [RepeaterRpcs.liveTraces, List.countP_append]
      have hcount := h.traces n
      rw [RepeaterRpcs.liveTraces] at hcount
      simp [Rpc.live, hkind, hcount]

theorem Exact.endHold (h : Exact s) (hheld : Held s) {hold : Nat} (hok : Undisturbed s (.endHold hold)) :
    Exact (s.endMeshcoreCliReplyHold hold) := by
  obtain heq | ⟨x, hx, hended, heq⟩ := @endHold_eq s hold
  · rw [heq]
    exact h
  · rw [heq]
    refine h.congr rfl rfl rfl ?_
    have hnow : RepeaterRpcs.heldNow { s with
        cliReplyHoldCount := s.cliReplyHoldCount - 1
        holds := s.holds.set hold { x with ended := true } }
        = s.heldNow - if x.madeIn = s.resets then 1 else 0 := heldNow_endHold hx hended
    rw [hnow]
    have hcount := h.held
    by_cases hmade : x.madeIn = s.resets
    · rw [if_pos hmade, ← hcount]
    · have hle := hheld.made x (List.mem_of_getElem? hx)
      have hzero := hok x hx hended (by omega)
      rw [if_neg hmade]
      show s.cliReplyHoldCount - 1 = _
      omega

theorem Exact.step (h : Exact s) (hlined : Lined s) (hheld : Held s) {e : RepeaterRpcEvent}
    (hok : Undisturbed s e) : Exact (s.step e) := by
  cases e with
  | call kind nodeId coalesceKey => exact h.call kind nodeId coalesceKey
  | start id => exact h.start hlined hok
  | settle id => exact h.settle
  | cleanUp id => exact h.cleanUp hlined hok
  | beginHold =>
      refine h.congr rfl rfl rfl ?_
      show s.cliReplyHoldCount + 1 = s.beginMeshcoreCliReplyHold.heldNow
      rw [heldNow_beginHold, h.held]
  | endHold hold => exact h.endHold hheld hok
  | reset =>
      refine ⟨fun n => (liveTraces_reset hlined n).symm, (heldNow_reset hheld).symm, h.apart, ?_⟩
      exact fun r hr => (h.started r hr).trans (Nat.le_succ _)

theorem lined_run (events : List RepeaterRpcEvent) : Lined (run RepeaterRpcs.step {} events) :=
  invariant_run (fun _ e h => h.step e) ⟨fun _ _ h => by simp at h, fun _ _ h => by simp at h,
    fun q => by cases q <;> exact tail_nil _, fun _ h => absurd h List.not_mem_nil⟩ events

theorem tracked_run (events : List RepeaterRpcEvent) : Tracked (run RepeaterRpcs.step {} events) :=
  invariant_run (fun _ e h => h.step e) ⟨fun _ k h => absurd h (Option.some_ne_none k).symm,
    fun _ k h => absurd h (Option.some_ne_none k).symm⟩ events

theorem held_run (events : List RepeaterRpcEvent) : Held (run RepeaterRpcs.step {} events) :=
  invariant_run (fun _ e h => h.step e) ⟨le_refl _, fun _ h => absurd h List.not_mem_nil⟩ events

theorem exact_run {events : List RepeaterRpcEvent} (h : Each RepeaterRpcs.step Undisturbed {} events) :
    Exact (run RepeaterRpcs.step {} events) := by
  have hall : Lined (run RepeaterRpcs.step {} events) ∧ Held (run RepeaterRpcs.step {} events) ∧
      Exact (run RepeaterRpcs.step {} events) := by
    refine invariant_of_each (P := fun s => Lined s ∧ Held s ∧ Exact s) ?_ h
      ⟨lined_run [], held_run [], fun _ => rfl, rfl, fun i j x y hx => by simp at hx, fun _ hr => absurd hr List.not_mem_nil⟩
    rintro s e hok ⟨hlined, hheld, hexact⟩
    exact ⟨hlined.step e, hheld.step e, hexact.step hlined hheld hok⟩
  exact hall.2.2

theorem not_busy (htracked : Tracked s) (hheld : Held s) (hdone : ∀ r ∈ s.rpcs, r.phase = .done)
    (hended : ∀ h ∈ s.holds, h.ended = true) : s.meshcoreCompanionRepeaterRfBusy 0 = false := by
  have hzero : s.heldNow = 0 := List.countP_eq_zero.mpr fun h hh hlive => by
    simp [CliHold.live, hended h hh] at hlive
  have hempty : ∀ m : OrderedMap String Nat, (∀ key id, m.get? key = some id →
      ∃ r, s.rpcs[id]? = some r ∧ r.phase ≠ .done) → m.size = 0 := by
    intro m hm
    by_contra hsize
    rw [OrderedMap.size_eq_keys_length] at hsize
    obtain ⟨key, hkey⟩ := List.exists_mem_of_length_pos (Nat.pos_of_ne_zero hsize)
    obtain ⟨id, hid⟩ := (OrderedMap.mem_keys_iff m key).mp hkey
    obtain ⟨r, hr, hundone⟩ := hm key id hid
    exact hundone (hdone r (List.mem_of_getElem? hr))
  have hadmin := hempty s.inFlightByKey fun key id hid => by
    obtain ⟨r, hr, _, _, hr'⟩ := htracked.admin key id hid
    exact ⟨r, hr, hr'⟩
  have htrace := hempty s.traceInFlightByKey fun key id hid => by
    obtain ⟨r, hr, _, _, hr'⟩ := htracked.trace key id hid
    exact ⟨r, hr, hr'⟩
  have hcount := hheld.count
  have hhold : s.cliReplyHoldCount = 0 := by omega
  simp [RepeaterRpcs.meshcoreCompanionRepeaterRfBusy, hadmin, htrace, hhold]

theorem rpcs_survive_disconnects (events : List RepeaterRpcEvent) :
    ((∀ (i j : Nat) (r r' : Rpc), (run RepeaterRpcs.step {} events).rpcs[i]? = some r →
        (run RepeaterRpcs.step {} events).rpcs[j]? = some r' → i ≠ j → r.phase = .running →
        r'.phase = .running → r.queue = r'.queue → r.madeIn ≠ r'.madeIn) ∧
      ((∀ r ∈ (run RepeaterRpcs.step {} events).rpcs, r.phase = .done) →
        (∀ h ∈ (run RepeaterRpcs.step {} events).holds, h.ended = true) →
        (run RepeaterRpcs.step {} events).meshcoreCompanionRepeaterRfBusy 0 = false)) ∧
    (Each RepeaterRpcs.step Undisturbed {} events →
      (∀ (i j : Nat) (r r' : Rpc), (run RepeaterRpcs.step {} events).rpcs[i]? = some r →
        (run RepeaterRpcs.step {} events).rpcs[j]? = some r' → i ≠ j → r.phase = .running →
        r'.phase = .running → r.queue = r'.queue → r.startedIn ≠ r'.startedIn) ∧
      (∀ nodeId, (run RepeaterRpcs.step {} events).meshcoreRepeaterTraceActiveForNode nodeId = true ↔
        ∃ r ∈ (run RepeaterRpcs.step {} events).rpcs, r.kind = .trace ∧
          r.madeIn = (run RepeaterRpcs.step {} events).resets ∧ normalizedNodeId r.nodeId = normalizedNodeId nodeId ∧
          r.phase ≠ .done) ∧
      ((run RepeaterRpcs.step {} events).meshcoreCliReplyHoldActive = true ↔
        ∃ h ∈ (run RepeaterRpcs.step {} events).holds,
          h.madeIn = (run RepeaterRpcs.step {} events).resets ∧ h.ended = false)) := by
  refine ⟨⟨?_, not_busy (tracked_run events) (held_run events)⟩, fun heach => ⟨?_, ?_, ?_⟩⟩
  · intro i j r r' hr hr' hne hrun hrun' hqueue hmade
    exact hne ((lined_run events).inTurn.running_unique hr hr' (Prod.ext hqueue hmade) (running_iff.mpr hrun)
      (running_iff.mpr hrun'))
  · intro i j r r' hr hr' hne hrun hrun' hqueue hstarted
    exact hne ((exact_run heach).apart i j r r' hr hr' hrun hrun' hqueue hstarted)
  · intro nodeId
    unfold RepeaterRpcs.meshcoreRepeaterTraceActiveForNode
    rw [(exact_run heach).traces, decide_eq_true_eq, RepeaterRpcs.liveTraces, List.countP_pos_iff]
    simp only [Rpc.live_iff]
  · unfold RepeaterRpcs.meshcoreCliReplyHoldActive
    rw [(exact_run heach).held, decide_eq_true_eq, RepeaterRpcs.heldNow, List.countP_pos_iff]
    simp [CliHold.live]

def pingAfterReconnect : List RepeaterRpcEvent :=
  [.call .trace 7 none, .start 0, .reset, .settle 0, .cleanUp 0, .call .trace 7 none, .start 1]

theorem ping_is_seen : (run RepeaterRpcs.step {} pingAfterReconnect).meshcoreRepeaterTraceActiveForNode 7 = true := by
  have heach : Each RepeaterRpcs.step Undisturbed {} pingAfterReconnect := by decide
  exact (((rpcs_survive_disconnects pingAfterReconnect).2 heach).2.1 7).mpr
    ⟨⟨.trace, 7, "trace:7", none, .running, 1, 1⟩, by decide⟩

def lateSettle : List RepeaterRpcEvent :=
  [.call .trace 7 none, .start 0, .reset, .call .trace 7 none, .start 1, .settle 0, .cleanUp 0]

def lateEnd : List RepeaterRpcEvent := [.beginHold, .reset, .beginHold, .endHold 0]

def lateStart : List RepeaterRpcEvent :=
  [.call .status 7 none, .start 0, .call .neighbors 7 none, .reset, .call .status 7 none, .start 2,
    .settle 0, .start 1]

-- What began before a reset takes from the counts that were started anew, and runs beside what
-- was called after it.
theorem reset_is_undone :
    ((run RepeaterRpcs.step {} lateSettle).meshcoreRepeaterTraceActiveForNode 7 = false ∧
      ∃ r ∈ (run RepeaterRpcs.step {} lateSettle).rpcs, r.kind = .trace ∧
        r.madeIn = (run RepeaterRpcs.step {} lateSettle).resets ∧ normalizedNodeId r.nodeId = 7 ∧ r.phase ≠ .done) ∧
    ((run RepeaterRpcs.step {} lateEnd).meshcoreCliReplyHoldActive = false ∧
      ∃ h ∈ (run RepeaterRpcs.step {} lateEnd).holds,
        h.madeIn = (run RepeaterRpcs.step {} lateEnd).resets ∧ h.ended = false) ∧
    ∃ r r', (run RepeaterRpcs.step {} lateStart).rpcs[1]? = some r ∧
      (run RepeaterRpcs.step {} lateStart).rpcs[2]? = some r' ∧ r.phase = .running ∧ r'.phase = .running ∧
      r.queue = r'.queue ∧ r.startedIn = r'.startedIn := by
  refine ⟨by decide, by decide, ?_⟩
  exact ⟨⟨.neighbors, 7, "neighbors:7", some 0, .running, 0, 1⟩, ⟨.status, 7, "status:7", none, .running, 1, 1⟩,
    by decide⟩

end MeshClient.Meshcore
