import MeshClient.Lib.Run
import MeshClient.Reticulum.OutboundKept

namespace MeshClient.Reticulum.Outbound

open Js Run

variable {js : Runtime} {identityId hash : String} {s : Store} {row : MessageRecord} {u : Update} {c : Call} {calls : List Call}

-- What the calls say, as far as it is known.
def updates (js : Runtime) (calls : List Call) : List Update := calls.filterMap (Call.update? js)

namespace Store

def status? (s : Store) (identityId messageId : String) : Option MessageStatus :=
  (s.row? identityId messageId).bind MessageRecord.status

-- The status before, between and after the calls.
def statuses (js : Runtime) (identityId hash : String) : Store → List Call → List (Option MessageStatus)
  | s, [] => [s.status? identityId hash]
  | s, c :: rest =>
      s.status? identityId hash :: statuses js identityId hash (s.applyReticulumOutboundDeliveryStatus js identityId c) rest

end Store

open Store

def NeverBack (statuses : List (Option MessageStatus)) : Prop :=
  statuses.IsChain fun before after => before = some .acked → after ≠ some .sending

-- The calls of `early` come before the row exists: the same as if it had existed from the beginning.
structure EarlyAsLate (js : Runtime) (identityId hash : String) (s : Store) (row : MessageRecord) (early late : List Call) :
    Prop where
  same : let step := applyReticulumOutboundDeliveryStatus js identityId
    let created := (run step s early).insertRow identityId hash row
    ((run step (created.flushPendingReticulumOutboundDeliveryStatus js identityId hash).1 late).row? identityId hash).map outcome =
      ((run step (s.insertRow identityId hash row) (early ++ late)).row? identityId hash).map outcome
  direct : NeverBack ((s.insertRow identityId hash row).statuses js identityId hash (early ++ late))
  buffered : let created := (run (applyReticulumOutboundDeliveryStatus js identityId) s early).insertRow identityId hash row
    NeverBack (created.status? identityId hash ::
      (created.flushPendingReticulumOutboundDeliveryStatus js identityId hash).1.statuses js identityId hash late)

theorem row?_insertRow : (s.insertRow identityId hash row).row? identityId hash = some row := OrderedMap.get?_set_self _ _ _

theorem persist_of_some (h : s.row? identityId hash = some row) :
    s.persistReticulumOutboundMessageStatus identityId hash u = (s.insertRow identityId hash (patchRecord row u), true) := by
  unfold persistReticulumOutboundMessageStatus
  rw [h]
  rfl

theorem persist_of_none (h : s.row? identityId hash = none) :
    s.persistReticulumOutboundMessageStatus identityId hash u = (s, false) := by
  unfold persistReticulumOutboundMessageStatus
  rw [h]

-- The row after a call for it.
def told (row : MessageRecord) : Option Update → MessageRecord
  | none => row
  | some u => patchRecord row u

theorem row?_apply (hvalid : isValidReticulumOutboundMessageHash js hash = true)
    (hc : normalizeReticulumMessageHash js c.messageHash = hash) (h : s.row? identityId hash = some row) :
    (s.applyReticulumOutboundDeliveryStatus js identityId c).row? identityId hash = some (told row (c.update? js)) := by
  unfold applyReticulumOutboundDeliveryStatus
  dsimp only
  rw [hc, if_pos hvalid]
  cases hu : c.update? js with
  | none => exact h
  | some u =>
      dsimp only
      rw [persist_of_some h]
      exact row?_insertRow

theorem replay_append {us vs : List Update} : replay row (us ++ vs) = replay (replay row vs) us := List.foldr_append

theorem replay_updates_cons : replay row (updates js (c :: calls)).reverse =
    replay (told row (c.update? js)) (updates js calls).reverse := by
  unfold updates
  rw [List.filterMap_cons]
  cases hu : c.update? js with
  | none => rfl
  | some u =>
      dsimp only
      rw [List.reverse_cons, replay_append]
      rfl

-- Calls for a row that exists.
theorem row?_run (hvalid : isValidReticulumOutboundMessageHash js hash = true)
    (hcalls : ∀ c ∈ calls, normalizeReticulumMessageHash js c.messageHash = hash) (h : s.row? identityId hash = some row) :
    (run (applyReticulumOutboundDeliveryStatus js identityId) s calls).row? identityId hash =
      some (replay row (updates js calls).reverse) := by
  induction calls generalizing s row with
  | nil => exact h
  | cons c rest ih =>
      rw [run_cons, replay_updates_cons]
      exact ih (fun c' hc' => hcalls c' (List.mem_cons_of_mem _ hc')) (row?_apply hvalid (hcalls c List.mem_cons_self) h)

-- What the buffer holds for the hash.
def pending? (js : Runtime) (identityId hash : String) (s : Store) : Option (Option Update) :=
  (s.pendingDeliveryByKey.get? (pendingDeliveryKey identityId hash)).map (Pending.update? js)

theorem apply_absent (hvalid : isValidReticulumOutboundMessageHash js hash = true)
    (hc : normalizeReticulumMessageHash js c.messageHash = hash) (h : s.row? identityId hash = none) :
    (s.applyReticulumOutboundDeliveryStatus js identityId c).row? identityId hash = none ∧
      pending? js identityId hash (s.applyReticulumOutboundDeliveryStatus js identityId c) =
        if (c.update? js).any Update.isBuffered then some (c.update? js) else pending? js identityId hash s := by
  unfold applyReticulumOutboundDeliveryStatus
  dsimp only
  rw [hc, if_pos hvalid]
  cases hu : c.update? js with
  | none => exact ⟨h, rfl⟩
  | some u =>
      dsimp only
      rw [persist_of_none h]
      dsimp only
      rw [if_neg Bool.false_ne_true, Option.any_some]
      by_cases hbuffered : u.isBuffered = true
      · rw [if_pos hbuffered, if_pos hbuffered]
        refine ⟨h, ?_⟩
        unfold pending? bufferPendingDeliveryStatus
        dsimp only
        rw [OrderedMap.get?_set_self, Option.map_some, ← hu]
        rfl
      · rw [if_neg hbuffered, if_neg hbuffered]
        exact ⟨h, rfl⟩

-- Calls for a row that does not exist yet: the buffer keeps the last of them that says something.
theorem pending?_run (hvalid : isValidReticulumOutboundMessageHash js hash = true)
    (hcalls : ∀ c ∈ calls, normalizeReticulumMessageHash js c.messageHash = hash) (h : s.row? identityId hash = none) :
    (run (applyReticulumOutboundDeliveryStatus js identityId) s calls).row? identityId hash = none ∧
      pending? js identityId hash (run (applyReticulumOutboundDeliveryStatus js identityId) s calls) =
        (((updates js calls).reverse.find? Update.isBuffered).map some).or (pending? js identityId hash s) := by
  induction calls using List.reverseRecOn with
  | nil => exact ⟨h, rfl⟩
  | append_singleton calls c ih =>
      obtain ⟨hrow, hpending⟩ := ih fun c' hc' => hcalls c' (List.mem_append_left _ hc')
      obtain ⟨hrow', hpending'⟩ := apply_absent hvalid (hcalls c (by simp)) hrow
      rw [run_concat]
      refine ⟨hrow', ?_⟩
      rw [hpending', hpending]
      unfold updates
      rw [List.filterMap_append, List.reverse_append]
      cases hu : c.update? js with
      | none => simp [hu]
      | some u =>
          by_cases hbuffered : u.isBuffered = true
          · simp [hu, hbuffered]
          · simp [hu, hbuffered]

theorem row?_flush {early : List Update} (h : s.row? identityId hash = some row)
    (hpending : pending? js identityId hash s = (early.find? Update.isBuffered).map some) :
    (s.flushPendingReticulumOutboundDeliveryStatus js identityId hash).1.row? identityId hash = some (replay row (kept early)) := by
  unfold flushPendingReticulumOutboundDeliveryStatus kept
  unfold pending? at hpending
  cases hget : s.pendingDeliveryByKey.get? (pendingDeliveryKey identityId hash) with
  | none =>
      rw [hget, Option.map_none] at hpending
      rw [Option.map_eq_none_iff.mp hpending.symm]
      exact h
  | some pending =>
      rw [hget, Option.map_some] at hpending
      obtain ⟨u, hfind, hu⟩ := Option.map_eq_some_iff.mp hpending.symm
      rw [hfind]
      dsimp only
      rw [← hu]
      dsimp only
      rw [persist_of_some h]
      exact row?_insertRow

theorem told_acked (h : row.status = some .acked) (u : Option Update) : (told row u).status ≠ some .sending := by
  cases u with
  | none => simp [told, h]
  | some u =>
      rw [told, (patchRecord_spec h).1]
      by_cases hterminal : u.isTerminal = true
      · rw [if_pos hterminal]
        simpa using isTerminal_iff.mp hterminal
      · rw [if_neg hterminal]
        simp

theorem neverBack_statuses (hvalid : isValidReticulumOutboundMessageHash js hash = true)
    (hcalls : ∀ c ∈ calls, normalizeReticulumMessageHash js c.messageHash = hash) (h : s.row? identityId hash = some row) :
    NeverBack (s.statuses js identityId hash calls) ∧ (s.statuses js identityId hash calls).head? = some row.status := by
  have hstatus : ∀ {s : Store} {row : MessageRecord}, s.row? identityId hash = some row → s.status? identityId hash = row.status :=
    fun hrow => by rw [status?, hrow]; rfl
  induction calls generalizing s row with
  | nil => exact ⟨List.isChain_singleton _, by rw [statuses, hstatus h]; rfl⟩
  | cons c rest ih =>
      have hnext := row?_apply hvalid (hcalls c List.mem_cons_self) h
      obtain ⟨hrest, hhead⟩ := ih (fun c' hc' => hcalls c' (List.mem_cons_of_mem _ hc')) hnext
      rw [statuses, hstatus h]
      refine ⟨?_, rfl⟩
      unfold NeverBack at hrest ⊢
      rw [List.isChain_cons]
      refine ⟨?_, hrest⟩
      intro after hafter hacked
      obtain rfl := Option.some.inj (hhead.symm.trans hafter)
      exact told_acked hacked _

theorem early_as_late_iff {early late : List Call} (hrow : s.row? identityId hash = none)
    (hpending : s.pendingDeliveryByKey.get? (pendingDeliveryKey identityId hash) = none) (hsending : row.status = some .sending)
    (hvalid : isValidReticulumOutboundMessageHash js hash = true)
    (hcalls : ∀ c ∈ early ++ late, normalizeReticulumMessageHash js c.messageHash = hash) :
    EarlyAsLate js identityId hash s row early late ↔
      NothingLost row ((updates js late).reverse ++ kept (updates js early).reverse)
        ((updates js late).reverse ++ (updates js early).reverse) := by
  have hearly : ∀ c ∈ early, normalizeReticulumMessageHash js c.messageHash = hash :=
    fun c hc => hcalls c (List.mem_append_left _ hc)
  have hlate : ∀ c ∈ late, normalizeReticulumMessageHash js c.messageHash = hash :=
    fun c hc => hcalls c (List.mem_append_right _ hc)
  obtain ⟨-, hbuffer⟩ := pending?_run hvalid hearly hrow
  have hempty : pending? js identityId hash s = none := by
    unfold pending?
    rw [hpending]
    rfl
  rw [hempty, Option.or_none] at hbuffer
  have hcreated : ((run (applyReticulumOutboundDeliveryStatus js identityId) s early).insertRow identityId hash row).row?
      identityId hash = some row := row?_insertRow
  have hflushed := row?_flush hcreated hbuffer
  have hinserted : (s.insertRow identityId hash row).row? identityId hash = some row := row?_insertRow
  have hdirect := row?_run hvalid hcalls hinserted
  have hbuffered := row?_run hvalid hlate hflushed
  have hupdates : (updates js (early ++ late)).reverse = (updates js late).reverse ++ (updates js early).reverse := by
    unfold updates
    rw [List.filterMap_append, List.reverse_append]
  have hsame : (outcome (replay row ((updates js late).reverse ++ kept (updates js early).reverse)) =
      outcome (replay row ((updates js late).reverse ++ (updates js early).reverse))) ↔
      ((run (applyReticulumOutboundDeliveryStatus js identityId)
        (((run (applyReticulumOutboundDeliveryStatus js identityId) s early).insertRow identityId hash
          row).flushPendingReticulumOutboundDeliveryStatus js identityId hash).1 late).row? identityId hash).map outcome =
      ((run (applyReticulumOutboundDeliveryStatus js identityId) (s.insertRow identityId hash row) (early ++ late)).row?
        identityId hash).map outcome := by
    rw [hdirect, hbuffered, hupdates, Option.map_some, Option.map_some, Option.some.injEq, replay_append]
  rw [← outcome_told_iff hsending, hsame]
  constructor
  · exact EarlyAsLate.same
  · intro h
    obtain ⟨hback, hhead⟩ := neverBack_statuses hvalid hlate hflushed
    refine ⟨h, (neverBack_statuses hvalid hcalls hinserted).1, ?_⟩
    dsimp only
    unfold NeverBack at hback ⊢
    rw [List.isChain_cons]
    refine ⟨?_, hback⟩
    intro after _ hacked
    rw [status?, hcreated] at hacked
    exact absurd (hsending.symm.trans hacked) (by simp)

-- A row as the composer leaves it, and the calls of its sidecar.
def sentRow : MessageRecord := { status := some .sending, receivedVia := some "rf", reticulumDeliveryMethod := some .direct }

def sampleHash : String := "abc123def4567890"

theorem early_failure_is_revived : EarlyAsLate asciiRuntime "me" sampleHash {} sentRow
    [⟨"ABC123DEF4567890", "failed", none, none, none, none, 0⟩,
      ⟨sampleHash, "sending", some "rf+tcp", some "propagated", none, none, 5⟩]
    [⟨sampleHash, "delivered", none, none, some (some 2), none, 70000⟩] := by
  refine (early_as_late_iff rfl rfl rfl (by decide) (by decide)).mpr ?_
  exact ⟨.inl (by decide), .inl (by decide), .inl (by decide), .inl (by decide)⟩

-- The attempts that the sidecar counts after a delivery take its place in the buffer.
theorem early_delivery_is_lost : ¬ EarlyAsLate asciiRuntime "me" sampleHash {} sentRow
    [⟨sampleHash, "delivered", none, none, none, none, 0⟩, ⟨sampleHash, "sending", none, none, some (some 2), none, 5⟩] [] := by
  intro h
  exact absurd h.same (by decide)

end MeshClient.Reticulum.Outbound
