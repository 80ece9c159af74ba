import MeshClient.Incident.Steps

namespace MeshClient.Incident

open Lists Mecp Js

variable (js : Runtime)

def rowPayloadKey (inc : EmergencyIncident) : Option String :=
  payloadTombstoneKeyIfDistinct js inc.severity inc.codes inc.freetext

-- The keys that closing a row tombstones and that reopening it withdraws.
def BuriedUnder (inc : EmergencyIncident) (key : String) : Prop :=
  key = inc.id ∨ rowPayloadKey js inc = some key

-- The operation brings a resolved row back.
def Reopens (s : IncidentSnapshot) (op : TimedOp) (inc : EmergencyIncident) : Prop :=
  s.incidents.get? inc.id = some inc ∧ inc.status = .resolved ∧
    ∃ row ∈ (step js s op).incidents.get? inc.id, row.status ≠ .resolved

-- The row a report opens when none matches it.
def openedRow (clock : Int) (input : MecpIncidentInput) (severity : Severity) :
    EmergencyIncident :=
  let freetext := input.parsed.freetext.getD ""
  createIncident js input severity freetext
    (incidentFingerprint js severity input.parsed.codes freetext input.senderId)
    (input.receivedAt.getD clock)

-- The operation resolves the row, or drops it to make room for the row it opens.
inductive Closes (s : IncidentSnapshot) (op : TimedOp) (inc : EmergencyIncident) : Prop
  | resolved (id : String) (time : Option Int) (hop : op.2 = .resolveIncident id time)
      (hget : s.incidents.get? id = some inc) (hopen : inc.status ≠ .resolved)
  | evicted (input : MecpIncidentInput) (severity : Severity) (hop : op.2 = .upsertFromMecp input)
      (hstep : step js s op = pruneIncidents js (s.incidents.set (openedRow js op.1 input severity).id
        (openedRow js op.1 input severity)) s.resolvedTombstones)
      (hget : (s.incidents.set (openedRow js op.1 input severity).id
        (openedRow js op.1 input severity)).get? inc.id = some inc)
      (hgone : (step js s op).incidents.get? inc.id = none)

theorem mem_keys_bury {id : String} {inc : EmergencyIncident} (hid : inc.id = id) (time : Int)
    (tombs : Tombstones) (key : String) :
    key ∈ (bury js id inc time tombs).keys ↔ BuriedUnder js inc key ∨ key ∈ tombs.keys := by
  subst hid
  simp only [bury, BuriedUnder, rowPayloadKey]
  split
  · rename_i payload hp
    simp only [OrderedMap.mem_keys_set, hp, Option.some.injEq, eq_comm (a := payload)]
    tauto
  · rename_i hp
    simp [hp]

theorem mem_keys_buryAll (evicted : List EmergencyIncident) (tombs : Tombstones) (key : String) :
    key ∈ (buryAll js evicted tombs).keys ↔
      (∃ inc ∈ evicted, BuriedUnder js inc key) ∨ key ∈ tombs.keys := by
  induction evicted generalizing tombs with
  | nil => simp [buryAll]
  | cons inc rest ih =>
      have hrest := ih (bury js inc.id inc (closedAt inc) tombs)
      simp only [buryAll, List.foldl_cons] at hrest ⊢
      rw [hrest, mem_keys_bury js rfl]
      simp only [List.mem_cons, exists_eq_or_imp]
      rw [or_left_comm, or_assoc]

theorem mem_keys_withdrawTombstones (inc : EmergencyIncident) (tombs : Tombstones) (key : String) :
    key ∈ (withdrawTombstones js inc tombs).keys ↔ key ∈ tombs.keys ∧ ¬BuriedUnder js inc key := by
  simp only [withdrawTombstones, OrderedMap.mem_keys_filter, BuriedUnder, rowPayloadKey, not_or,
    Bool.and_eq_true, decide_eq_true_eq, ne_eq, eq_comm (a := some key)]

theorem isTombstoned_iff (tombs : Tombstones) (id : String) (payloadKey : Option String) :
    isTombstoned tombs id payloadKey = true ↔
      id ∈ tombs.keys ∨ ∃ key, payloadKey = some key ∧ key ∈ tombs.keys := by
  cases payloadKey <;>
    simp [isTombstoned, OrderedMap.mem_keys_iff, Option.isSome_iff_exists]

variable {js}

theorem pruneIncidents_keeps_tombstone {rows : Incidents} {tombs : Tombstones} {key : String}
    (hcap : (pruneIncidents js rows tombs).resolvedTombstones.size < MAX_RESOLVED_TOMBSTONES)
    (hkey : key ∈ tombs.keys) : key ∈ (pruneIncidents js rows tombs).resolvedTombstones.keys := by
  unfold pruneIncidents at hcap ⊢
  split_ifs at hcap ⊢
  · exact hkey
  · rw [pruneTombstones_of_size_lt hcap]
    exact (mem_keys_buryAll js _ _ _).mpr (.inr hkey)

-- Below the cap only a reopen takes a tombstone away, and only those of the reopened row.
theorem step_keeps_tombstone {s : IncidentSnapshot} (hid : OwnIds s.incidents) {op : TimedOp}
    {key : String} (hcap : (step js s op).resolvedTombstones.size < MAX_RESOLVED_TOMBSTONES)
    (hkept : ∀ inc, Reopens js s op inc → ¬BuriedUnder js inc key)
    (hkey : key ∈ s.resolvedTombstones.keys) : key ∈ (step js s op).resolvedTombstones.keys := by
  have htomb : StoreStep js s (step js s op) := step_storeStep hid op
  cases htomb with
  | kept hkeys htombs => rwa [htombs]
  | buried id inc time hget hkeys htombs =>
      rw [htombs] at hcap ⊢
      rw [pruneTombstones_of_size_lt hcap, mem_keys_bury js (hid id inc hget)]
      exact .inr hkey
  | pruned rows hrows hstep =>
      rw [hstep] at hcap ⊢
      exact pruneIncidents_keeps_tombstone hcap hkey
  | reopened inc row hget hclosed hnext hopen hkeys htombs =>
      rw [htombs, mem_keys_withdrawTombstones]
      refine ⟨hkey, hkept inc ⟨hget, hclosed, row, hnext, ?_⟩⟩
      simp [hopen]

-- No operation of the run brings back a row that is buried under this key.
def NotReopened (js : Runtime) (key : String) (s : IncidentSnapshot) (ops : List TimedOp) : Prop :=
  ∀ before op after, ops = before ++ op :: after →
    ∀ inc, Reopens js (run js s before) op inc → ¬BuriedUnder js inc key

def FewTombstones (s : IncidentSnapshot) : Prop :=
  s.resolvedTombstones.size < MAX_RESOLVED_TOMBSTONES

instance : DecidablePred FewTombstones := fun s =>
  inferInstanceAs (Decidable (s.resolvedTombstones.size < MAX_RESOLVED_TOMBSTONES))

theorem run_keeps_tombstone {s : IncidentSnapshot} (hid : OwnIds s.incidents) {key : String}
    {ops : List TimedOp} (hcap : Run.Visits (step js) FewTombstones s ops)
    (hkept : NotReopened js key s ops) (hkey : key ∈ s.resolvedTombstones.keys) :
    key ∈ (run js s ops).resolvedTombstones.keys := by
  induction ops generalizing s with
  | nil => exact hkey
  | cons op rest ih =>
      refine ih (step_ownIds hid op) hcap.2 (fun before next after hsplit => ?_) ?_
      · exact hkept (op :: before) next after (by rw [hsplit, List.cons_append])
      · exact step_keeps_tombstone hid hcap.2.start (hkept [] op rest rfl) hkey

theorem Closes.buried {s : IncidentSnapshot} (hid : OwnIds s.incidents) {op : TimedOp}
    {inc : EmergencyIncident} (h : Closes js s op inc) (hcap : FewTombstones (step js s op))
    {key : String} (hkey : BuriedUnder js inc key) :
    key ∈ (step js s op).resolvedTombstones.keys := by
  unfold FewTombstones at hcap
  cases h with
  | resolved id time hop hget hopen =>
      have hstep : (step js s op).resolvedTombstones =
          pruneTombstones (bury js id inc (time.getD op.1) s.resolvedTombstones) := by
        simp only [step, hop, StoreOp.update, resolveIncident, hget, if_neg hopen, Option.getD_some]
      rw [hstep] at hcap ⊢
      rw [pruneTombstones_of_size_lt hcap, mem_keys_bury js (hid id inc hget)]
      exact .inl hkey
  | evicted input severity hop hstep hget hgone =>
      rw [hstep] at hcap hgone ⊢
      have hrows := hid.set (show (openedRow js op.1 input severity).id = _ from rfl)
      obtain ⟨hover, hevicted, _⟩ := pruneIncidents_dropped js hrows s.resolvedTombstones hget
        (fun hstays => by simp [hgone] at hstays)
      rw [pruneIncidents_of_gt js _ hover] at hcap ⊢
      rw [pruneTombstones_of_size_lt hcap]
      exact (mem_keys_buryAll js _ _ _).mpr (.inl ⟨inc, hevicted, hkey⟩)

theorem payloadKey_ne_fingerprint (severity severity' : Severity) (codes codes' : List String)
    (freetext freetext' senderId : String) :
    payloadTombstoneKeyIfDistinct js severity codes freetext ≠
      some (incidentFingerprint js severity' codes' freetext' senderId) := by
  unfold payloadTombstoneKeyIfDistinct
  split_ifs
  · simp
  · intro h
    -- the two kinds of key differ in their first letter
    have hchars := congrArg (fun s => s.toList.head?) (Option.some.inj h)
    simp [payloadTombstoneKey, incidentFingerprint] at hchars

-- Every row is stored under the fingerprint of a report.
def FingerprintIds (js : Runtime) (s : IncidentSnapshot) : Prop :=
  ∀ k inc, s.incidents.get? k = some inc →
    ∃ severity codes freetext senderId, k = incidentFingerprint js severity codes freetext senderId

theorem Reachable.fingerprintIds {s : IncidentSnapshot} (h : Reachable js s) :
    FingerprintIds js s := by
  suffices hinv : OwnIds s.incidents ∧ FingerprintIds js s from hinv.2
  apply Run.Reachable.invariant (P := fun s => OwnIds s.incidents ∧ FingerprintIds js s) h
  · exact ⟨OwnIds.empty, fun k inc hget => by simp [IncidentSnapshot.empty] at hget⟩
  · rintro s op ⟨hid, hprints⟩
    refine ⟨step_ownIds hid op, fun k inc' hget => ?_⟩
    rcases step_rowsFollow hid op k inc' hget with
      ⟨inc, hold, _⟩ | ⟨_, input, severity, freetext, now, hk, _⟩
    · exact hprints k inc hold
    · exact ⟨severity, _, freetext, _, hk⟩

theorem Closes.fingerprint {s : IncidentSnapshot} (h : Reachable js s) {op : TimedOp}
    {inc : EmergencyIncident} (hclose : Closes js s op inc) :
    ∃ severity codes freetext senderId,
      inc.id = incidentFingerprint js severity codes freetext senderId := by
  cases hclose with
  | resolved id time hop hget hopen =>
      rw [h.ownIds id inc hget]
      exact h.fingerprintIds id inc hget
  | evicted input severity hop hstep hget hgone =>
      rw [OrderedMap.get?_set] at hget
      split at hget
      · rename_i hk
        exact ⟨severity, _, _, _, hk⟩
      · exact h.fingerprintIds inc.id inc hget

-- The message is a report, so neither a beacon cancel nor an acknowledgement.
structure IsReport (input : MecpIncidentInput) (severity : Severity) : Prop where
  severity_eq : input.parsed.severity = some severity
  not_cancel : isBeaconCancel input.parsed.codes = false
  not_ack : isBeaconAck input.parsed.codes = false ∧ isGeneralAck input.parsed.codes = false

theorem upsertFromMecp_report {clock : Int} {input : MecpIncidentInput} {severity : Severity}
    (h : IsReport input severity) (s : IncidentSnapshot) :
    upsertFromMecp js clock input s =
      ingestReport js clock input severity (input.receivedAt.getD clock) s := by
  simp only [upsertFromMecp, h.severity_eq, h.not_cancel, h.not_ack.1, h.not_ack.2, Bool.or_self,
    Bool.false_eq_true, if_false]

-- Nothing is created, reopened or returned.
def Refused (js : Runtime) (clock : Int) (input : MecpIncidentInput) (s : IncidentSnapshot) : Prop :=
  upsertFromMecp js clock input s = (none, none)

instance (js : Runtime) (clock : Int) (input : MecpIncidentInput) (s : IncidentSnapshot) :
    Decidable (Refused js clock input s) := inferInstanceAs (Decidable (_ = _))

-- What makes the store leave a seeded report alone, whatever its history.
def SeedCovered (js : Runtime) (clock : Int) (input : MecpIncidentInput) (severity : Severity)
    (s : IncidentSnapshot) : Prop :=
  let freetext := input.parsed.freetext.getD ""
  let now := input.receivedAt.getD clock
  let query := queryOf js input severity freetext now
  isTombstoned s.resolvedTombstones query.id
      (payloadTombstoneKeyIfDistinct js severity input.parsed.codes freetext) = true ∨
    isTooOldToSeed clock now = true ∨
    ∃ existing, findExistingIncident js s.incidents query = some existing ∧
      isClosedToSeed js s.resolvedTombstones existing = true

theorem refused_iff_covered {clock : Int} {input : MecpIncidentInput} {severity : Severity}
    (hreport : IsReport input severity) (hseed : input.fromSeed = true) (s : IncidentSnapshot) :
    Refused js clock input s ↔ SeedCovered js clock input severity s := by
  simp only [Refused, upsertFromMecp_report hreport, ingestReport, SeedCovered, hseed,
    Bool.true_and]
  generalize isTombstoned s.resolvedTombstones _ _ = tombstoned
  generalize isTooOldToSeed clock _ = tooOld
  cases tombstoned with
  | true => simp
  | false =>
      cases tooOld with
      | true => simp
      | false =>
          cases findExistingIncident js s.incidents _ with
          | none => simp
          | some existing =>
              cases hclosed : isClosedToSeed js s.resolvedTombstones existing with
              | true => simp [hclosed]
              | false =>
                  have hs : existing.status ≠ .resolved := fun hs => by
                    simp [isClosedToSeed, hs] at hclosed
                  simp [hclosed, hs]

-- The report is one that the row stands for, at whatever severity it was heard.
structure SameReport (js : Runtime) (input : MecpIncidentInput) (inc : EmergencyIncident) : Prop where
  sender_eq : input.senderId = inc.senderId
  codes_iff : ∀ c, c ∈ input.parsed.codes ↔ c ∈ inc.codes
  freetext_eq : normalizeMecpFreetextForMatch js (input.parsed.freetext.getD "") =
    normalizeMecpFreetextForMatch js inc.freetext

theorem SameReport.payloadKey_eq {input : MecpIncidentInput} {inc : EmergencyIncident}
    (h : SameReport js input inc) :
    payloadTombstoneKeyIfDistinct js inc.severity input.parsed.codes
      (input.parsed.freetext.getD "") = rowPayloadKey js inc := by
  simp only [rowPayloadKey, payloadTombstoneKeyIfDistinct, payloadTombstoneKey, h.freetext_eq,
    incidentPayloadMatchKey_congr js inc.severity h.codes_iff h.freetext_eq]

theorem clearAll_reopens_none (js : Runtime) (clock : Int) (s : IncidentSnapshot)
    (inc : EmergencyIncident) : ¬Reopens js s (clock, .clearAll) inc := by
  rintro ⟨_, _, row, hrow, _⟩
  simp [step, StoreOp.update, clearAll] at hrow

end MeshClient.Incident
