import MeshClient.Incident.Tombstones

namespace MeshClient.Incident

open Lists Mecp Js

variable (js : Runtime)

-- A message and what `Date.now()` read when the store took it in.
structure BeaconMessage where
  clock : Int
  input : MecpIncidentInput
deriving DecidableEq

namespace BeaconMessage

def time (m : BeaconMessage) : Int := m.input.receivedAt.getD m.clock

def isCancel (m : BeaconMessage) : Bool := isBeaconCancel m.input.parsed.codes

def op (m : BeaconMessage) : TimedOp := (m.clock, .upsertFromMecp m.input)

end BeaconMessage

-- One station's beacon, heard at some of these severities.
structure Distress where
  senderId : String
  codes : List String
  freetext : String
  severities : List Severity

namespace Distress

def fingerprint (d : Distress) (severity : Severity) : String :=
  incidentFingerprint js severity d.codes d.freetext d.senderId

def payloadKey (d : Distress) (severity : Severity) : Option String :=
  payloadTombstoneKeyIfDistinct js severity d.codes d.freetext

-- The row is one this beacon's reports are merged into for their sender and text.
def matchesRow (d : Distress) (inc : EmergencyIncident) : Bool :=
  matchesSameSender js ⟨"", d.senderId, .meshtastic, 0, d.codes, d.freetext, 0⟩ inc

end Distress

-- A B01 report of this beacon; its codes may come in another order.
structure IsBeaconReport (d : Distress) (m : BeaconMessage) (severity : Severity) : Prop where
  report : IsReport m.input severity
  sender_eq : m.input.senderId = d.senderId
  codes_perm : m.input.parsed.codes.Perm d.codes
  freetext_eq : m.input.parsed.freetext.getD "" = d.freetext
  severity_mem : severity ∈ d.severities
  beacon : isBeacon d.codes = true

-- A B03 cancel of the station that raised this beacon.
structure IsCancelOf (d : Distress) (m : BeaconMessage) : Prop where
  cancel : m.isCancel = true
  sender_eq : m.input.senderId = d.senderId
  severity_isSome : m.input.parsed.severity.isSome = true

-- The store has one unresolved row for this beacon, and nothing else that its reports could
-- be merged into or refused for.
structure Listening (d : Distress) (k : String) (s : IncidentSnapshot) (inc : EmergencyIncident) :
    Prop where
  get : s.incidents.get? k = some inc
  ownIds : OwnIds s.incidents
  sender_eq : inc.senderId = d.senderId
  codes_perm : inc.codes.Perm d.codes
  freetext_eq : inc.freetext = d.freetext
  severity_mem : inc.severity ∈ d.severities
  unresolved : inc.status ≠ .resolved
  key : ∃ severity ∈ d.severities, k = d.fingerprint js severity
  notBuried : ∀ severity ∈ d.severities,
    isTombstoned s.resolvedTombstones (d.fingerprint js severity) (d.payloadKey js severity) = false
  others : ∀ k' row, s.incidents.get? k' = some row → k' ≠ k →
    d.matchesRow js row = false ∧ ∀ severity ∈ d.severities, k' ≠ d.fingerprint js severity

variable {js}

theorem sameCodeSet_perm {a b c : List String} (h : b.Perm c) : sameCodeSet a b = sameCodeSet a c := by
  simp only [sameCodeSet, h.length_eq, h.all_eq]

theorem IsBeaconReport.query_id {d : Distress} {m : BeaconMessage} {severity : Severity}
    (h : IsBeaconReport d m severity) :
    incidentFingerprint js severity m.input.parsed.codes (m.input.parsed.freetext.getD "")
      m.input.senderId = d.fingerprint js severity := by
  rw [h.freetext_eq, h.sender_eq]
  exact incidentFingerprint_congr js severity d.senderId (fun c => h.codes_perm.mem_iff) rfl

theorem IsBeaconReport.payloadKey {d : Distress} {m : BeaconMessage} {severity : Severity}
    (h : IsBeaconReport d m severity) :
    payloadTombstoneKeyIfDistinct js severity m.input.parsed.codes
      (m.input.parsed.freetext.getD "") = d.payloadKey js severity := by
  simp only [Distress.payloadKey, payloadTombstoneKeyIfDistinct, payloadTombstoneKey, h.freetext_eq,
    incidentPayloadMatchKey_congr js severity (fun c => h.codes_perm.mem_iff) rfl]

theorem IsBeaconReport.matchesSameSender_eq {d : Distress} {m : BeaconMessage} {severity : Severity}
    (h : IsBeaconReport d m severity) (now : Int) :
    matchesSameSender js (queryOf js m.input severity (m.input.parsed.freetext.getD "") now) =
      d.matchesRow js := by
  funext inc
  simp only [matchesSameSender, queryOf, Distress.matchesRow, sameCodeSet_perm h.codes_perm,
    h.sender_eq, h.freetext_eq]

theorem IsBeaconReport.isBeacon {d : Distress} {m : BeaconMessage} {severity : Severity}
    (h : IsBeaconReport d m severity) : isBeacon m.input.parsed.codes = true := by
  have hc := h.beacon
  simp only [Mecp.isBeacon, List.contains_iff_mem] at hc ⊢
  exact h.codes_perm.mem_iff.mpr hc

theorem IsBeaconReport.not_cancel {d : Distress} {m : BeaconMessage} {severity : Severity}
    (h : IsBeaconReport d m severity) : m.isCancel = false := h.report.not_cancel

theorem Listening.matchesRow {d : Distress} {k : String} {s : IncidentSnapshot}
    {inc : EmergencyIncident} (h : Listening js d k s inc) : d.matchesRow js inc = true := by
  have hcodes : sameCodeSet inc.codes d.codes = true := by
    simp only [sameCodeSet, h.codes_perm.length_eq, decide_true, Bool.true_and, List.all_eq_true,
      List.contains_iff_mem]
    exact fun c hc => h.codes_perm.mem_iff.mpr hc
  simp only [Distress.matchesRow, matchesSameSender, hcodes, h.sender_eq, h.freetext_eq, decide_true,
    Bool.and_true, isUnresolved_iff]
  exact h.unresolved

-- Every report of the beacon is matched with its row.
theorem Listening.findExisting {d : Distress} {k : String} {s : IncidentSnapshot}
    {inc : EmergencyIncident} (h : Listening js d k s inc) {m : BeaconMessage} {severity : Severity}
    (hm : IsBeaconReport d m severity) (now : Int) :
    findExistingIncident js s.incidents
      (queryOf js m.input severity (m.input.parsed.freetext.getD "") now) = some inc := by
  have honly : ∀ k' row, s.incidents.get? k' = some row →
      (d.matchesRow js row = true ∨ k' = d.fingerprint js severity) → row = inc := by
    intro k' row hrow hmatch
    by_cases hk : k' = k
    · subst hk
      exact Option.some.inj (hrow.symm.trans h.get)
    · obtain ⟨hno, hids⟩ := h.others k' row hrow hk
      rcases hmatch with hmatch | hid
      · simp [hno] at hmatch
      · exact absurd hid (hids severity hm.severity_mem)
  unfold findExistingIncident
  rw [hm.matchesSameSender_eq now]
  split
  · rename_i row hrow
    exact congrArg some (honly _ row hrow (.inr hm.query_id))
  · have hmem : inc ∈ s.incidents.values := (s.incidents.mem_values_iff inc).mpr ⟨k, h.get⟩
    cases hf : s.incidents.values.find? (d.matchesRow js) with
    | none => exact absurd h.matchesRow (List.find?_eq_none.mp hf inc hmem)
    | some row =>
        obtain ⟨k', hrow⟩ := (s.incidents.mem_values_iff row).mp (List.mem_of_find?_eq_some hf)
        simp only [honly k' row hrow (.inl (List.find?_some hf))]

theorem Listening.notClosedToSeed {d : Distress} {k : String} {s : IncidentSnapshot}
    {inc : EmergencyIncident} (h : Listening js d k s inc) :
    isClosedToSeed js s.resolvedTombstones inc = false := by
  have hclear : ∀ severity ∈ d.severities, d.fingerprint js severity ∉ s.resolvedTombstones.keys ∧
      ∀ key, d.payloadKey js severity = some key → key ∉ s.resolvedTombstones.keys := by
    intro severity hs
    have hb := h.notBuried severity hs
    rw [← Bool.not_eq_true, isTombstoned_iff, not_or] at hb
    exact ⟨hb.1, fun key hkey hmem => hb.2 ⟨key, hkey, hmem⟩⟩
  have hpayload : payloadTombstoneKeyIfDistinct js inc.severity inc.codes inc.freetext =
      d.payloadKey js inc.severity := by
    simp only [Distress.payloadKey, payloadTombstoneKeyIfDistinct, payloadTombstoneKey,
      h.freetext_eq,
      incidentPayloadMatchKey_congr js inc.severity (fun c => h.codes_perm.mem_iff) rfl]
  have htomb : isTombstoned s.resolvedTombstones inc.id (d.payloadKey js inc.severity) = false := by
    rw [← Bool.not_eq_true, isTombstoned_iff, h.ownIds k inc h.get]
    rintro (hid | ⟨key, hkey, hmem⟩)
    · obtain ⟨severity, hs, rfl⟩ := h.key
      exact (hclear severity hs).1 hid
    · exact (hclear _ h.severity_mem).2 key hkey hmem
  simp only [isClosedToSeed, hpayload, htomb, Bool.false_or, decide_eq_false_iff_not]
  exact h.unresolved

-- What the report leaves in the beacon's row.
theorem Listening.step_report {d : Distress} {k : String} {s : IncidentSnapshot}
    {inc : EmergencyIncident} (h : Listening js d k s inc) {m : BeaconMessage} {severity : Severity}
    (hm : IsBeaconReport d m severity)
    (hold : m.input.fromSeed = true → isTooOldToSeed m.clock m.time = false) :
    Listening js d k (step js s m.op)
      (mergeIncident js m.input severity (m.input.parsed.freetext.getD "") m.time inc) := by
  have hrefuse : ¬(m.input.fromSeed && (isTombstoned s.resolvedTombstones
      (queryOf js m.input severity (m.input.parsed.freetext.getD "") m.time).id
      (payloadTombstoneKeyIfDistinct js severity m.input.parsed.codes
        (m.input.parsed.freetext.getD "")) || isTooOldToSeed m.clock m.time)) = true := by
    rw [Bool.and_eq_true, not_and]
    intro hseed
    simp [queryOf, hm.query_id, hm.payloadKey, h.notBuried severity hm.severity_mem, hold hseed]
  have hreopen : reopens inc m.time = false := by simp [reopens, h.unresolved]
  have hid := h.ownIds k inc h.get
  have hstep : step js s m.op = ⟨s.incidents.set k
      (mergeIncident js m.input severity (m.input.parsed.freetext.getD "") m.time inc),
      s.resolvedTombstones⟩ := by
    have hupsert : upsertFromMecp js m.clock m.input s =
        ingestReport js m.clock m.input severity m.time s := upsertFromMecp_report hm.report s
    simp only [step, BeaconMessage.op, StoreOp.update, hupsert, ingestReport]
    rw [if_neg hrefuse, h.findExisting hm]
    simp [h.notClosedToSeed, h.unresolved, hreopen, hid]
  rw [hstep]
  exact {
    get := OrderedMap.get?_set_self ..
    ownIds := h.ownIds.set hid
    sender_eq := h.sender_eq
    codes_perm := h.codes_perm
    freetext_eq := by
      simp only [mergeIncident, hm.freetext_eq, h.freetext_eq]
      split_ifs <;> rfl
    severity_mem := by
      rcases min_choice inc.severity severity with hmin | hmin
      · simpa only [mergeIncident, hmin] using h.severity_mem
      · simpa only [mergeIncident, hmin] using hm.severity_mem
    unresolved := by
      simpa only [mergeIncident, hreopen, Bool.false_eq_true, if_false] using h.unresolved
    key := h.key
    notBuried := h.notBuried
    others := by
      intro k' row hrow hne
      rw [OrderedMap.get?_set_of_ne _ _ hne] at hrow
      exact h.others k' row hrow hne }

theorem Listening.step_cancel {d : Distress} {k : String} {s : IncidentSnapshot}
    {inc : EmergencyIncident} (h : Listening js d k s inc) {m : BeaconMessage}
    (hm : IsCancelOf d m) :
    Listening js d k (step js s m.op)
      (if cancelsBeaconOf m.input m.time inc then cancelBeaconRow m.input m.time inc else inc) := by
  have hrows : ∀ k', (step js s m.op).incidents.get? k' = (s.incidents.get? k').map fun row =>
      if cancelsBeaconOf m.input m.time row then cancelBeaconRow m.input m.time row else row := by
    intro k'
    obtain ⟨severity, hs⟩ := Option.isSome_iff_exists.mp hm.severity_isSome
    have hcancel : isBeaconCancel m.input.parsed.codes = true := hm.cancel
    rw [← get?_updateRows h.ownIds]
    simp only [step, BeaconMessage.op, StoreOp.update, upsertFromMecp, hs, hcancel, if_true,
      cancelBeacons, BeaconMessage.time]
    split
    · rename_i hnone
      simp only [hnone, Option.getD_none, List.map_nil, OrderedMap.setAll, List.foldl_nil]
    · rename_i hsome
      simp only [hsome, Option.getD_some]
  have htombs : (step js s m.op).resolvedTombstones = s.resolvedTombstones := by
    obtain ⟨severity, hs⟩ := Option.isSome_iff_exists.mp hm.severity_isSome
    have hcancel : isBeaconCancel m.input.parsed.codes = true := hm.cancel
    simp only [step, BeaconMessage.op, StoreOp.update, upsertFromMecp, hs, hcancel, if_true,
      cancelBeacons]
    split <;> rfl
  have hkeep : ∀ row : EmergencyIncident, (if cancelsBeaconOf m.input m.time row
      then cancelBeaconRow m.input m.time row else row) =
      { row with
        beaconActive := !cancelsBeaconOf m.input m.time row && row.beaconActive
        lastSeenAt := if cancelsBeaconOf m.input m.time row then m.time else row.lastSeenAt
        events := if cancelsBeaconOf m.input m.time row
          then some (appendEvent row.events (heardEvent m.input .beaconCancelled m.time))
          else row.events } := by
    intro row
    split <;> simp_all [cancelBeaconRow]
  refine ⟨by rw [hrows, h.get]; rfl, step_ownIds h.ownIds _, ?_, ?_, ?_, ?_, ?_, h.key, ?_, ?_⟩
  · rw [hkeep]; exact h.sender_eq
  · rw [hkeep]; exact h.codes_perm
  · rw [hkeep]; exact h.freetext_eq
  · rw [hkeep]; exact h.severity_mem
  · rw [hkeep]; exact h.unresolved
  · rw [htombs]; exact h.notBuried
  · intro k' row hrow hne
    rw [hrows] at hrow
    obtain ⟨before, hbefore, rfl⟩ := Option.map_eq_some_iff.mp hrow
    obtain ⟨hno, hids⟩ := h.others k' before hbefore hne
    refine ⟨?_, hids⟩
    rw [hkeep]
    exact hno

-- The store together with the newest message it has taken in so far.
structure Heard where
  store : IncidentSnapshot
  newest : BeaconMessage

def newer (a b : BeaconMessage) : BeaconMessage := if a.time < b.time then b else a

def hear (js : Runtime) (h : Heard) (m : BeaconMessage) : Heard :=
  ⟨step js h.store m.op, newer h.newest m⟩

-- The beacon's row says that the beacon is on exactly when the newest message is a report.
def BeaconCurrent (k : String) (h : Heard) : Prop :=
  ∃ row ∈ h.store.incidents.get? k, row.status ≠ .resolved ∧
    (row.beaconActive = true ↔ h.newest.isCancel = false)

-- A report that is older than the newest message where that is a cancel, or a live cancel that
-- is older than it where that is a report.
def Misleads (newest m : BeaconMessage) : Prop :=
  m.time < newest.time ∧
    if m.isCancel then m.input.fromSeed = false ∧ newest.isCancel = false
    else newest.isCancel = true

instance (newest m : BeaconMessage) : Decidable (Misleads newest m) :=
  inferInstanceAs (Decidable (_ ∧ ite _ _ _))

def NoneMisleads : BeaconMessage → List BeaconMessage → Prop
  | _, [] => True
  | newest, m :: rest => ¬Misleads newest m ∧ NoneMisleads (newer newest m) rest

-- Besides the beacon's state the row must have its newest report as the last time it was seen,
-- which is what a seeded cancel is compared with.
structure Current (newest : BeaconMessage) (inc : EmergencyIncident) : Prop where
  active_iff : inc.beaconActive = true ↔ newest.isCancel = false
  lastSeenAt_le : inc.lastSeenAt ≤ newest.time
  le_lastSeenAt : newest.isCancel = false → newest.time ≤ inc.lastSeenAt

theorem newer_time (a b : BeaconMessage) : (newer a b).time = max a.time b.time := by
  unfold newer
  split_ifs <;> omega

theorem mergeIncident_current (js : Runtime) {d : Distress} {newest m : BeaconMessage} {inc : EmergencyIncident}
    {severity : Severity} (h : Current newest inc) (hm : IsBeaconReport d m severity)
    (hne : newest.time ≠ m.time) (freetext : String) :
    let row := mergeIncident js m.input severity freetext m.time inc
    row.beaconActive = true ∧ (¬Misleads newest m → Current (newer newest m) row) := by
  have hactive : (mergeIncident js m.input severity freetext m.time inc).beaconActive = true := by
    simp [mergeIncident, hm.isBeacon]
  refine ⟨hactive, fun hgood => ?_⟩
  have hnewest : (newer newest m).isCancel = false := by
    unfold newer
    split_ifs with hlt
    · exact hm.not_cancel
    · by_contra hc
      exact hgood ⟨by omega, by simpa [hm.not_cancel] using hc⟩
  have hle := h.lastSeenAt_le
  refine ⟨by simp [hactive, hnewest], ?_, fun _ => ?_⟩
  · rw [newer_time]
    exact max_le_max hle (le_refl _)
  · rw [newer_time]
    simp only [mergeIncident]
    by_cases hc : newest.isCancel = false
    · have := h.le_lastSeenAt hc
      omega
    · have hlt : newest.time < m.time := by
        by_contra hlt
        exact hgood ⟨by omega, by simpa [hm.not_cancel] using hc⟩
      omega

theorem cancel_current {d : Distress} {newest m : BeaconMessage} {inc : EmergencyIncident}
    (h : Current newest inc) (hm : IsCancelOf d m) (hsender : inc.senderId = d.senderId)
    (hopen : inc.status ≠ .resolved) (hne : newest.time ≠ m.time) :
    let row := if cancelsBeaconOf m.input m.time inc then cancelBeaconRow m.input m.time inc else inc
    (Misleads newest m → newest.isCancel = false ∧ row.beaconActive = false) ∧
      (¬Misleads newest m → Current (newer newest m) row) := by
  have hcancels : cancelsBeaconOf m.input m.time inc = true ↔
      newest.isCancel = false ∧ (m.input.fromSeed = false ∨ newest.time < m.time) := by
    simp only [cancelsBeaconOf, isUnresolved, hopen, hsender, hm.sender_eq, Bool.and_eq_true,
      h.active_iff, Bool.or_eq_true, decide_eq_true_eq, ne_eq, not_false_eq_true, true_and, and_true,
      Bool.not_eq_true', decide_true]
    have hle := h.lastSeenAt_le
    constructor
    · rintro ⟨hn, hs | ht⟩
      · exact ⟨hn, .inl hs⟩
      · have := h.le_lastSeenAt hn
        exact ⟨hn, .inr (by omega)⟩
    · rintro ⟨hn, hs | ht⟩
      · exact ⟨hn, .inl hs⟩
      · exact ⟨hn, .inr (by omega)⟩
  simp only [Misleads, hm.cancel, if_true]
  constructor
  · rintro ⟨_, hs, hn⟩
    rw [if_pos (hcancels.mpr ⟨hn, .inl hs⟩)]
    exact ⟨hn, rfl⟩
  · intro hgood
    have hle := h.lastSeenAt_le
    by_cases hlt : newest.time < m.time
    · have hnewest : newer newest m = m := if_pos hlt
      rw [hnewest]
      split_ifs with hc
      · exact ⟨by simp [cancelBeaconRow, hm.cancel], le_refl _, fun _ => le_refl _⟩
      · have hn : newest.isCancel = true := by
          by_contra hn
          exact hc (hcancels.mpr ⟨by simpa using hn, .inr hlt⟩)
        refine ⟨?_, by omega, fun hm' => by simp [hm.cancel] at hm'⟩
        rw [h.active_iff, hn, hm.cancel]
    · have hnewest : newer newest m = newest := if_neg hlt
      rw [hnewest, if_neg]
      · exact h
      · rw [hcancels]
        rintro ⟨hn, hs | ht⟩
        · exact hgood ⟨by omega, hs, hn⟩
        · exact hlt ht

-- A message of this beacon that the seed age limit lets through.
def IsMessageOf (d : Distress) (m : BeaconMessage) : Prop :=
  ((∃ severity, IsBeaconReport d m severity) ∧
      (m.input.fromSeed = true → isTooOldToSeed m.clock m.time = false)) ∨
    IsCancelOf d m

theorem hear_current {d : Distress} {k : String} {h : Heard} {inc : EmergencyIncident}
    (hlisten : Listening js d k h.store inc) (hcur : Current h.newest inc) {m : BeaconMessage}
    (hm : IsMessageOf d m) (hne : h.newest.time ≠ m.time) :
    (Misleads h.newest m → ¬BeaconCurrent k (hear js h m)) ∧
      (¬Misleads h.newest m → ∃ inc', Listening js d k (hear js h m).store inc' ∧
        Current (hear js h m).newest inc') := by
  have hstale : Misleads h.newest m → (newer h.newest m) = h.newest :=
    fun hbad => if_neg (by have := hbad.1; omega)
  rcases hm with ⟨⟨severity, hm⟩, hold⟩ | hm
  · have hnext := hlisten.step_report hm hold
    obtain ⟨hactive, hgood⟩ := mergeIncident_current js hcur hm hne _
    refine ⟨fun hbad => ?_, fun hng => ⟨_, hnext, hgood hng⟩⟩
    rintro ⟨row, hrow, _, hiff⟩
    cases hnext.get.symm.trans hrow
    have hcancel : h.newest.isCancel = true := by simpa [Misleads, hm.not_cancel] using hbad.2
    have hoff := hiff.mp hactive
    simp [hear, hstale hbad, hcancel] at hoff
  · have hnext := hlisten.step_cancel hm
    obtain ⟨hwrong, hgood⟩ := cancel_current hcur hm hlisten.sender_eq hlisten.unresolved hne
    refine ⟨fun hbad => ?_, fun hng => ⟨_, hnext, hgood hng⟩⟩
    rintro ⟨row, hrow, _, hiff⟩
    cases hnext.get.symm.trans hrow
    obtain ⟨hon, hoff⟩ := hwrong hbad
    have hact := hiff.mpr (by simpa [hear, hstale hbad] using hon)
    simp [hoff] at hact

theorem beaconCurrent_of_current {d : Distress} {k : String} {h : Heard} {inc : EmergencyIncident}
    (hlisten : Listening js d k h.store inc) (hcur : Current h.newest inc) : BeaconCurrent k h :=
  ⟨inc, hlisten.get, hlisten.unresolved, hcur.active_iff⟩

-- The row stays right up to the first misleading message, and that one breaks it.
theorem visits_beaconCurrent_iff {d : Distress} {k : String} {h : Heard} {inc : EmergencyIncident}
    (hlisten : Listening js d k h.store inc) (hcur : Current h.newest inc)
    {rest : List BeaconMessage} (hrest : ∀ m ∈ rest, IsMessageOf d m)
    (htimes : ((h.newest :: rest).map BeaconMessage.time).Nodup) :
    Run.Visits (hear js) (BeaconCurrent k) h rest ↔ NoneMisleads h.newest rest := by
  induction rest generalizing h inc with
  | nil => exact iff_of_true (beaconCurrent_of_current hlisten hcur) trivial
  | cons m rest ih =>
      simp only [List.mem_cons, forall_eq_or_imp] at hrest
      simp only [List.map_cons, List.nodup_cons, List.mem_cons, not_or] at htimes
      obtain ⟨hwrong, hgood⟩ := hear_current hlisten hcur hrest.1 htimes.1.1
      have hnow := beaconCurrent_of_current hlisten hcur
      by_cases hbad : Misleads h.newest m
      · exact iff_of_false (fun hv => hwrong hbad hv.2.start) (fun hn => hn.1 hbad)
      · obtain ⟨inc', hlisten', hcur'⟩ := hgood hbad
        have htimes' : (((hear js h m).newest :: rest).map BeaconMessage.time).Nodup := by
          simp only [List.map_cons, List.nodup_cons, hear, newer]
          split_ifs
          · exact htimes.2
          · exact ⟨htimes.1.2, htimes.2.2⟩
        have hiff := ih hlisten' hcur' hrest.2 htimes'
        simp only [Run.Visits, NoneMisleads, hnow, hbad, not_false_eq_true, true_and]
        exact hiff

-- The first report opened the beacon's row, and no other row and no tombstone of the store it
-- left stands in the way of a report of this beacon.
structure Opened (js : Runtime) (d : Distress) (first : BeaconMessage) (severity : Severity)
    (s : IncidentSnapshot) : Prop where
  report : IsBeaconReport d first severity
  get : s.incidents.get? (d.fingerprint js severity) = some (openedRow js first.clock first.input severity)
  notBuried : ∀ severity ∈ d.severities,
    isTombstoned s.resolvedTombstones (d.fingerprint js severity) (d.payloadKey js severity) = false
  others : ∀ k row, s.incidents.get? k = some row → k ≠ d.fingerprint js severity →
    d.matchesRow js row = false ∧ ∀ severity ∈ d.severities, k ≠ d.fingerprint js severity

theorem Opened.listening {d : Distress} {first : BeaconMessage} {severity : Severity}
    {s : IncidentSnapshot} (h : Opened js d first severity s) (hid : OwnIds s.incidents) :
    Listening js d (d.fingerprint js severity) s
      (openedRow js first.clock first.input severity) where
  get := h.get
  ownIds := hid
  sender_eq := h.report.sender_eq
  codes_perm := h.report.codes_perm
  freetext_eq := h.report.freetext_eq
  severity_mem := h.report.severity_mem
  unresolved := by simp [openedRow, createIncident]
  key := ⟨severity, h.report.severity_mem, rfl⟩
  notBuried := h.notBuried
  others := h.others

-- However live reception and hydration interleave a station's beacon reports and cancels, the
-- row follows the newest of them after every message exactly when none misleads the store.
theorem beacon_follows_newest_iff {s : IncidentSnapshot} (h : Reachable js s) {d : Distress}
    {first : BeaconMessage} {severity : Severity}
    (hopened : Opened js d first severity (step js s first.op)) {rest : List BeaconMessage}
    (hrest : ∀ m ∈ rest, IsMessageOf d m)
    (htimes : ((first :: rest).map BeaconMessage.time).Nodup) :
    Run.Visits (hear js) (BeaconCurrent (d.fingerprint js severity)) ⟨step js s first.op, first⟩ rest ↔
      NoneMisleads first rest := by
  have hlisten := hopened.listening (step_ownIds h.ownIds first.op)
  refine visits_beaconCurrent_iff hlisten ?_ hrest htimes
  refine ⟨?_, le_refl _, fun _ => le_refl _⟩
  simp [openedRow, createIncident, hopened.report.isBeacon, hopened.report.not_cancel]

-- A beacon, its cancel, and the beacon again from the history.
theorem beacon_follows_newest_iff_hydrated :
    let beacon := fun time => heardReport "alice" 0 ["B01"] "" time
    let first : BeaconMessage := ⟨1000, beacon 1000⟩
    let d : Distress := ⟨"alice", ["B01"], "", [0]⟩
    Run.Visits (hear asciiRuntime) (BeaconCurrent (d.fingerprint asciiRuntime 0))
      ⟨step asciiRuntime .empty first.op, first⟩
      [⟨2000, heardReport "alice" 0 ["B03"] "" 2000⟩,
        ⟨4000, { beacon 3000 with fromSeed := true }⟩] := by
  intro beacon first d
  have hreport : ∀ time seeded clock,
      IsBeaconReport d ⟨clock, { beacon time with fromSeed := seeded }⟩ 0 := fun time seeded clock =>
    ⟨⟨rfl, (by decide : isBeaconCancel ["B01"] = false),
      (by decide : isBeaconAck ["B01"] = false ∧ isGeneralAck ["B01"] = false)⟩,
      rfl, .refl _, rfl, by simp [d], by decide⟩
  have honly : (step asciiRuntime .empty first.op).incidents.keys = [d.fingerprint asciiRuntime 0] := by
    decide +kernel
  have hopened : Opened asciiRuntime d first 0 (step asciiRuntime .empty first.op) := by
    refine ⟨hreport 1000 false 1000, by decide +kernel, by decide +kernel, fun k row hrow hne => ?_⟩
    have hk := (OrderedMap.mem_keys_iff _ _).mpr ⟨row, hrow⟩
    rw [honly, List.mem_singleton] at hk
    exact absurd hk hne
  refine (beacon_follows_newest_iff ⟨[], rfl⟩ hopened ?_ (by decide)).mpr
    ⟨by decide, by decide, trivial⟩
  simp only [List.mem_cons, List.not_mem_nil, or_false, forall_eq_or_imp, forall_eq]
  exact ⟨.inr ⟨by decide, rfl, rfl⟩, .inl ⟨⟨0, hreport 3000 true 4000⟩, by decide⟩⟩

-- The same three messages in two orders, once with a report arriving after a newer cancel and
-- once with a live cancel arriving after a newer report.
theorem beacon_depends_on_order :
    let beacon := fun time => ((10000 : Int), StoreOp.upsertFromMecp (heardReport "alice" 0 ["B01"] "" time))
    let cancel := fun time => ((10000 : Int), StoreOp.upsertFromMecp (heardReport "alice" 0 ["B03"] "" time))
    let active := fun ops =>
      (run asciiRuntime .empty ops).incidents.values.map EmergencyIncident.beaconActive
    (active [beacon 1000, beacon 2000, cancel 3000] = [false] ∧
      active [beacon 1000, cancel 3000, beacon 2000] = [true]) ∧
    (active [beacon 1000, cancel 2000, beacon 3000] = [true] ∧
      active [beacon 1000, beacon 3000, cancel 2000] = [false]) := by
  decide +kernel

end MeshClient.Incident
