import MeshClient.Incident.Prune
import MeshClient.Incident.Replay

namespace MeshClient.Incident

open Lists Mecp Js

section

variable {α : Type}

-- A property that is the same in the journal's two rows keeps its database value.
def KeepsField (f : EmergencyIncident → α) (before : Option EmergencyIncident)
    (after existing row : EmergencyIncident) : Prop :=
  before.map f = some (f after) → f row = f existing

def KeepsOptional (f : EmergencyIncident → Option α) (before : Option EmergencyIncident)
    (after existing row : EmergencyIncident) : Prop :=
  before.bind f = f after → f row = f existing

end

-- The row keeps every property that the journal did not change, up to what is recomputed:
-- the number of ACKs, the message-id cap, and the order and cap of the events.
structure KeepsUnchanged (before : Option EmergencyIncident)
    (after existing row : EmergencyIncident) : Prop where
  id : KeepsField (·.id) before after existing row
  protocol : KeepsField (·.protocol) before after existing row
  protocolsSeen : KeepsField (·.protocolsSeen) before after existing row
  severity : KeepsField (·.severity) before after existing row
  codes : KeepsField (·.codes) before after existing row
  freetext : KeepsField (·.freetext) before after existing row
  senderId : KeepsField (·.senderId) before after existing row
  senderName : KeepsField (·.senderName) before after existing row
  relaySenderIds : KeepsOptional (·.relaySenderIds) before after existing row
  channel : KeepsField (·.channel) before after existing row
  receivedAt : KeepsField (·.receivedAt) before after existing row
  lastSeenAt : KeepsField (·.lastSeenAt) before after existing row
  lat : KeepsOptional (·.lat) before after existing row
  lon : KeepsOptional (·.lon) before after existing row
  coordsSource : KeepsField (·.coordsSource) before after existing row
  messageIds : before.map (·.messageIds) = some after.messageIds →
    row.messageIds = existing.messageIds ∨
      row.messageIds = lastN MAX_MESSAGE_IDS_PER_INCIDENT existing.messageIds
  ackCount : row.ackCount = existing.ackCount ∨ row.ackCount = row.ackPeerIds.length
  ackPeerIds : KeepsField (·.ackPeerIds) before after existing row
  beaconActive : KeepsField (·.beaconActive) before after existing row
  beaconAcked : KeepsField (·.beaconAcked) before after existing row
  localOrigin : KeepsOptional (·.localOrigin) before after existing row
  beaconCancelToNode : KeepsOptional (·.beaconCancelToNode) before after existing row
  isDrill : KeepsField (·.isDrill) before after existing row
  status : KeepsField (·.status) before after existing row
  resolvedAt : KeepsOptional (·.resolvedAt) before after existing row
  seenAt : KeepsOptional (·.seenAt) before after existing row
  events : before.bind (·.events) = after.events →
    row.events = existing.events ∨ row.events = existing.events.map orderEvents

-- ACK peers of the database are lost only where the journal removed them, and those the
-- journal added are there.
structure KeepsAcks (before : Option EmergencyIncident) (after existing row : EmergencyIncident) :
    Prop where
  durable : ∀ peer ∈ existing.ackPeerIds,
    (peer ∈ (before.map (·.ackPeerIds)).getD [] → peer ∈ after.ackPeerIds) → peer ∈ row.ackPeerIds
  added : ∀ peer ∈ after.ackPeerIds,
    peer ∉ (before.map (·.ackPeerIds)).getD [] → peer ∈ row.ackPeerIds

theorem KeepsUnchanged.refl (before : Option EmergencyIncident) (after existing : EmergencyIncident) :
    KeepsUnchanged before after existing existing := by
  constructor
  case messageIds => exact fun _ => .inl rfl
  case ackCount => exact .inl rfl
  case events => exact fun _ => .inl rfl
  all_goals exact fun _ => rfl

theorem mergeRow_keepsUnchanged (before : Option EmergencyIncident)
    (after existing : EmergencyIncident) :
    KeepsUnchanged before after existing (mergeRow before after existing) := by
  constructor
  case receivedAt =>
    intro h
    simp only [mergeRow, settleRow, mergeFields, mergeField, ThreeWay.value, if_pos h, min_self]
  case lastSeenAt =>
    intro h
    simp only [mergeRow, settleRow, mergeFields, mergeField, ThreeWay.value, if_pos h, max_self]
  case severity =>
    intro h
    simp only [mergeRow, settleRow, mergeFields, mergeField, ThreeWay.value, if_pos h, min_self]
  case status =>
    intro h
    simp only [mergeRow, settleRow, mergeFields, mergeField, ThreeWay.value, if_pos h, ite_self]
  case resolvedAt =>
    intro h
    simp only [mergeRow, settleRow, mergeFields, mergeOptional, ThreeWay.optional, if_pos h, ite_self]
  case seenAt =>
    intro h
    simp only [mergeRow, settleRow, mergeFields, mergeOptional, ThreeWay.optional, if_pos h, ite_self]
  case messageIds =>
    intro h
    right
    simp only [mergeRow, settleRow, mergeFields, mergeArray, ThreeWay.list, if_pos h]
  case ackCount => exact .inr rfl
  case events =>
    intro h
    right
    simp only [mergeRow, settleRow, mergeFields, mergeOptionalArray, ThreeWay.optionalList, if_pos h]
  -- the other properties are left as the merge of the fields gives them
  all_goals exact fun h => if_pos h

theorem mergeRow_keepsAcks (before : Option EmergencyIncident) (after existing : EmergencyIncident) :
    KeepsAcks before after existing (mergeRow before after existing) where
  durable _ hpeer hkept := ThreeWay.mem_list_of_not_removed hpeer hkept
  added _ hpeer hnew := ThreeWay.mem_list_of_added hpeer hnew

-- The guard against a stale edit gives way only to a reopen after the row was closed.
theorem mergeRow_reopened {before : Option EmergencyIncident} {after existing : EmergencyIncident}
    (hclosed : existing.status = .resolved)
    (hopen : (mergeRow before after existing).status ≠ .resolved) :
    hasEventAfter .reopened (closedAt existing + INCIDENT_REOPEN_GRACE_MS) after = true := by
  by_contra hnone
  apply hopen
  by_cases hafter : after.status = .resolved
  · simp [mergeRow, settleRow, mergeFields, mergeField, ThreeWay.value, hclosed, hafter]
  · have hstays : staysResolved existing after = true := by
      simpa [staysResolved, hclosed, hafter] using hnone
    simp [mergeRow, settleRow, hstays, hclosed]

variable {js : Runtime} {reordered : String → Bool}

-- Replaying over a newer database leaves alone what the journal did not touch, and opens a row
-- that the database has as resolved only for a report heard after that.
theorem replay_keeps_durable (pending : PendingIncidentWrite) (durable : IncidentSnapshot)
    (hroom : (replayRows reordered pending durable).size ≤ MAX_INCIDENTS) :
    let r := (replayIncidentChanges js reordered pending durable).incidents
    (∀ id, pending.baseline.incidents.get? id = none → pending.value.incidents.get? id = none →
      r.get? id = durable.incidents.get? id) ∧
    (∀ id after existing, pending.value.incidents.get? id = some after →
      durable.incidents.get? id = some existing →
      ∃ row, r.get? id = some row ∧
        KeepsUnchanged (pending.baseline.incidents.get? id) after existing row ∧
        KeepsAcks (pending.baseline.incidents.get? id) after existing row) ∧
    (∀ id existing row, durable.incidents.get? id = some existing → existing.status = .resolved →
      r.get? id = some row → row.status ≠ .resolved →
      ∃ after, pending.value.incidents.get? id = some after ∧
        hasEventAfter .reopened (closedAt existing + INCIDENT_REOPEN_GRACE_MS) after = true) := by
  intro r
  have hr : ∀ id, r.get? id = replayRow (reordered id) (durable.resolvedTombstones.get? id)
      (pending.baseline.incidents.get? id) (pending.value.incidents.get? id)
      (durable.incidents.get? id) := by
    intro id
    rw [← replayRows_get?]
    simp only [r, replayIncidentChanges, pruneIncidents_of_le js _ hroom]
  refine ⟨fun id hb hv => ?_, fun id after existing hv hd => ?_, fun id existing row hd hclosed => ?_⟩
  · simp [hr, hb, hv, replayRow, sameRow]
  · rw [hr, hv, hd]
    unfold replayRow
    split_ifs with hsame
    · simp only [sameRow, Bool.and_eq_true, decide_eq_true_eq] at hsame
      refine ⟨existing, rfl, .refl _ _ _, fun _ hpeer _ => hpeer, fun peer hpeer hnew => ?_⟩
      exact absurd (by simpa [hsame.1] using hpeer) hnew
    · exact ⟨_, rfl, mergeRow_keepsUnchanged _ _ _, mergeRow_keepsAcks _ _ _⟩
  · rw [hr, hd]
    intro hrow hopen
    unfold replayRow at hrow
    split_ifs at hrow with hsame
    · cases hrow
      exact absurd hclosed hopen
    · cases hv : pending.value.incidents.get? id with
      | none => simp [hv] at hrow
      | some after =>
          simp only [hv, Option.some.injEq] at hrow
          subst hrow
          exact ⟨after, rfl, mergeRow_reopened hclosed hopen⟩

-- The journal marks a row seen that another window acknowledged in the meantime.
theorem replay_keeps_durable_ack :
    let mayday := heardReport "alice" 0 ["M01"] "broken leg" 1000
    let id := incidentFingerprint asciiRuntime 0 ["M01"] "broken leg" "alice"
    let s := run asciiRuntime .empty [(1000, .upsertFromMecp mayday)]
    let v := run asciiRuntime s [(2000, .markSeen id none)]
    let d := run asciiRuntime s [(3000, .recordAck id "bob" none)]
    let row := createIncident asciiRuntime mayday 0 "broken leg" id 1000
    ∃ kept, (replayIncidentChanges asciiRuntime (fun _ => false) ⟨s, v⟩ d).incidents.get? id = some kept ∧
      KeepsUnchanged (s.incidents.get? id) { row with seenAt := some 2000 }
        (withAck row "bob" 3000) kept ∧
      KeepsAcks (s.incidents.get? id) { row with seenAt := some 2000 } (withAck row "bob" 3000) kept := by
  intro mayday id s v d row
  exact (@replay_keeps_durable asciiRuntime (fun _ => false) ⟨s, v⟩ d (by decide +kernel)).2.1 id
    { row with seenAt := some 2000 } (withAck row "bob" 3000) (by decide +kernel) (by decide +kernel)

-- A database row with one message id more than the cap loses its oldest one, although the
-- journal only marked the row seen.
theorem replay_caps_durable_messageIds :
    let mayday := heardReport "alice" 0 ["M01"] "broken leg" 1000
    let id := incidentFingerprint asciiRuntime 0 ["M01"] "broken leg" "alice"
    let s := run asciiRuntime .empty [(1000, .upsertFromMecp mayday)]
    let v := run asciiRuntime s [(2000, .markSeen id none)]
    let row := createIncident asciiRuntime mayday 0 "broken leg" id 1000
    let stored := { row with messageIds := (List.range 51).map fun n => toString n }
    let d : IncidentSnapshot := ⟨s.incidents.set id stored, ∅⟩
    let r := replayIncidentChanges asciiRuntime (fun _ => false) ⟨s, v⟩ d
    (s.incidents.get? id).map (·.messageIds) = (v.incidents.get? id).map (·.messageIds) ∧
      (r.incidents.get? id).map (·.messageIds) ≠ (d.incidents.get? id).map (·.messageIds) := by
  decide +kernel

end MeshClient.Incident
