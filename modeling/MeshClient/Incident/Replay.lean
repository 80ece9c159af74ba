import MeshClient.Lib.ThreeWay
import MeshClient.Incident.Store

namespace MeshClient.Incident

open Lists Mecp Js

-- The journal entry of a write that the database has not acknowledged yet.
structure PendingIncidentWrite where
  baseline : IncidentSnapshot
  value : IncidentSnapshot
deriving DecidableEq

section

variable {α : Type} [DecidableEq α]

def mergeField (f : EmergencyIncident → α) (previous : Option EmergencyIncident)
    (latest existing : EmergencyIncident) : α :=
  ThreeWay.value (previous.map f) (f latest) (f existing)

def mergeOptional (f : EmergencyIncident → Option α) (previous : Option EmergencyIncident)
    (latest existing : EmergencyIncident) : Option α :=
  ThreeWay.optional (previous.bind f) (f latest) (f existing)

def mergeArray (f : EmergencyIncident → List α) (previous : Option EmergencyIncident)
    (latest existing : EmergencyIncident) : List α :=
  ThreeWay.list (previous.map f) (f latest) (f existing)

def mergeOptionalArray (f : EmergencyIncident → Option (List α))
    (previous : Option EmergencyIncident) (latest existing : EmergencyIncident) : Option (List α) :=
  ThreeWay.optionalList (previous.bind f) (f latest) (f existing)

end

-- The loop over the properties. `channel` and `coordsSource` are always present, so that
-- their `null` is a value, while an absent optional property equals an undefined one.
def mergeFields (previous : Option EmergencyIncident) (latest existing : EmergencyIncident) :
    EmergencyIncident where
  id := mergeField (·.id) previous latest existing
  protocol := mergeField (·.protocol) previous latest existing
  protocolsSeen := mergeArray (·.protocolsSeen) previous latest existing
  severity := mergeField (·.severity) previous latest existing
  codes := mergeArray (·.codes) previous latest existing
  freetext := mergeField (·.freetext) previous latest existing
  senderId := mergeField (·.senderId) previous latest existing
  senderName := mergeField (·.senderName) previous latest existing
  relaySenderIds := mergeOptionalArray (·.relaySenderIds) previous latest existing
  channel := mergeField (·.channel) previous latest existing
  receivedAt := mergeField (·.receivedAt) previous latest existing
  lastSeenAt := mergeField (·.lastSeenAt) previous latest existing
  lat := mergeOptional (·.lat) previous latest existing
  lon := mergeOptional (·.lon) previous latest existing
  coordsSource := mergeField (·.coordsSource) previous latest existing
  messageIds := mergeArray (·.messageIds) previous latest existing
  ackCount := mergeField (·.ackCount) previous latest existing
  ackPeerIds := mergeArray (·.ackPeerIds) previous latest existing
  beaconActive := mergeField (·.beaconActive) previous latest existing
  beaconAcked := mergeField (·.beaconAcked) previous latest existing
  localOrigin := mergeOptional (·.localOrigin) previous latest existing
  beaconCancelToNode := mergeOptional (·.beaconCancelToNode) previous latest existing
  isDrill := mergeField (·.isDrill) previous latest existing
  status := mergeField (·.status) previous latest existing
  resolvedAt := mergeOptional (·.resolvedAt) previous latest existing
  seenAt := mergeOptional (·.seenAt) previous latest existing
  events := mergeOptionalArray (·.events) previous latest existing

def sortEvents (events : List IncidentEvent) : List IncidentEvent :=
  events.insertionSort fun a b => a.at ≤ b.at

def orderEvents (events : List IncidentEvent) : List IncidentEvent :=
  let ordered := sortEvents events
  if ordered.length ≤ MAX_EVENTS_PER_INCIDENT then ordered
  else ordered.take 1 ++ lastN (MAX_EVENTS_PER_INCIDENT - 1) ordered

-- A row that is resolved in the database opens again only for a reopen after that.
def staysResolved (existing after : EmergencyIncident) : Bool :=
  existing.status = .resolved && after.status ≠ .resolved &&
    !hasEventAfter .reopened (closedAt existing + INCIDENT_REOPEN_GRACE_MS) after

def settleRow (existing after incident : EmergencyIncident) : EmergencyIncident :=
  { incident with
    ackCount := incident.ackPeerIds.length
    receivedAt := min existing.receivedAt incident.receivedAt
    lastSeenAt := max existing.lastSeenAt incident.lastSeenAt
    severity := min existing.severity incident.severity
    messageIds := lastN MAX_MESSAGE_IDS_PER_INCIDENT incident.messageIds
    events := incident.events.map orderEvents
    status := if staysResolved existing after then existing.status else incident.status
    resolvedAt := if staysResolved existing after then existing.resolvedAt else incident.resolvedAt
    seenAt := if staysResolved existing after then existing.seenAt else incident.seenAt }

def mergeRow (before : Option EmergencyIncident) (after existing : EmergencyIncident) :
    EmergencyIncident :=
  settleRow existing after (mergeFields before after existing)

-- Rows are compared by their JSON texts. `reordered` is true where equal rows have different
-- texts because their properties come in different orders.
def sameRow (reordered : Bool) (before after : Option EmergencyIncident) : Bool :=
  before = after && (before.isNone || !reordered)

-- A stale pending edit must not resurrect a database-only tombstone after a crash.
def isSwallowed (tombstone : Option Int) (after : EmergencyIncident) : Bool :=
  tombstone.any fun time => !hasEventAfter .reopened (time + INCIDENT_REOPEN_GRACE_MS) after

def replayRow (reordered : Bool) (tombstone : Option Int)
    (before after existing : Option EmergencyIncident) : Option EmergencyIncident :=
  if sameRow reordered before after then existing
  else match after, existing with
    | none, _ => none
    | some after, none => if isSwallowed tombstone after then none else some after
    | some after, some existing => some (mergeRow before after existing)

def replayTombstone (before after tombstone : Option Int) : Option Int :=
  if before = after then tombstone
  else match after with
    | none => if tombstone = before then none else tombstone
    | some after => some (max (tombstone.getD after) after)

variable (js : Runtime) (reordered : String → Bool)

def replayRows (pending : PendingIncidentWrite) (durable : IncidentSnapshot) : Incidents :=
  durable.incidents.alterAll
    (unique (pending.baseline.incidents.keys ++ pending.value.incidents.keys))
    fun id => replayRow (reordered id) (durable.resolvedTombstones.get? id)
      (pending.baseline.incidents.get? id) (pending.value.incidents.get? id)

def replayTombstones (pending : PendingIncidentWrite) (durable : IncidentSnapshot) : Tombstones :=
  durable.resolvedTombstones.alterAll
    (unique (pending.baseline.resolvedTombstones.keys ++ pending.value.resolvedTombstones.keys))
    fun id => replayTombstone (pending.baseline.resolvedTombstones.get? id)
      (pending.value.resolvedTombstones.get? id)

def replayIncidentChanges (pending : PendingIncidentWrite) (durable : IncidentSnapshot) :
    IncidentSnapshot :=
  pruneIncidents js (replayRows reordered pending durable)
    (pruneTombstones (replayTombstones pending durable))

-- Each row of the result depends only on the three rows of that id.
theorem replayRows_get? (pending : PendingIncidentWrite) (durable : IncidentSnapshot) (id : String) :
    (replayRows reordered pending durable).get? id =
      replayRow (reordered id) (durable.resolvedTombstones.get? id)
        (pending.baseline.incidents.get? id) (pending.value.incidents.get? id)
        (durable.incidents.get? id) := by
  rw [replayRows, OrderedMap.get?_alterAll _ (unique_nodup _)]
  split_ifs with hk
  · rfl
  · simp only [mem_unique, List.mem_append, not_or, ← OrderedMap.get?_eq_none_iff] at hk
    simp [hk.1, hk.2, replayRow, sameRow]

theorem replayTombstones_get? (pending : PendingIncidentWrite) (durable : IncidentSnapshot)
    (id : String) :
    (replayTombstones pending durable).get? id =
      replayTombstone (pending.baseline.resolvedTombstones.get? id)
        (pending.value.resolvedTombstones.get? id) (durable.resolvedTombstones.get? id) := by
  rw [replayTombstones, OrderedMap.get?_alterAll _ (unique_nodup _)]
  split_ifs with hk
  · rfl
  · simp only [mem_unique, List.mem_append, not_or, ← OrderedMap.get?_eq_none_iff] at hk
    simp [hk.1, hk.2, replayTombstone]

end MeshClient.Incident
