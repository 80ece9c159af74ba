import MeshClient.Lib.Run
import MeshClient.Mecp.Ack

namespace MeshClient.Incident

open Lists Mecp Js

def MS_PER_MINUTE : Int := 60 * 1000
def MS_PER_HOUR : Int := 60 * MS_PER_MINUTE

@[irreducible] def MAX_INCIDENTS : Nat := 200
@[irreducible] def MAX_MESSAGE_IDS_PER_INCIDENT : Nat := 50
@[irreducible] def MAX_EVENTS_PER_INCIDENT : Nat := 500
@[irreducible] def MAX_RELAY_SENDERS : Nat := 20
def INCIDENT_REOPEN_GRACE_MS : Int := 5 * MS_PER_MINUTE
def CROSS_PROTOCOL_MERGE_WINDOW_MS : Int := 10 * MS_PER_MINUTE
def INCIDENT_SEED_MAX_AGE_MS : Int := 24 * MS_PER_HOUR
@[irreducible] def MAX_RESOLVED_TOMBSTONES : Nat := 500

structure MecpIncidentInput where
  protocol : MeshProtocol
  parsed : MecpParsed
  senderId : String
  senderName : Option String := none
  channel : Option String := none
  messageId : Option String := none
  receivedAt : Option Int := none
  lastKnown : Option Coords := none
  fromSeed : Bool := false
  localOrigin : Bool := false
  beaconCancelToNode : Option Int := none
  quiet : Bool := false
deriving DecidableEq

-- The timeline entry of something a station sent.
def heardEvent (input : MecpIncidentInput) (kind : IncidentEventKind) (now : Int) : IncidentEvent where
  «at» := now
  kind := kind
  peerId := some input.senderId
  protocol := some input.protocol

def sameCodeSet (a b : List String) : Bool := a.length = b.length && b.all fun c => a.contains c

def isOpenCritical (inc : EmergencyIncident) : Bool :=
  isUnresolved inc && !inc.isDrill && inc.severity ≤ 1

-- When the row was closed, or last heard if it never was.
def closedAt (inc : EmergencyIncident) : Int := inc.resolvedAt.getD inc.lastSeenAt

def evictionRank (inc : EmergencyIncident) : Int :=
  if inc.status = .resolved then 0 else if inc.isDrill then 1 else 2

-- Negative when `a` is evicted before `b`.
def compareEviction (a b : EmergencyIncident) : Int :=
  let aCrit : Int := if isOpenCritical a then 1 else 0
  let bCrit : Int := if isOpenCritical b then 1 else 0
  if aCrit ≠ bCrit then aCrit - bCrit
  else if evictionRank a ≠ evictionRank b then evictionRank a - evictionRank b
  else if a.severity ≠ b.severity then (b.severity.val : Int) - a.severity.val
  else closedAt a - closedAt b

def pruneTombstones (tombs : Tombstones) : Tombstones :=
  if tombs.size ≤ MAX_RESOLVED_TOMBSTONES then tombs
  else
    let ranked := tombs.entries.insertionSort (fun a b => a.2 ≤ b.2)
    (∅ : Tombstones).setAll (ranked.drop (tombs.size - MAX_RESOLVED_TOMBSTONES))

def appendEvent (events : Option (List IncidentEvent)) (event : IncidentEvent) :
    List IncidentEvent :=
  let next := events.getD [] ++ [event]
  if next.length ≤ MAX_EVENTS_PER_INCIDENT then next
  else match next with
    | [] => []
    | first :: _ =>
        if first.kind = .received then first :: lastN (MAX_EVENTS_PER_INCIDENT - 1) next
        else lastN MAX_EVENTS_PER_INCIDENT next

def withAck (inc : EmergencyIncident) (peerId : String) (time : Int) : EmergencyIncident :=
  if inc.ackPeerIds.contains peerId then inc
  else
    let ackPeerIds := inc.ackPeerIds ++ [peerId]
    let event : IncidentEvent :=
      if peerId = "local" then { «at» := time, kind := .ackSent }
      else { «at» := time, kind := .ackHeard, peerId := some peerId }
    { inc with
      ackPeerIds := ackPeerIds
      ackCount := ackPeerIds.length
      status := if inc.status = .«open» then .acked else inc.status
      events := some (appendEvent inc.events event) }

variable (js : Runtime)

def payloadTombstoneKey (severity : Severity) (codes : List String) (freetext : String) : String :=
  "payload:" ++ incidentPayloadMatchKey js severity codes freetext

def payloadTombstoneKeyIfDistinct (severity : Severity) (codes : List String) (freetext : String) :
    Option String :=
  if normalizeMecpFreetextForMatch js freetext = "" then none
  else some (payloadTombstoneKey js severity codes freetext)

-- Tombstones of a closed row: its key and, where the text can tell victims apart, its payload.
def bury (id : String) (inc : EmergencyIncident) (time : Int) (tombs : Tombstones) : Tombstones :=
  match payloadTombstoneKeyIfDistinct js inc.severity inc.codes inc.freetext with
  | some key => (tombs.set id time).set key time
  | none => tombs.set id time

def evictionOrder (incidents : Incidents) : List EmergencyIncident :=
  incidents.values.insertionSort (fun a b => compareEviction a b ≤ 0)

def overCap (incidents : Incidents) : List EmergencyIncident :=
  (evictionOrder incidents).take ((evictionOrder incidents).length - MAX_INCIDENTS)

-- Open MAYDAY and URGENT rows stay even when that leaves more rows than the cap.
def keptRows (incidents : Incidents) : List EmergencyIncident :=
  (overCap incidents).filter isOpenCritical ++
    (evictionOrder incidents).drop ((evictionOrder incidents).length - MAX_INCIDENTS)

def evictedRows (incidents : Incidents) : List EmergencyIncident :=
  (overCap incidents).filter fun inc => !isOpenCritical inc

def buryAll (evicted : List EmergencyIncident) (tombs : Tombstones) : Tombstones :=
  evicted.foldl (fun tombs inc => bury js inc.id inc (closedAt inc) tombs) tombs

def pruneIncidents (incidents : Incidents) (tombstones : Tombstones) : IncidentSnapshot :=
  if incidents.size ≤ MAX_INCIDENTS then ⟨incidents, tombstones⟩
  else
    ⟨(∅ : Incidents).setAll ((keptRows incidents).map fun inc => (inc.id, inc)),
      pruneTombstones (buryAll js (evictedRows incidents) tombstones)⟩

structure ExistingQuery where
  id : String
  senderId : String
  protocol : MeshProtocol
  severity : Severity
  codes : List String
  freetext : String
  now : Int

-- The same station sent this report before: GPS tokens are ignored, so that a position
-- update does not fork a row.
def matchesSameSender (query : ExistingQuery) (inc : EmergencyIncident) : Bool :=
  isUnresolved inc && sameCodeSet inc.codes query.codes && inc.senderId = query.senderId &&
    normalizeMecpFreetextForMatch js inc.freetext = normalizeMecpFreetextForMatch js query.freetext

-- A bridged copy: another sender id on a protocol the row was not heard on, with some text
-- besides the position and the same payload including the position.
def matchesCrossProtocol (query : ExistingQuery) (inc : EmergencyIncident) : Bool :=
  isUnresolved inc && sameCodeSet inc.codes query.codes && inc.senderId ≠ query.senderId &&
    !inc.protocolsSeen.contains query.protocol &&
    normalizeMecpFreetextForMatch js query.freetext ≠ "" &&
    normalizeMecpFreetext js inc.freetext = normalizeMecpFreetext js query.freetext &&
    query.now - inc.receivedAt ≤ CROSS_PROTOCOL_MERGE_WINDOW_MS

-- The loop over the rows stops at the first row of the same sender and otherwise gives the
-- first bridged one.
def findExistingIncident (all : Incidents) (query : ExistingQuery) : Option EmergencyIncident :=
  match all.get? query.id with
  | some byId => some byId
  | none =>
      match all.values.find? (matchesSameSender js query) with
      | some sameSender => some sameSender
      | none => all.values.find? (matchesCrossProtocol js query)

def isRelayOf (input : MecpIncidentInput) (existing : EmergencyIncident) : Bool :=
  existing.senderId ≠ input.senderId

def coordsSourceOf (msgCoords lastKnown : Option Coords) : Option CoordsSource :=
  if msgCoords.isSome then some .message else if lastKnown.isSome then some .lastKnown else none

def createIncident (input : MecpIncidentInput) (severity : Severity) (freetext id : String)
    (now : Int) : EmergencyIncident :=
  let msgCoords := extractMecpCoords js freetext
  let coords := msgCoords.or input.lastKnown
  let beacon := isBeacon input.parsed.codes
  { id := id
    protocol := input.protocol
    protocolsSeen := [input.protocol]
    severity := severity
    codes := input.parsed.codes
    freetext := freetext
    senderId := input.senderId
    senderName := input.senderName.getD input.senderId
    channel := input.channel
    receivedAt := now
    lastSeenAt := now
    lat := coords.map Coords.lat
    lon := coords.map Coords.lon
    coordsSource := coordsSourceOf msgCoords input.lastKnown
    messageIds := (input.messageId.filter (· ≠ "")).toList
    ackCount := 0
    ackPeerIds := []
    beaconActive := beacon
    beaconAcked := false
    localOrigin := if input.localOrigin && beacon then some true else none
    beaconCancelToNode := if beacon then input.beaconCancelToNode else none
    isDrill := input.parsed.isDrill
    status := .«open»
    seenAt := if input.fromSeed || input.localOrigin || input.quiet then some now else none
    events := some [heardEvent input .received now] }

def reopens (existing : EmergencyIncident) (now : Int) : Bool :=
  existing.status = .resolved && INCIDENT_REOPEN_GRACE_MS < now - existing.resolvedAt.getD 0

-- A live reopen or escalation into MAYDAY/URGENT needs the operator's attention again.
def needsAttention (input : MecpIncidentInput) (existing : EmergencyIncident) (severity : Severity)
    (now : Int) : Bool :=
  let mergedSeverity := min existing.severity severity
  !input.fromSeed && !input.localOrigin && !input.quiet && mergedSeverity ≤ 1 &&
    (reopens existing now || mergedSeverity < existing.severity)

def mergeEvents (input : MecpIncidentInput) (existing : EmergencyIncident) (now : Int) :
    Option (List IncidentEvent) :=
  let reopened := if reopens existing now then
      some (appendEvent existing.events (heardEvent input .reopened now))
    else existing.events
  if isRelayOf input existing || !existing.protocolsSeen.contains input.protocol then
    some (appendEvent reopened (heardEvent input .relayHeard now))
  else reopened

def mergeMessageIds (messageId : Option String) (messageIds : List String) : List String :=
  match messageId with
  | some id => if id ≠ "" ∧ !messageIds.contains id
      then lastN MAX_MESSAGE_IDS_PER_INCIDENT (messageIds ++ [id]) else messageIds
  | none => messageIds

def mergeIncident (input : MecpIncidentInput) (severity : Severity) (freetext : String) (now : Int)
    (existing : EmergencyIncident) : EmergencyIncident :=
  let isRelay := isRelayOf input existing
  let msgCoords := extractMecpCoords js freetext
  let lastKnown := if isRelay then none else input.lastKnown
  let coords := msgCoords.or lastKnown
  let beacon := isBeacon input.parsed.codes
  let reopen := reopens existing now
  -- Message coordinates always win over lastKnown; a relay copy never moves the pin.
  let keepCoords := isRelay || (existing.coordsSource = some .message && msgCoords.isNone) ||
    coords.isNone
  { existing with
    protocol := input.protocol
    protocolsSeen := if existing.protocolsSeen.contains input.protocol then existing.protocolsSeen
      else existing.protocolsSeen ++ [input.protocol]
    severity := min existing.severity severity
    lastSeenAt := max existing.lastSeenAt now
    senderName := if isRelay then existing.senderName
      else input.senderName.getD existing.senderName
    channel := if isRelay then existing.channel else input.channel.or existing.channel
    messageIds := mergeMessageIds input.messageId existing.messageIds
    relaySenderIds := if isRelay
      then some (lastN MAX_RELAY_SENDERS
        (unique (existing.relaySenderIds.getD [] ++ [input.senderId])))
      else existing.relaySenderIds
    lat := if keepCoords then existing.lat else coords.map Coords.lat
    lon := if keepCoords then existing.lon else coords.map Coords.lon
    coordsSource := if keepCoords then existing.coordsSource
      else coordsSourceOf msgCoords lastKnown
    freetext := if isRelay then existing.freetext
      else if msgCoords.isSome then freetext else existing.freetext
    beaconActive := existing.beaconActive || beacon
    localOrigin := if existing.localOrigin = some true || (!isRelay && input.localOrigin)
      then some true else existing.localOrigin
    beaconCancelToNode := existing.beaconCancelToNode.or
      (if !isRelay && beacon then input.beaconCancelToNode else none)
    status := if reopen then .«open» else existing.status
    resolvedAt := if reopen then none else existing.resolvedAt
    seenAt := if needsAttention input existing severity now then none else existing.seenAt
    events := mergeEvents input existing now }

-- A reopened row gives up its own tombstones and no others.
def withdrawTombstones (existing : EmergencyIncident) (tombs : Tombstones) : Tombstones :=
  let payloadKey :=
    payloadTombstoneKeyIfDistinct js existing.severity existing.codes existing.freetext
  tombs.filter fun key _ => key ≠ existing.id && some key ≠ payloadKey

-- An operation gives the store object it sets, or `none` where it leaves the object as it is.
abbrev Update := Option IncidentSnapshot

def recordAck (clock : Int) (incidentId peerId : String) (time : Option Int)
    (s : IncidentSnapshot) : Update :=
  match s.incidents.get? incidentId with
  | none => none
  | some inc =>
      if inc.status = .resolved ∨ inc.senderId = peerId then none
      else if inc.ackPeerIds.contains peerId then none
      else some { s with
        incidents := s.incidents.set incidentId (withAck inc peerId (time.getD clock)) }

def confirmBeaconRow (clock : Int) (inc : EmergencyIncident) : EmergencyIncident :=
  { inc with
    beaconAcked := true
    status := if inc.status = .«open» then .acked else inc.status
    seenAt := some (inc.seenAt.getD clock)
    events := some (appendEvent inc.events { «at» := clock, kind := .beaconConfirmed }) }

def confirmBeacon (clock : Int) (incidentId : String) (s : IncidentSnapshot) : Update :=
  match s.incidents.get? incidentId with
  | none => none
  | some inc =>
      if inc.beaconAcked then none
      else some { s with incidents := s.incidents.set incidentId (confirmBeaconRow clock inc) }

def resolveRow (resolvedAt : Int) (inc : EmergencyIncident) : EmergencyIncident :=
  { inc with
    status := .resolved
    resolvedAt := some resolvedAt
    beaconActive := false
    seenAt := some (inc.seenAt.getD resolvedAt)
    events := some (appendEvent inc.events { «at» := resolvedAt, kind := .resolved }) }

def resolveIncident (clock : Int) (incidentId : String) (time : Option Int)
    (s : IncidentSnapshot) : Update :=
  match s.incidents.get? incidentId with
  | none => none
  | some inc =>
      if inc.status = .resolved then none
      else
        let resolvedAt := time.getD clock
        some ⟨s.incidents.set incidentId (resolveRow resolvedAt inc),
          pruneTombstones (bury js incidentId inc resolvedAt s.resolvedTombstones)⟩

def markSeen (clock : Int) (incidentId : String) (time : Option Int) (s : IncidentSnapshot) :
    Update :=
  match s.incidents.get? incidentId with
  | none => none
  | some inc =>
      if inc.seenAt.isSome then none
      else some { s with
        incidents := s.incidents.set incidentId { inc with seenAt := some (time.getD clock) } }

def markAllSeen (clock : Int) (time : Option Int) (s : IncidentSnapshot) : Update :=
  let seenAt := time.getD clock
  let unseen := s.incidents.values.filter fun inc => inc.seenAt.isNone && isUnresolved inc
  if unseen = [] then none
  else some { s with
    incidents := s.incidents.setAll
      (unseen.map fun inc => (inc.id, { inc with seenAt := some seenAt })) }

def clearAll (s : IncidentSnapshot) : Update := some { s with incidents := ∅ }

def cancelBeaconRow (input : MecpIncidentInput) (now : Int) (inc : EmergencyIncident) :
    EmergencyIncident :=
  { inc with
    beaconActive := false
    lastSeenAt := now
    events := some (appendEvent inc.events (heardEvent input .beaconCancelled now)) }

-- A hydrated B03 must not clear a beacon heard after it.
def cancelsBeaconOf (input : MecpIncidentInput) (now : Int) (inc : EmergencyIncident) : Bool :=
  isUnresolved inc && inc.beaconActive && inc.senderId = input.senderId &&
    (!input.fromSeed || inc.lastSeenAt ≤ now)

def cancelBeacons (input : MecpIncidentInput) (now : Int) (s : IncidentSnapshot) :
    Option String × Update :=
  let beacons := s.incidents.values.filter (cancelsBeaconOf input now)
  match beacons with
  | [] => (none, none)
  | first :: _ =>
      (some first.id, some { s with
        incidents := s.incidents.setAll
          (beacons.map fun inc => (inc.id, cancelBeaconRow input now inc)) })

def acknowledge (clock : Int) (input : MecpIncidentInput) (severity : Severity) (now : Int)
    (s : IncidentSnapshot) : Option String × Update :=
  match findOpenIncidentForAck s.incidents.values severity input.parsed.codes
      (some input.senderId) none with
  | none => (none, none)
  | some target => (some target.id, recordAck clock target.id input.senderId (some now) s)

def isTombstoned (tombs : Tombstones) (id : String) (payloadKey : Option String) : Bool :=
  (tombs.get? id).isSome || payloadKey.any fun key => (tombs.get? key).isSome

def isTooOldToSeed (clock now : Int) : Bool := 0 < now && INCIDENT_SEED_MAX_AGE_MS < clock - now

-- A seeded copy leaves a row alone that was closed or that a tombstone covers.
def isClosedToSeed (tombs : Tombstones) (existing : EmergencyIncident) : Bool :=
  isTombstoned tombs existing.id
      (payloadTombstoneKeyIfDistinct js existing.severity existing.codes existing.freetext) ||
    existing.status = .resolved

def queryOf (input : MecpIncidentInput) (severity : Severity) (freetext : String) (now : Int) :
    ExistingQuery where
  id := incidentFingerprint js severity input.parsed.codes freetext input.senderId
  senderId := input.senderId
  protocol := input.protocol
  severity := severity
  codes := input.parsed.codes
  freetext := freetext
  now := now

def ingestReport (clock : Int) (input : MecpIncidentInput) (severity : Severity) (now : Int)
    (s : IncidentSnapshot) : Option String × Update :=
  let freetext := input.parsed.freetext.getD ""
  let query := queryOf js input severity freetext now
  let payloadTomb := payloadTombstoneKeyIfDistinct js severity input.parsed.codes freetext
  let tombstoned := isTombstoned s.resolvedTombstones query.id payloadTomb
  if input.fromSeed && (tombstoned || isTooOldToSeed clock now) then (none, none)
  else match findExistingIncident js s.incidents query with
    | none =>
        -- The tombstones are asked a second time before a row is created.
        if input.fromSeed && tombstoned then (none, none)
        else
          let created := createIncident js input severity freetext query.id now
          (some query.id,
            some (pruneIncidents js (s.incidents.set query.id created) s.resolvedTombstones))
    | some existing =>
        if input.fromSeed && isClosedToSeed js s.resolvedTombstones existing then (none, none)
        else if existing.status = .resolved && !reopens existing now then (none, none)
        else
          (some existing.id, some
            ⟨s.incidents.set existing.id (mergeIncident js input severity freetext now existing),
              if reopens existing now then withdrawTombstones js existing s.resolvedTombstones
              else s.resolvedTombstones⟩)

-- B02, B03 and R01 never open a row: B02 and R01 acknowledge one, B03 clears a beacon.
def upsertFromMecp (clock : Int) (input : MecpIncidentInput) (s : IncidentSnapshot) :
    Option String × Update :=
  match input.parsed.severity with
  | none => (none, none)
  | some severity =>
      let now := input.receivedAt.getD clock
      if isBeaconCancel input.parsed.codes then cancelBeacons input now s
      else if isBeaconAck input.parsed.codes || isGeneralAck input.parsed.codes then
        acknowledge clock input severity now s
      else ingestReport js clock input severity now s

inductive StoreOp where
  | upsertFromMecp (input : MecpIncidentInput)
  | recordAck (incidentId peerId : String) (time : Option Int)
  | confirmBeacon (incidentId : String)
  | resolveIncident (incidentId : String) (time : Option Int)
  | markSeen (incidentId : String) (time : Option Int)
  | markAllSeen (time : Option Int)
  | clearAll

-- What the operation sets when `Date.now()` reads `clock`.
def StoreOp.update (clock : Int) : StoreOp → IncidentSnapshot → Update
  | .upsertFromMecp input, s => (Incident.upsertFromMecp js clock input s).2
  | .recordAck incidentId peerId time, s => Incident.recordAck clock incidentId peerId time s
  | .confirmBeacon incidentId, s => Incident.confirmBeacon clock incidentId s
  | .resolveIncident incidentId time, s => Incident.resolveIncident js clock incidentId time s
  | .markSeen incidentId time, s => Incident.markSeen clock incidentId time s
  | .markAllSeen time, s => Incident.markAllSeen clock time s
  | .clearAll, s => Incident.clearAll s

-- One operation of a run together with the clock it read.
abbrev TimedOp := Int × StoreOp

def step (s : IncidentSnapshot) (op : TimedOp) : IncidentSnapshot :=
  (op.2.update js op.1 s).getD s

def run (s : IncidentSnapshot) (ops : List TimedOp) : IncidentSnapshot := Run.run (step js) s ops

def Reachable (s : IncidentSnapshot) : Prop := Run.Reachable (step js) .empty s

-- One station's message on the radio this client listens to, for runs on concrete inputs.
def heardReport (senderId : String) (severity : Severity) (codes : List String)
    (freetext : String) (receivedAt : Int) : MecpIncidentInput where
  protocol := .meshtastic
  parsed := ⟨some severity, codes, false, some freetext⟩
  senderId := senderId
  receivedAt := some receivedAt

end MeshClient.Incident
