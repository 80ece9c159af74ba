import MeshClient.Lib.OrderedMap
import MeshClient.Mecp.Messages

namespace MeshClient.Incident

open Mecp

inductive MeshProtocol where
  | meshtastic
  | meshcore
  | reticulum
deriving DecidableEq

inductive IncidentStatus where
  | «open»
  | acked
  | resolved
deriving DecidableEq

inductive CoordsSource where
  | message
  | lastKnown
deriving DecidableEq

inductive IncidentEventKind where
  | received
  | relayHeard
  | ackHeard
  | ackSent
  | beaconConfirmed
  | beaconCancelled
  | resolved
  | reopened
deriving DecidableEq

-- Times are milliseconds since the epoch, as message clocks and `Date.now()` give them.
structure IncidentEvent where
  «at» : Int
  kind : IncidentEventKind
  peerId : Option String := none
  protocol : Option MeshProtocol := none
deriving DecidableEq

-- An optional property is an `Option`: absent and `undefined` are both `none`, since
-- neither survives a save. `channel` and `coordsSource` use `none` for their `null`.
structure EmergencyIncident where
  id : String
  protocol : MeshProtocol
  protocolsSeen : List MeshProtocol
  severity : Severity
  codes : List String
  freetext : String
  senderId : String
  senderName : String
  relaySenderIds : Option (List String) := none
  channel : Option String
  receivedAt : Int
  lastSeenAt : Int
  lat : Option ℚ
  lon : Option ℚ
  coordsSource : Option CoordsSource
  messageIds : List String
  ackCount : Nat
  ackPeerIds : List String
  beaconActive : Bool
  beaconAcked : Bool
  localOrigin : Option Bool := none
  beaconCancelToNode : Option Int := none
  isDrill : Bool
  status : IncidentStatus
  resolvedAt : Option Int := none
  seenAt : Option Int := none
  events : Option (List IncidentEvent)
deriving DecidableEq

abbrev Incidents := OrderedMap String EmergencyIncident

abbrev Tombstones := OrderedMap String Int

structure IncidentSnapshot where
  incidents : Incidents
  resolvedTombstones : Tombstones
deriving DecidableEq

namespace IncidentSnapshot

def empty : IncidentSnapshot := ⟨∅, ∅⟩

end IncidentSnapshot

def isUnresolved (inc : EmergencyIncident) : Bool := inc.status ≠ .resolved

@[simp] theorem isUnresolved_iff (inc : EmergencyIncident) :
    isUnresolved inc = true ↔ inc.status ≠ .resolved := by simp [isUnresolved]

-- `after` has an event of this kind later than `time`.
def hasEventAfter (kind : IncidentEventKind) (time : Int) (inc : EmergencyIncident) : Bool :=
  (inc.events.getD []).any fun event => event.kind = kind && time < event.at

end MeshClient.Incident
