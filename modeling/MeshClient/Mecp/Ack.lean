import MeshClient.Incident.Types

namespace MeshClient.Mecp

open Incident

def MECP_ACK_CODE : String := "R01"
def MECP_BEACON_CODE : String := "B01"
def MECP_BEACON_ACK_CODE : String := "B02"
def MECP_BEACON_CANCEL_CODE : String := "B03"

def ACK_MARKER_CODES : List String :=
  [MECP_ACK_CODE, MECP_BEACON_ACK_CODE, MECP_BEACON_CANCEL_CODE]

def isGeneralAck (codes : List String) : Bool := codes.contains MECP_ACK_CODE

def echoedAckCodes (codes : List String) : List String :=
  Lists.unique (codes.filter fun c => !ACK_MARKER_CODES.contains c)

def codeOverlap (codes : List String) (inc : EmergencyIncident) : Nat :=
  ((echoedAckCodes codes).filter fun c => inc.codes.contains c).length

def beaconMatch (codes : List String) (inc : EmergencyIncident) : Bool :=
  isBeaconAck codes && inc.beaconActive

-- False where the loop over the rows continues with the next one.
def isAckCandidate (codes : List String) (ackSender : Option String) (inc : EmergencyIncident) :
    Bool :=
  let echoed := echoedAckCodes codes
  inc.status ≠ .resolved &&
    !(ackSender ≠ some "" && ackSender = some inc.senderId) &&
    !(0 < echoed.length && codeOverlap codes inc = 0 && !beaconMatch codes inc) &&
    !(isBeaconAck codes && echoed.length = 0 && !inc.beaconActive)

def ackScore (severity : Severity) (codes : List String) (preferSender : Option String)
    (inc : EmergencyIncident) : Nat :=
  let echoed := echoedAckCodes codes
  let overlap := codeOverlap codes inc
  (if preferSender = some inc.senderId then 1000 else 0) +
    (if beaconMatch codes inc then 200 else 0) +
    (if 0 < echoed.length ∧ overlap = echoed.length ∧ overlap = inc.codes.length then 100 else 0) +
    overlap * 10 +
    (if inc.severity = severity then 5 else 0)

def betterAck (score : EmergencyIncident → Nat) (best : Option EmergencyIncident)
    (inc : EmergencyIncident) : Option EmergencyIncident :=
  match best with
  | none => some inc
  | some chosen =>
      if score chosen < score inc ∨
          (score inc = score chosen ∧ chosen.lastSeenAt < inc.lastSeenAt)
      then some inc else some chosen

-- `preferSenderId` names the original distress sender, as `opts.preferSenderId` does.
def findOpenIncidentForAck (incidents : List EmergencyIncident) (severity : Severity)
    (codes : List String) (ackSender preferSenderId : Option String) : Option EmergencyIncident :=
  let preferSender := preferSenderId.filter fun id => id ≠ "" ∧ some id ≠ ackSender
  (incidents.filter (isAckCandidate codes ackSender)).foldl
    (betterAck (ackScore severity codes preferSender)) none

theorem betterAck_mem {score : EmergencyIncident → Nat} {best : Option EmergencyIncident}
    {inc chosen : EmergencyIncident} (h : betterAck score best inc = some chosen) :
    chosen = inc ∨ best = some chosen := by
  cases best with
  | none => exact .inl (Option.some.inj h).symm
  | some old =>
      simp only [betterAck] at h
      split at h
      · exact .inl (Option.some.inj h).symm
      · exact .inr h

theorem foldl_betterAck_mem {score : EmergencyIncident → Nat} {best : Option EmergencyIncident}
    {candidates : List EmergencyIncident} {chosen : EmergencyIncident}
    (h : candidates.foldl (betterAck score) best = some chosen) :
    chosen ∈ candidates ∨ best = some chosen := by
  induction candidates generalizing best with
  | nil => exact .inr h
  | cons inc rest ih =>
      rcases ih h with hm | hb
      · exact .inl (List.mem_cons_of_mem _ hm)
      · rcases betterAck_mem hb with rfl | hb
        · exact .inl List.mem_cons_self
        · exact .inr hb

-- The row an acknowledgement is given to is in the list, still unresolved, and not one the
-- acknowledging station raised itself.
theorem findOpenIncidentForAck_some {incidents : List EmergencyIncident} {severity : Severity}
    {codes : List String} {ackSender preferSenderId : Option String} {inc : EmergencyIncident}
    (h : findOpenIncidentForAck incidents severity codes ackSender preferSenderId = some inc) :
    inc ∈ incidents ∧ inc.status ≠ .resolved ∧
      (ackSender ≠ some "" → ackSender ≠ some inc.senderId) := by
  have hm := (foldl_betterAck_mem h).resolve_right (by simp)
  obtain ⟨hm, hc⟩ := List.mem_filter.mp hm
  simp only [isAckCandidate, Bool.and_eq_true, decide_eq_true_eq, Bool.not_eq_true',
    Bool.and_eq_false_imp, decide_eq_false_iff_not] at hc
  exact ⟨hm, hc.1.1.1, hc.1.1.2⟩

end MeshClient.Mecp
