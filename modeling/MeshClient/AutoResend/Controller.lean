import MeshClient.Incident.Types
import MeshClient.Lib.Run

namespace MeshClient.AutoResend

open Incident (MeshProtocol)

def REGULAR_MESSAGE_MAX_AUTO_RESENDS : Nat := 3
def AUTO_RESEND_DELAYS_MS : List Int := [15000, 60000, 180000]
def MAX_TRACKED_OUTBOUND : Nat := 500
def MESHTASTIC_BROADCAST_NODE_NUM : Int := 0xffffffff

def autoResendDelayMs (attempt : Nat) : Int :=
  AUTO_RESEND_DELAYS_MS.getD (min (max attempt 1) AUTO_RESEND_DELAYS_MS.length - 1) 0

inductive MessageStatus where
  | sending
  | acked
  | failed
deriving DecidableEq

-- The fields of a stored message that the automatic resend reads.
structure MessageRecord where
  id : String
  to' : Int := 0
  payload : String := ""
  channelIndex : Int := -1
  status : Option MessageStatus
  tapback : Bool := false
  replyTo : Option String := none
  roomServerId : Option Int := none
  reticulumMessageHash : Option String := none
  reticulumReplyToHash : Option String := none
deriving DecidableEq

-- The string `protocol:messageId`; no protocol's name has a colon in it.
structure AutoResendKey where
  protocol : MeshProtocol
  messageId : String
deriving DecidableEq

structure AutoResendEntry where
  identityId : String
  protocol : MeshProtocol
  messageId : String
  attempt : Nat
  nextAt : Int
deriving DecidableEq

structure TrackedOutbound where
  identityId : String
  protocol : MeshProtocol
  resendsUsed : Nat
  originId : String
deriving DecidableEq

structure SendArgs where
  text : String
  channelIndex : Int
  destination : Option Int
  replyTo : Option String
  retryOfStoreId : String
deriving DecidableEq

inductive Outcome where
  | acked
  | gaveUp
deriving DecidableEq

structure AutoResendOutcome where
  identityId : String
  protocol : MeshProtocol
  originId : String
  outcome : Outcome
deriving DecidableEq

-- What the controller calls that is not spelled out here: whether a text parses as MECP, the
-- number a message id denotes when it is a non-negative integer, and the identity's protocol.
structure Surroundings where
  isMecp : String → Bool
  packetNumber : String → Option Nat
  protocolOf : String → Option MeshProtocol

-- A call of the send function that has not returned yet.
structure ResendCall where
  key : AutoResendKey
  entry : AutoResendEntry
  info : TrackedOutbound
deriving DecidableEq

-- An entry is there exactly as long as its timer is pending, so the timers are not kept apart.
structure Controller where
  messages : String → String → Option MessageRecord
  entries : OrderedMap AutoResendKey AutoResendEntry
  tracked : OrderedMap AutoResendKey TrackedOutbound
  call : Option ResendCall
  running : Bool

inductive Effect where
  | sendFn (key : AutoResendKey) (protocol : MeshProtocol) (args : SendArgs)
  -- The outcome of the send tracked under `key`.
  | emitted (key : AutoResendKey) (outcome : AutoResendOutcome)
  | deleteFailedOutboundMessage (protocol : MeshProtocol) (packetId : Nat)
deriving DecidableEq

def TrackedOutbound.outcome (info : TrackedOutbound) (outcome : Outcome) : AutoResendOutcome :=
  ⟨info.identityId, info.protocol, info.originId, outcome⟩

def trackOutbound (tracked : OrderedMap AutoResendKey TrackedOutbound) (key : AutoResendKey)
    (value : TrackedOutbound) : OrderedMap AutoResendKey TrackedOutbound :=
  if tracked.size ≥ MAX_TRACKED_OUTBOUND ∧ key ∉ tracked.keys then (tracked.drop 1).set key value
  else tracked.set key value

def hasChannelDeliveryAck : MeshProtocol → Bool
  | .meshtastic => true
  | .meshcore => false
  | .reticulum => true

def isMeshtasticBroadcastNodeNum (nodeId : Int) : Bool :=
  nodeId % 2 ^ 32 == MESHTASTIC_BROADCAST_NODE_NUM

def isGroupChannelRecord (message : MessageRecord) : Bool :=
  decide (message.channelIndex ≥ 0) && message.roomServerId.isNone &&
    (message.to' == 0 || isMeshtasticBroadcastNodeNum message.to')

def isAutoResendEligible (env : Surroundings) (protocol : MeshProtocol) (record : MessageRecord) : Bool :=
  !record.tapback && record.roomServerId.isNone && !env.isMecp record.payload &&
    !(isGroupChannelRecord record && !hasChannelDeliveryAck protocol)

def resendArgsFor (record : MessageRecord) : SendArgs :=
  let isChannel := isGroupChannelRecord record || isMeshtasticBroadcastNodeNum record.to'
  { text := record.payload
    channelIndex := record.channelIndex
    destination := if isChannel then none else some record.to'
    replyTo := record.reticulumReplyToHash.or record.replyTo
    retryOfStoreId := record.reticulumMessageHash.getD record.id }

def schedule (s : Controller) (key : AutoResendKey) (info : TrackedOutbound) (now : Int) : Controller :=
  let attempt := info.resendsUsed + 1
  let entry : AutoResendEntry :=
    ⟨info.identityId, info.protocol, key.messageId, attempt, now + autoResendDelayMs attempt⟩
  { s with entries := s.entries.set key entry }

def Controller.clearEntry (s : Controller) (key : AutoResendKey) : Controller :=
  { s with entries := s.entries.erase key }

def Controller.untrack (s : Controller) (key : AutoResendKey) : Controller :=
  { s with tracked := s.tracked.erase key }

-- One tracked send looked at again; `start` holds the entries from before the loop.
def evaluateOne (start : OrderedMap AutoResendKey AutoResendEntry) (now : Int) (s : Controller)
    (key : AutoResendKey) (info : TrackedOutbound) : Controller × List Effect :=
  match s.messages info.identityId key.messageId with
  | none => (s, [])
  | some record =>
      if record.status = some .acked then
        ((s.untrack key).clearEntry key, [.emitted key (info.outcome .acked)])
      else if record.status ≠ some .failed ∨ key ∈ start.keys then (s, [])
      else if info.resendsUsed ≥ REGULAR_MESSAGE_MAX_AUTO_RESENDS then
        (s.untrack key, [.emitted key (info.outcome .gaveUp)])
      else (schedule s key info now, [])

def evaluateAll (start : OrderedMap AutoResendKey AutoResendEntry) (now : Int) :
    Controller → List (AutoResendKey × TrackedOutbound) → Controller × List Effect
  | s, [] => (s, [])
  | s, (key, info) :: rest =>
      let (next, effects) := evaluateOne start now s key info
      let (last, more) := evaluateAll start now next rest
      (last, effects ++ more)

def evaluateTrackedOutbound (s : Controller) (now : Int) : Controller × List Effect :=
  evaluateAll s.entries now s s.tracked.entries

-- A change of the message store, as the controller's subscription sees it.
def Controller.changed (s : Controller) (messages : String → String → Option MessageRecord) (now : Int) :
    Controller × List Effect :=
  if s.running then evaluateTrackedOutbound { s with messages } now else ({ s with messages }, [])

def deleteMessage (s : Controller) (identityId id : String) (now : Int) : Controller × List Effect :=
  if (s.messages identityId id).isNone then (s, [])
  else s.changed (fun identity message =>
    if identity = identityId ∧ message = id then none else s.messages identity message) now

def removeSupersededBubble (env : Surroundings) (s : Controller) (protocol : MeshProtocol)
    (identityId id : String) (now : Int) : Controller × List Effect :=
  if protocol = .reticulum then (s, [])
  else
    let (next, effects) := deleteMessage s identityId id now
    (next, effects ++ (env.packetNumber id).toList.map fun n =>
      .deleteFailedOutboundMessage protocol (n % 2 ^ 32))

-- `fireResend` up to and with the call of the send function.
def fireResend (s : Controller) (key : AutoResendKey) : Controller × List Effect :=
  match s.entries.get? key with
  | none => (s, [])
  | some entry =>
      if ¬s.running then (s.clearEntry key, [])
      else
        match s.messages entry.identityId entry.messageId with
        | none => (s.clearEntry key, [])
        | some record =>
            if record.status ≠ some .failed then (s.clearEntry key, [])
            else
              let info := (s.tracked.get? key).getD
                ⟨entry.identityId, entry.protocol, entry.attempt - 1, entry.messageId⟩
              ({ (s.clearEntry key).untrack key with call := some ⟨key, entry, info⟩ },
                [.sendFn key entry.protocol (resendArgsFor record)])

-- The rest of `fireResend`, once the send function has returned an id or failed.
def finishResend (env : Surroundings) (s : Controller) (call : ResendCall) (newId : Option String) (now : Int) :
    Controller × List Effect :=
  let returned := { s with call := none }
  match newId.filter fun id => id != "" with
  | none => (returned, [.emitted call.key (call.info.outcome .gaveUp)])
  | some newId =>
      let tracking := { returned with
        tracked := trackOutbound returned.tracked ⟨call.entry.protocol, newId⟩
          ⟨call.entry.identityId, call.entry.protocol, call.entry.attempt, call.info.originId⟩ }
      if newId ≠ call.entry.messageId then
        removeSupersededBubble env tracking call.entry.protocol call.entry.identityId call.entry.messageId now
      else (tracking, [])

def cancelAutoResend (s : Controller) (key : AutoResendKey) : Controller := (s.clearEntry key).untrack key

def onRenamed (env : Surroundings) (s : Controller) (identityId fromId toId : String) (now : Int) :
    Controller × List Effect :=
  match env.protocolOf identityId with
  | none => (s, [])
  | some protocol =>
      match s.tracked.get? ⟨protocol, fromId⟩ with
      | none => (s, [])
      | some info =>
          let cleared := (s.untrack ⟨protocol, fromId⟩).clearEntry ⟨protocol, fromId⟩
          let moved := { cleared with tracked := trackOutbound cleared.tracked ⟨protocol, toId⟩ info }
          if (s.entries.get? ⟨protocol, fromId⟩).isSome then evaluateTrackedOutbound moved now
          else (moved, [])

-- The key under which an added message starts to be tracked.
def startsTracking (env : Surroundings) (s : Controller) (identityId : String) (record : MessageRecord) :
    Option AutoResendKey :=
  if record.status ≠ some .sending then none
  else
    (env.protocolOf identityId).bind fun protocol =>
      if isAutoResendEligible env protocol record ∧ ⟨protocol, record.id⟩ ∉ s.tracked.keys then
        some ⟨protocol, record.id⟩
      else none

def onAdded (env : Surroundings) (s : Controller) (identityId : String) (record : MessageRecord) : Controller :=
  match startsTracking env s identityId record with
  | none => s
  | some key =>
      { s with tracked := trackOutbound s.tracked key ⟨identityId, key.protocol, 0, record.id⟩ }

-- While the send function runs only the message store can change; everything else waits.
inductive Event where
  | changed (messages : String → String → Option MessageRecord) (now : Int)
  | added (identityId : String) (record : MessageRecord)
  | renamed (identityId fromId toId : String) (now : Int)
  | timer (key : AutoResendKey)
  -- `none` where the send function throws or returns nothing.
  | sendReturned (newId : Option String) (now : Int)
  | cancel (key : AutoResendKey)
  | started
  | stopped

def Controller.react (env : Surroundings) (s : Controller) : Event → Controller × List Effect
  | .changed messages now => s.changed messages now
  | .added identityId record => if s.running then (onAdded env s identityId record, []) else (s, [])
  | .renamed identityId fromId toId now =>
      if s.running then onRenamed env s identityId fromId toId now else (s, [])
  | .timer key => if s.call.isSome then (s, []) else fireResend s key
  | .sendReturned newId now =>
      match s.call with
      | none => (s, [])
      | some call => finishResend env s call newId now
  | .cancel key => if s.call.isSome then (s, []) else (cancelAutoResend s key, [])
  | .started => if s.call.isSome then (s, []) else ({ s with running := true }, [])
  | .stopped => if s.call.isSome then (s, []) else ({ s with running := false }, [])

open Run
open Incident (MeshProtocol)

-- What happens to a lineage: an original send and the resends that follow it.
inductive Happening where
  | resent (lineage : Nat)
  | ended (lineage : Nat) (outcome : Outcome)
  | cancelled (lineage : Nat)
deriving DecidableEq

-- Which lineage a bubble belongs to. A bubble added while the send function runs, or under an
-- id it returned before, continues the lineage of the resend; any other one starts its own.
structure Lineages where
  of' : AutoResendKey → Nat
  sending : Option Nat
  awaited : List AutoResendKey
  next : Nat
  history : List Happening

def Lineages.start : Lineages := ⟨fun _ => 0, none, [], 0, []⟩

def Lineages.arrived (g : Lineages) (key : AutoResendKey) : Lineages :=
  { g with awaited := g.awaited.filter (· ≠ key) }

def Lineages.assign (g : Lineages) (key : AutoResendKey) (lineage : Nat) : Lineages :=
  { g with of' := Function.update g.of' key lineage }

def Lineages.record (g : Lineages) (happening : Happening) : Lineages :=
  { g with history := g.history ++ [happening] }

def Lineages.noteOne (g : Lineages) : Effect → Lineages
  | .sendFn key _ _ =>
      { (g.arrived key).record (.resent (g.of' key)) with sending := some (g.of' key) }
  | .emitted key outcome => (g.arrived key).record (.ended (g.of' key) outcome.outcome)
  | .deleteFailedOutboundMessage _ _ => g

def Lineages.note (g : Lineages) (effects : List Effect) : Lineages := effects.foldl Lineages.noteOne g

def Lineages.started (g : Lineages) (key : AutoResendKey) : Lineages :=
  match g.sending with
  | some lineage => g.assign key lineage
  | none => if key ∈ g.awaited then g else { g.assign key g.next with next := g.next + 1 }

def Lineages.step (env : Surroundings) (s : Controller) (g : Lineages) (event : Event) : Lineages :=
  let effects := (s.react env event).2
  match event with
  | .changed _ _ => g.note effects
  | .added identityId record =>
      let seen := match if s.running then startsTracking env s identityId record else none with
        | some key => g.started key
        | none => g
      match env.protocolOf identityId with
      | some protocol => seen.arrived ⟨protocol, record.id⟩
      | none => seen
  | .renamed identityId fromId toId _ =>
      match if s.running then env.protocolOf identityId else none with
      | none => g
      | some protocol =>
          if ⟨protocol, fromId⟩ ∈ s.tracked.keys then
            (((g.assign ⟨protocol, toId⟩ (g.of' ⟨protocol, fromId⟩)).arrived ⟨protocol, fromId⟩).arrived
              ⟨protocol, toId⟩).note effects
          else g
  | .timer _ => g.note effects
  | .sendReturned newId _ =>
      match s.call, g.sending with
      | some call, some lineage =>
          let returned := { g with sending := none }
          match newId.filter fun id => id != "" with
          | none => returned.record (.ended lineage .gaveUp)
          | some newId =>
              let assigned := returned.assign ⟨call.entry.protocol, newId⟩ lineage
              let waiting := if (s.messages call.entry.identityId newId).isNone then
                  { assigned with awaited := ⟨call.entry.protocol, newId⟩ :: assigned.awaited }
                else assigned
              waiting.note effects
      | _, _ => g
  | .cancel key =>
      if s.call.isNone ∧ (key ∈ s.tracked.keys ∨ key ∈ s.entries.keys) then
        g.record (.cancelled (g.of' key))
      else g
  | .started => g
  | .stopped => g

structure Resending where
  controller : Controller
  lineages : Lineages

def Resending.start : Resending := ⟨⟨fun _ _ => none, ∅, ∅, none, true⟩, .start⟩

def Resending.step (env : Surroundings) (r : Resending) (event : Event) : Resending :=
  ⟨(r.controller.react env event).1, r.lineages.step env r.controller event⟩

def Happening.endsAs (lineage : Nat) : Happening → Bool
  | .ended l _ => l == lineage
  | _ => false

def Happening.stops (lineage : Nat) : Happening → Bool
  | .ended l outcome => l == lineage && outcome == .acked
  | .cancelled l => l == lineage
  | .resent _ => false

structure Bounded (history : List Happening) : Prop where
  resends : ∀ l, history.count (.resent l) ≤ REGULAR_MESSAGE_MAX_AUTO_RESENDS
  outcomes : ∀ l, history.countP (Happening.endsAs l) ≤ 1
  stopped : ∀ l before after, history = before ++ after → before.any (Happening.stops l) = true →
    .resent l ∉ after

-- Tracking `key` drops no other send to stay under the cap.
def NoDrop (tracked : OrderedMap AutoResendKey TrackedOutbound) (key : AutoResendKey) : Prop :=
  tracked.size < MAX_TRACKED_OUTBOUND ∨ key ∈ tracked.keys

instance (tracked : OrderedMap AutoResendKey TrackedOutbound) (key : AutoResendKey) :
    Decidable (NoDrop tracked key) :=
  inferInstanceAs (Decidable (_ ∨ _))

def statusIs (messages : String → String → Option MessageRecord) (identityId id : String)
    (status : MessageStatus) : Bool :=
  (messages identityId id).any fun record => record.status == some status

-- The tracked bubbles that the running send function has added.
def Resending.ownBubbles (r : Resending) : List (AutoResendKey × TrackedOutbound) :=
  r.controller.tracked.entries.filter fun e => r.lineages.sending == some (r.lineages.of' e.1)

-- The id the send function returned is free, and is the one its bubbles are tracked under.
def Resending.Returns (r : Resending) (call : ResendCall) : Option String → Prop
  | none => r.ownBubbles = []
  | some newId => NoDrop r.controller.tracked ⟨call.entry.protocol, newId⟩ ∧
      ⟨call.entry.protocol, newId⟩ ∉ r.controller.entries.keys ∧
      ∀ e ∈ r.ownBubbles, e.1 = ⟨call.entry.protocol, newId⟩

instance Resending.Returns.decidable (r : Resending) (call : ResendCall) :
    (newId : Option String) → Decidable (r.Returns call newId)
  | none => inferInstanceAs (Decidable (r.ownBubbles = []))
  | some newId => inferInstanceAs (Decidable (NoDrop r.controller.tracked ⟨call.entry.protocol, newId⟩ ∧
      ⟨call.entry.protocol, newId⟩ ∉ r.controller.entries.keys ∧
      ∀ e ∈ r.ownBubbles, e.1 = ⟨call.entry.protocol, newId⟩))

-- The step keeps the two attempt counters of a lineage together.
def Resending.Together (env : Surroundings) (r : Resending) : Event → Prop
  | .changed messages _ => r.controller.running → ∀ e ∈ r.ownBubbles,
      statusIs messages e.2.identityId e.1.messageId .acked = false
  | .added identityId record =>
      ∀ key ∈ startsTracking env r.controller identityId record, NoDrop r.controller.tracked key
  | .renamed identityId fromId toId _ => ∀ protocol ∈ env.protocolOf identityId,
      ⟨protocol, fromId⟩ ∈ r.controller.tracked.keys →
        NoDrop (r.controller.tracked.erase ⟨protocol, fromId⟩) ⟨protocol, toId⟩ ∧
        (fromId = toId ∨ ⟨protocol, toId⟩ ∉ r.controller.entries.keys) ∧
        (⟨protocol, fromId⟩ ∈ r.controller.entries.keys → ∀ e ∈ r.ownBubbles,
          statusIs r.controller.messages e.2.identityId
            (if e.1 = ⟨protocol, fromId⟩ then toId else e.1.messageId) .acked = false)
  | .sendReturned newId _ => ∀ call ∈ r.controller.call, r.Returns call (newId.filter fun id => id != "")
  | .cancel key => key ∉ r.lineages.awaited
  | _ => True

end MeshClient.AutoResend
