import MeshClient.Lib.Holdoff
import MeshClient.Incident.Types
import MeshClient.Js.Json

namespace MeshClient.Mecp

open Js
open Incident (MeshProtocol)

inductive LoraProtocol where
  | meshtastic
  | meshcore
deriving DecidableEq

def LoraProtocol.mesh : LoraProtocol → MeshProtocol
  | .meshtastic => .meshtastic
  | .meshcore => .meshcore

def protocolName : MeshProtocol → String
  | .meshtastic => "meshtastic"
  | .meshcore => "meshcore"
  | .reticulum => "reticulum"

inductive MecpReticulumEndpoint where
  | rrc (hubDestHash room : String)
  | lxmf (destinationHash : String)
deriving DecidableEq

inductive MecpRebroadcastEndpoint where
  | lora (protocol : LoraProtocol) (channelIndex : Int)
  | reticulum (endpoint : MecpReticulumEndpoint)
deriving DecidableEq

def MecpRebroadcastEndpoint.protocol : MecpRebroadcastEndpoint → MeshProtocol
  | .lora protocol _ => protocol.mesh
  | .reticulum _ => .reticulum

def MECP_REBROADCAST_ANY_PEER : String := "*"
def RRC_ROOM_MAX : Nat := 64
def FINGERPRINT_TTL_MS : Int := 8 * 60 * 1000
def NOTICE_TOKEN_MAX : Nat := 48

-- `/^[0-9a-f]{32}$/`
def HEX32_RE (s : String) : Bool :=
  decide (s.toList.length = 32) && s.toList.all fun c => isDigit c || ('a' ≤ c && c ≤ 'f')

structure MecpRebroadcastRule where
  id : String
  enabled : Bool
  bidirectional : Bool
  endpointA : MecpRebroadcastEndpoint
  endpointB : MecpRebroadcastEndpoint
deriving DecidableEq

variable (js : Runtime)

def parseReticulumEndpoint (o : Json) : Option MecpReticulumEndpoint :=
  let kind := (o.get "kind").bind Json.string?
  if kind = some "lxmf" then
    ((o.get "destinationHash").bind Json.string?).bind fun destinationHash =>
      let hash := js.toLowerCase (trim destinationHash)
      if hash ≠ MECP_REBROADCAST_ANY_PEER ∧ HEX32_RE hash = false then none else some (.lxmf hash)
  else if kind = some "rrc" then
    ((o.get "hubDestHash").bind Json.string?).bind fun hubDestHash =>
      ((o.get "room").bind Json.string?).bind fun roomText =>
        let hub := js.toLowerCase (trim hubDestHash)
        let room := trim roomText
        if HEX32_RE hub = false ∨ room = "" ∨ RRC_ROOM_MAX < (codeUnits room).length then none
        else some (.rrc hub room)
  else none

def parseLoraEndpoint (protocol : LoraProtocol) (o : Json) : Option MecpRebroadcastEndpoint :=
  match (o.get "channelIndex").bind Json.number? with
  | some (.finite q) =>
      let channelIndex := q.num.tdiv q.den
      if channelIndex < 0 ∨ channelIndex > 7 then none else some (.lora protocol channelIndex)
  | _ => none

def parseEndpoint (raw : Json) : Option MecpRebroadcastEndpoint :=
  let protocol := (raw.get "protocol").bind Json.string?
  if raw.isObject = false then none
  else if protocol = some "reticulum" then (parseReticulumEndpoint js raw).map .reticulum
  else if protocol = some "meshtastic" then parseLoraEndpoint .meshtastic raw
  else if protocol = some "meshcore" then parseLoraEndpoint .meshcore raw
  else none

def isTrue : Option Json → Bool
  | some (.bool true) => true
  | _ => false

def parseRule (item : Json) : Option MecpRebroadcastRule :=
  if item.isObject = false then none
  else
    ((item.get "endpointA").bind (parseEndpoint js)).bind fun endpointA =>
      ((item.get "endpointB").bind (parseEndpoint js)).bind fun endpointB =>
        ((item.get "id").bind Json.string?).bind fun id =>
          if id = "" then none
          else some ⟨id, isTrue (item.get "enabled"), isTrue (item.get "bidirectional"), endpointA, endpointB⟩

-- `undefined` is `none`.
def parseMecpRebroadcastRules : Option Json → List MecpRebroadcastRule
  | some (.array items) => items.filterMap (parseRule js)
  | _ => []

inductive DestChannel where
  | index (n : Int)
  | text (s : String)
deriving DecidableEq

def DestChannel.toString : DestChannel → String
  | .index n => n.repr
  | .text s => s

def pruneFingerprints (fingerprintSeenAt : OrderedMap String Int) (now : Int) : OrderedMap String Int :=
  fingerprintSeenAt.filter fun _ ts => !decide (now - ts > FINGERPRINT_TTL_MS)

def fingerprintKey (payload destProtocol : String) (destChannel : DestChannel) : String :=
  destProtocol ++ ":" ++ destChannel.toString ++ ":" ++ payload

def mecpEndpointKey : MecpRebroadcastEndpoint → DestChannel
  | .lora _ channelIndex => .index channelIndex
  | .reticulum (.rrc hubDestHash room) => .text ("rrc:" ++ hubDestHash ++ ":" ++ js.toLowerCase room)
  | .reticulum (.lxmf destinationHash) => .text ("lxmf:" ++ destinationHash)

structure MecpRebroadcastCandidate where
  protocol : MeshProtocol
  channelIndex : Int
  payload : String
  receivedVia : Option String := none
  isOwn : Bool := false
  isDrill : Bool := false
  isHistory : Bool := false
  viaStoreForward : Bool := false
  reticulumSenderHash : Option String := none
deriving DecidableEq

structure MecpRebroadcastSendTarget where
  protocol : MeshProtocol
  channelIndex : Int
  reticulum : Option MecpReticulumEndpoint
  ruleId : String
  bidirectional : Bool
  fromProtocol : MeshProtocol
  fromChannel : Int
deriving DecidableEq

-- `value.replace(/[\r\n\t]+/g, ' ')`
def collapseBreaks (inBreaks : Bool) : List Char → List Char
  | [] => []
  | c :: cs =>
      if c ∈ ['\r', '\n', '\t'] then
        if inBreaks then collapseBreaks true cs else ' ' :: collapseBreaks true cs
      else c :: collapseBreaks false cs

-- The characters that lie whole in the first `n` code units.
def takeUnits (n : Nat) : List Char → List Char
  | [] => []
  | c :: cs => if n < (charCodes c).length then [] else c :: takeUnits (n - (charCodes c).length) cs

def sanitizeNoticeToken (value : String) : String :=
  String.ofList (takeUnits NOTICE_TOKEN_MAX
    (trim (collapseSpaces (String.ofList (collapseBreaks false value.toList)))).toList)

def formatMecpRebroadcastNotice (senderLabel : String) (fromProtocol : MeshProtocol)
    (fromChannelName : String) : String :=
  let sender := if sanitizeNoticeToken senderLabel = "" then "unknown" else sanitizeNoticeToken senderLabel
  let channel :=
    if sanitizeNoticeToken fromChannelName = "" then "unnamed" else sanitizeNoticeToken fromChannelName
  let protocolLabel := match fromProtocol with
    | .meshtastic => "Meshtastic"
    | .reticulum => "Reticulum"
    | .meshcore => "MeshCore"
  "MECP from " ++ sender ++ " via " ++ protocolLabel ++ " (" ++ channel ++ ")"

-- `/MECP\/[0-3]\//` at the front.
def matchesMecp : List Char → Bool
  | 'M' :: 'E' :: 'C' :: 'P' :: '/' :: severity :: '/' :: _ => severity ∈ ['0', '1', '2', '3']
  | _ => false

-- `/^MECP\/[0-3]\//.test(text)`
def MECP_REGEX (text : String) : Bool := matchesMecp text.toList

def endpointMatchesCandidate (endpoint : MecpRebroadcastEndpoint)
    (candidate : MecpRebroadcastCandidate) : Bool :=
  match endpoint with
  | .lora protocol channelIndex =>
      decide (protocol.mesh = candidate.protocol) && decide (channelIndex = candidate.channelIndex)
  | .reticulum (.rrc _ _) => false
  | .reticulum (.lxmf destinationHash) =>
      decide (candidate.protocol = .reticulum) &&
        (decide (destinationHash = MECP_REBROADCAST_ANY_PEER) ||
          decide (candidate.reticulumSenderHash.map js.toLowerCase = some destinationHash))

def ruleDest (candidate : MecpRebroadcastCandidate) (rule : MecpRebroadcastRule) :
    Option MecpRebroadcastEndpoint :=
  if endpointMatchesCandidate js rule.endpointA candidate then some rule.endpointB
  else if endpointMatchesCandidate js rule.endpointB candidate && rule.bidirectional then
    some rule.endpointA
  else none

-- A wildcard is nowhere to send to, and a report does not go back to the peer it came from.
def concrete (candidate : MecpRebroadcastCandidate) : MecpRebroadcastEndpoint → Bool
  | .reticulum (.lxmf destinationHash) =>
      decide (destinationHash ≠ MECP_REBROADCAST_ANY_PEER) &&
        decide (candidate.reticulumSenderHash.map js.toLowerCase ≠ some destinationHash)
  | _ => true

def sendTarget (candidate : MecpRebroadcastCandidate) (rule : MecpRebroadcastRule)
    (dest : MecpRebroadcastEndpoint) : MecpRebroadcastSendTarget where
  protocol := dest.protocol
  channelIndex := match dest with
    | .lora _ channelIndex => channelIndex
    | .reticulum _ => 0
  reticulum := match dest with
    | .lora _ _ => none
    | .reticulum endpoint => some endpoint
  ruleId := rule.id
  bidirectional := rule.bidirectional
  fromProtocol := candidate.protocol
  fromChannel := candidate.channelIndex

structure Resolved where
  fingerprintSeenAt : OrderedMap String Int
  targets : List MecpRebroadcastSendTarget
deriving DecidableEq

def resolveRule (candidate : MecpRebroadcastCandidate) (now : Int) (acc : Resolved)
    (rule : MecpRebroadcastRule) : Resolved :=
  if rule.enabled = false then acc
  else
    match ruleDest js candidate rule with
    | none => acc
    | some dest =>
        if concrete js candidate dest = false then acc
        else
          let seen := pruneFingerprints acc.fingerprintSeenAt now
          let fp := fingerprintKey candidate.payload (protocolName dest.protocol) (mecpEndpointKey js dest)
          if (seen.get? fp).isSome then ⟨seen, acc.targets⟩
          else ⟨seen.set fp now, acc.targets ++ [sendTarget candidate rule dest]⟩

def MecpRebroadcastCandidate.eligible (candidate : MecpRebroadcastCandidate) : Bool :=
  !candidate.isOwn && !candidate.isDrill && !(candidate.isHistory || candidate.viaStoreForward) &&
    decide (candidate.receivedVia.getD "rf" ≠ "mqtt")

def resolveMecpRebroadcastTargets (fingerprintSeenAt : OrderedMap String Int)
    (candidate : MecpRebroadcastCandidate) (rules : List MecpRebroadcastRule) (now : Int) : Resolved :=
  if candidate.eligible then rules.foldl (resolveRule js candidate now) ⟨fingerprintSeenAt, []⟩
  else ⟨fingerprintSeenAt, []⟩

end MeshClient.Mecp
