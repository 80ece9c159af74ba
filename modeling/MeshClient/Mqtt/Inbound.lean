import MeshClient.Js.Json
import MeshClient.Messages.ChatMessage
import MeshClient.Meshtastic.TextPayload
import MeshClient.Mqtt.ChannelKeys

namespace MeshClient.Mqtt

open Js Meshtastic

namespace PortNum

def UNKNOWN_APP : Nat := 0
def TEXT_MESSAGE_APP : Nat := 1
def POSITION_APP : Nat := 3
def NODEINFO_APP : Nat := 4
def ROUTING_APP : Nat := 5
def DETECTION_SENSOR_APP : Nat := 10
def ALERT_APP : Nat := 11
def PAXCOUNTER_APP : Nat := 34
def TELEMETRY_APP : Nat := 67
def TRACEROUTE_APP : Nat := 70
def MAP_REPORT_APP : Nat := 73

end PortNum

structure Data where
  portnum : Nat := 0
  payload : Bytes := []
  emoji : Nat := 0
  replyId : Nat := 0
deriving DecidableEq, Repr

inductive PayloadVariant where
  | decoded (data : Data)
  | encrypted (bytes : Bytes)
deriving DecidableEq, Repr

structure MeshPacket where
  from' : Nat := 0
  id : Nat := 0
  channel : Nat := 0
  payloadVariant : Option PayloadVariant := none
deriving DecidableEq, Repr

structure ServiceEnvelope where
  packet : Option MeshPacket := none
deriving DecidableEq, Repr

-- The decoders, AES-CTR and the text runtime. An envelope that does not decode gives the error's message.
structure InboundEnv where
  toLowerCase : String → String
  parseJson : Bytes → Option Json
  decodeEnvelope : Bytes → Except String ServiceEnvelope
  decodeData : Bytes → Option Data
  decodesAs : Nat → Bytes → Bool
  decrypt : Psk → (packetId from' : Nat) → Bytes → Option Bytes
  keys : ChannelKeys

structure InboundText where
  sender_id : Nat
  sender_name : String
  payload : String
  channel : Nat
  timestamp : JsonNumber
  packetId : Nat
  from_mqtt : Bool := true
  emoji : Option JsonNumber := none
  replyId : Option JsonNumber := none
  viaStoreForward : Option Bool := none
deriving DecidableEq

-- What the client keeps of the messages of its session; `messages` are the events it gave.
structure InboundState where
  connected : Bool := true
  seenPacketIds : OrderedMap Nat Int := ∅
  badEnvelopeSignatures : OrderedMap String Int := ∅
  messages : List InboundText := []

def MQTT_MAX_PACKET_BYTES : Nat := 1024 * 1024

def DEDUP_TTL_MS : Int := 10 * 60 * 1000

def BAD_ENVELOPE_SIGNATURE_TTL_MS : Int := 10 * 60 * 1000

def BAD_ENVELOPE_SIGNATURE_MAX : Nat := 1000

def MESHTASTIC_MQTT_TOPIC_CHANNEL_MARKERS : List (List Char) := ["/2/e/".toList, "/2/json/".toList]

-- What follows the first place where a text holds another.
def afterFirst (part : List Char) : List Char → Option (List Char)
  | [] => none
  | c :: cs => if part.isPrefixOf (c :: cs) then some ((c :: cs).drop part.length) else afterFirst part cs

def parseMeshtasticMqttTopicChannelName (topic : String) : Option String :=
  (MESHTASTIC_MQTT_TOPIC_CHANNEL_MARKERS.filterMap fun marker =>
    ((afterFirst marker topic.toList).map fun rest => String.ofList (rest.takeWhile (· ≠ '/'))).filter
      (· ≠ "")).head?

def resolveChannelIndexFromTopic (keys : ChannelKeys) (topic : String) : Option Nat :=
  (parseMeshtasticMqttTopicChannelName topic).map fun channelName =>
    (keys.channelNameToIndex.get? channelName).getD 0

def clampMeshtasticRfChannel : JsonNumber → Nat
  | .infinite _ => 0
  | n => min n.toUint32 7

def resolveMqttInboundTextChannelIndex (keys : ChannelKeys) (rfChannel : JsonNumber) (topic : String) : Nat :=
  (resolveChannelIndexFromTopic keys topic).getD (clampMeshtasticRfChannel rfChannel)

-- A field of a protobuf message that counts as missing where it is zero.
def nonZero (n : Nat) : Option JsonNumber := if n = 0 then none else some (.ofNat n)

def isIllegalTagFieldZero (msg : String) : Bool := (afterFirst "field no 0".toList msg.toList).isSome

def hexByte (b : UInt8) : String := String.ofList [Nat.digitChar (b.toNat / 16), Nat.digitChar (b.toNat % 16)]

def signatureFromPayload (topic : String) (bytes : Bytes) : String :=
  let head := String.join ((bytes.take 24).map hexByte)
  let tail := String.join ((bytes.drop (bytes.length - 8)).map hexByte)
  s!"{topic}|{bytes.length}|{head}|{tail}"

section Source

variable (env : InboundEnv)

def acceptsDecryptedDataCandidate (data : Data) : Bool :=
  if data.portnum = PortNum.UNKNOWN_APP then false
  else if data.portnum = PortNum.TEXT_MESSAGE_APP ∨ data.portnum = PortNum.ALERT_APP then
    if (data.emoji : Int) = Messages.MESHTASTIC_TAPBACK_DATA_EMOJI_FLAG then true
    else if data.payload = [] ∧ data.emoji = 0 then false
    else (resolveMeshtasticTextMessagePayload data.payload).isSome
  else if data.portnum = PortNum.NODEINFO_APP ∨ data.portnum = PortNum.POSITION_APP then
    env.decodesAs data.portnum data.payload
  else if data.portnum ∈ [PortNum.TELEMETRY_APP, PortNum.PAXCOUNTER_APP, PortNum.TRACEROUTE_APP,
      PortNum.MAP_REPORT_APP, PortNum.ROUTING_APP] then
    data.payload ≠ [] && env.decodesAs data.portnum data.payload
  else if data.portnum = PortNum.DETECTION_SENSOR_APP then
    data.payload ≠ [] && isLikelyReadableChatText data.payload
  else data.payload ≠ []

def tryDecryptAllKeys (encrypted : Bytes) (packetId from' : Nat) : Option Data :=
  (env.keys.allDecryptKeys.filterMap fun key =>
    ((env.decrypt key packetId from' encrypted).bind env.decodeData).filter
      (acceptsDecryptedDataCandidate env)).head?

-- The `message` event that a packet's data gives; the other ports only update nodes.
def handleDecoded (nodeId packetId : Nat) (data : Data) (rfChannel : Nat) (topic : String) (now : Int) :
    Option InboundText :=
  if (data.portnum = PortNum.TEXT_MESSAGE_APP ∨ data.portnum = PortNum.ALERT_APP) ∧
      (data.payload ≠ [] ∨ data.emoji ≠ 0) then
    (resolveMeshtasticTextMessagePayload data.payload).map fun resolved =>
      { sender_id := nodeId
        sender_name := Messages.formatMeshtasticNodeId nodeId
        payload := resolved.text
        channel := resolveMqttInboundTextChannelIndex env.keys (.ofNat rfChannel) topic
        timestamp := .finite now
        packetId
        emoji := nonZero data.emoji
        replyId := nonZero data.replyId
        viaStoreForward := resolved.viaStoreForward }
  else none

def parseFromNodeId (fromRaw : Option Json) : Option Nat :=
  match fromRaw with
  | some (.number n) => some n.toUint32
  | some (.string fromStr) =>
      let nodeId :=
        match fromStr.toList with
        | '!' :: hex => parseInt (String.ofList hex) 16
        | _ => parseInt fromStr 10
      nodeId.map fun n => (n % 2 ^ 32).toNat
  | _ => none

-- The text of a JSON message, where it has a sender and something that can be shown.
def readJsonText (json : Json) (topic : String) (now : Int) : Option InboundText :=
  (parseFromNodeId (json.get "from")).bind fun nodeId =>
    let jsonPayload := json.get "payload"
    let payloadText := (Json.known (jsonPayload.bind (Json.get "text"))).or (json.get "text")
    let text := (payloadText.bind Json.string?).getD ""
    let emojiRaw := (Json.known (jsonPayload.bind (Json.get "emoji"))).or (json.get "emoji")
    let emoji := (emojiRaw.bind Json.number?).filter fun n => !n.isZero
    let replyIdRaw := (Json.known (jsonPayload.bind (Json.get "replyId"))).or (json.get "replyId")
    let replyId := (replyIdRaw.bind Json.number?).filter fun n => !n.isZero
    if text = "" ∧ emoji = none then none
    else if text ≠ "" ∧ isLikelyReadableChatText (Utf8.encode text.toList) = false then none
    else some
      { sender_id := nodeId
        sender_name := Messages.formatMeshtasticNodeId nodeId
        payload := text
        channel := resolveMqttInboundTextChannelIndex env.keys
          (((json.get "channel").bind Json.number?).getD (.finite 0)) topic
        timestamp := (((json.get "timestamp").bind Json.number?).map (JsonNumber.times 1000)).getD (.finite now)
        packetId := (((json.get "id").bind Json.number?).map JsonNumber.toUint32).getD 0
        emoji
        replyId }

namespace InboundState

variable (s : InboundState)

-- Evicts the older half of the table, by the time the entries expire.
def evictOldestHalf (seen : OrderedMap Nat Int) : OrderedMap Nat Int :=
  let sorted := seen.entries.insertionSort fun a b => a.2 ≤ b.2
  let evicted := (sorted.take (sorted.length / 2)).map Prod.fst
  seen.filter fun id _ => id ∉ evicted

def isDuplicate (packetId : Nat) (now : Int) : Bool × InboundState :=
  let seen := s.seenPacketIds
  let seen := if 10000 < seen.size then seen.filter fun _ expiry => now ≤ expiry else seen
  let seen := if 50000 < seen.size then evictOldestHalf seen else seen
  if (seen.get? packetId).any (now < ·) then (true, { s with seenPacketIds := seen })
  else (false, { s with seenPacketIds := seen.set packetId (now + DEDUP_TTL_MS) })

-- The first of the entries that expire soonest.
def soonest : List (String × Int) → Option (String × Int)
  | [] => none
  | entry :: rest =>
      match soonest rest with
      | some later => if later.2 < entry.2 then some later else some entry
      | none => some entry

def evictSoonest : Nat → OrderedMap String Int → OrderedMap String Int
  | 0, signatures => signatures
  | n + 1, signatures =>
      match soonest signatures.entries with
      | some entry => evictSoonest n (signatures.erase entry.1)
      | none => signatures

def enforceBadEnvelopeSignatureCap (signatures : OrderedMap String Int) (now : Int) : OrderedMap String Int :=
  if signatures.size ≤ BAD_ENVELOPE_SIGNATURE_MAX then signatures
  else
    let signatures := signatures.filter fun _ expiry => now < expiry
    evictSoonest (signatures.size - BAD_ENVELOPE_SIGNATURE_MAX) signatures

def shouldSkipKnownBadEnvelope (topic : String) (bytes : Bytes) (now : Int) : Bool × InboundState :=
  let key := signatureFromPayload topic bytes
  match (s.badEnvelopeSignatures.get? key).filter (· ≠ 0) with
  | some expiry =>
      if now < expiry then (true, s)
      else (false, { s with badEnvelopeSignatures := s.badEnvelopeSignatures.erase key })
  | none => (false, s)

def rememberBadEnvelope (topic : String) (bytes : Bytes) (now : Int) : InboundState :=
  { s with
    badEnvelopeSignatures := enforceBadEnvelopeSignatureCap
      (s.badEnvelopeSignatures.set (signatureFromPayload topic bytes) (now + BAD_ENVELOPE_SIGNATURE_TTL_MS)) now }

def emit (message : Option InboundText) : InboundState := { s with messages := s.messages ++ message.toList }

def handleEnvelope (envelope : ServiceEnvelope) (topic : String) (now : Int) : InboundState :=
  match envelope.packet.filter fun packet => packet.from' ≠ 0 with
  | none => s
  | some packet =>
      let (duplicate, s) := if packet.id ≠ 0 then s.isDuplicate packet.id now else (false, s)
      if duplicate then s
      else
        let rfChannel := clampMeshtasticRfChannel (.ofNat packet.channel)
        match packet.payloadVariant with
        | some (.decoded data) => s.emit (handleDecoded env packet.from' packet.id data rfChannel topic now)
        | some (.encrypted encrypted) =>
            match tryDecryptAllKeys env encrypted packet.id packet.from' with
            | some data => s.emit (handleDecoded env packet.from' packet.id data rfChannel topic now)
            | none => s
        | none => s

def decodeAndHandleServiceEnvelope (bytes : Bytes) (topic : String) (now : Int) : Except String InboundState :=
  (env.decodeEnvelope bytes).map fun envelope => s.handleEnvelope env envelope topic now

-- The retries, as many as there are nulls at the end.
def retryWithoutNulls (topic : String) (now : Int) : Nat → Bytes → Option InboundState
  | 0, _ => none
  | n + 1, bytes =>
      match s.decodeAndHandleServiceEnvelope env bytes.dropLast topic now with
      | .ok s => some s
      | .error msg => if isIllegalTagFieldZero msg then retryWithoutNulls topic now n bytes.dropLast else none

def trailingNulls (bytes : Bytes) : Nat := (bytes.reverse.takeWhile (· = 0)).length

def decodeServiceEnvelopeWithTrailingNullRetry (bytes : Bytes) (topic : String) (now : Int) : InboundState :=
  match s.decodeAndHandleServiceEnvelope env bytes topic now with
  | .ok s => s
  | .error msg =>
      let retried :=
        if isIllegalTagFieldZero msg then s.retryWithoutNulls env topic now (trailingNulls bytes) bytes else none
      retried.getD (s.rememberBadEnvelope topic bytes now)

def handleJsonText (json : Json) (topic : String) (now : Int) : InboundState :=
  match readJsonText env json topic now with
  | none => s
  | some msg =>
      let (duplicate, s) := if msg.packetId ≠ 0 then s.isDuplicate msg.packetId now else (false, s)
      if duplicate then s else s.emit (some msg)

-- The other kinds of message only update nodes.
def handleJsonMessage (json : Json) (topic : String) (now : Int) : InboundState :=
  let type := (((json.get "type").bind Json.string?).map trim).getD ""
  let typeLower := env.toLowerCase type
  if !json.isObject then s
  else if ["longName", "long_name", "shortName", "short_name"].any fun name => (json.get name).isSome then s
  else if typeLower = "text" ∨ typeLower = "alert" then s.handleJsonText env json topic now
  else s

def onMessage (topic : String) (payload : Bytes) (now : Int) : InboundState :=
  if MQTT_MAX_PACKET_BYTES < payload.length then { s with connected := false }
  else
    let bytes := payload.dropWhile (· = 0)
    match bytes.head? with
    | none => s
    | some first =>
        if first = 0x7b then
          match env.parseJson bytes with
          | some parsed => s.handleJsonMessage env parsed topic now
          | none => s
        else if first ≠ 0x0a then s
        else
          let (skip, s) := s.shouldSkipKnownBadEnvelope topic bytes now
          if skip then s else s.decodeServiceEnvelopeWithTrailingNullRetry env bytes topic now

def publishEncryptedData (packetId : Nat) (now : Int) : InboundState :=
  { s with seenPacketIds := s.seenPacketIds.set packetId (now + DEDUP_TTL_MS) }

end InboundState

end Source

end MeshClient.Mqtt
