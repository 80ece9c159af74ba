import MeshClient.Js.Text
import MeshClient.Messages.Store

namespace MeshClient.Messages

open Js

-- A number of the runtime: `none` is NaN, which equals nothing.
abbrev JsNumber := Option ℚ

def sameNumber (a b : JsNumber) : Bool := a.isSome && a = b

-- The parts of the runtime that the chat helpers call: case mapping, numbers and their texts, and what
-- Unicode says about graphemes and emoji.
structure ChatRuntime where
  toLowerCase : String → String
  toNumber : String → JsNumber
  numberText : JsNumber → String
  graphemes : String → List String
  isReactionPickerEmojiGlyph : String → Bool

inductive ChatStatus where
  | sending
  | acked
  | failed
  | queued
  | blocked
deriving DecidableEq, Repr

structure ChatMessage where
  id : Option JsNumber := none
  storeId : Option String := none
  sender_id : Int
  reticulum_sender_hash : Option String := none
  reticulum_message_hash : Option String := none
  reticulum_reply_to_hash : Option String := none
  sender_name : String
  payload : String
  channel : Int
  timestamp : Int
  localOrder : Option Int := none
  packetId : Option JsNumber := none
  status : Option ChatStatus := none
  mqttStatus : Option MessageStatus := none
  error : Option String := none
  emoji : Option Int := none
  replyId : Option JsNumber := none
  to' : Option Int := none
  receivedVia : Option MessageTransport := none
  isHistory : Option Bool := none
  meshcoreDedupeKey : Option String := none
  replyPreviewText : Option String := none
  replyPreviewSender : Option String := none
  rxHops : Option Int := none
  rxSnr : Option ℚ := none
  rxRssi : Option ℚ := none
  rxRadioTransport : Option RxRadioTransport := none
  viaStoreForward : Option Bool := none
  roomServerId : Option Int := none
  channelKey : Option String := none
  radioNodeId : Option Int := none
deriving DecidableEq

inductive ChatField where
  | id | storeId | reticulum_sender_hash | reticulum_message_hash | reticulum_reply_to_hash | localOrder
  | packetId | status | mqttStatus | error | emoji | replyId | to' | receivedVia | isHistory
  | meshcoreDedupeKey | replyPreviewText | replyPreviewSender | rxHops | rxSnr | rxRssi | rxRadioTransport
  | viaStoreForward | roomServerId | channelKey | radioNodeId
deriving DecidableEq, Repr

-- A message as a caller passes it, with the keys that are there but undefined.
structure IncomingChat where
  message : ChatMessage
  undefinedKeys : List ChatField := []
deriving DecidableEq

def spreadField {α : Type} (incoming : IncomingChat) (f : ChatField) (own existing : Option α) : Option α :=
  own.or (if f ∈ incoming.undefinedKeys then none else existing)

-- `{ ...existing, ...incoming }`
def spreadChat (existing : ChatMessage) (incoming : IncomingChat) : ChatMessage :=
  let own := incoming.message
  { id := spreadField incoming .id own.id existing.id
    storeId := spreadField incoming .storeId own.storeId existing.storeId
    sender_id := own.sender_id
    reticulum_sender_hash :=
      spreadField incoming .reticulum_sender_hash own.reticulum_sender_hash existing.reticulum_sender_hash
    reticulum_message_hash :=
      spreadField incoming .reticulum_message_hash own.reticulum_message_hash existing.reticulum_message_hash
    reticulum_reply_to_hash :=
      spreadField incoming .reticulum_reply_to_hash own.reticulum_reply_to_hash existing.reticulum_reply_to_hash
    sender_name := own.sender_name
    payload := own.payload
    channel := own.channel
    timestamp := own.timestamp
    localOrder := spreadField incoming .localOrder own.localOrder existing.localOrder
    packetId := spreadField incoming .packetId own.packetId existing.packetId
    status := spreadField incoming .status own.status existing.status
    mqttStatus := spreadField incoming .mqttStatus own.mqttStatus existing.mqttStatus
    error := spreadField incoming .error own.error existing.error
    emoji := spreadField incoming .emoji own.emoji existing.emoji
    replyId := spreadField incoming .replyId own.replyId existing.replyId
    to' := spreadField incoming .to' own.to' existing.to'
    receivedVia := spreadField incoming .receivedVia own.receivedVia existing.receivedVia
    isHistory := spreadField incoming .isHistory own.isHistory existing.isHistory
    meshcoreDedupeKey :=
      spreadField incoming .meshcoreDedupeKey own.meshcoreDedupeKey existing.meshcoreDedupeKey
    replyPreviewText := spreadField incoming .replyPreviewText own.replyPreviewText existing.replyPreviewText
    replyPreviewSender :=
      spreadField incoming .replyPreviewSender own.replyPreviewSender existing.replyPreviewSender
    rxHops := spreadField incoming .rxHops own.rxHops existing.rxHops
    rxSnr := spreadField incoming .rxSnr own.rxSnr existing.rxSnr
    rxRssi := spreadField incoming .rxRssi own.rxRssi existing.rxRssi
    rxRadioTransport := spreadField incoming .rxRadioTransport own.rxRadioTransport existing.rxRadioTransport
    viaStoreForward := spreadField incoming .viaStoreForward own.viaStoreForward existing.viaStoreForward
    roomServerId := spreadField incoming .roomServerId own.roomServerId existing.roomServerId
    channelKey := spreadField incoming .channelKey own.channelKey existing.channelKey
    radioNodeId := spreadField incoming .radioNodeId own.radioNodeId existing.radioNodeId }

def MESHTASTIC_TAPBACK_DATA_EMOJI_FLAG : Int := 1

def REACTION_EMOJI_CODES : List Int :=
  [128077, 10084, 128514, 128078, 127881, 128558, 128546, 128075, 128591, 128293, 9989, 129300]

def formatMeshtasticNodeId (nodeId : Int) : String :=
  let digits := Nat.toDigits 16 (nodeId % 0x100000000).toNat
  "!" ++ String.ofList (List.replicate (8 - digits.length) '0' ++ digits)

section

variable (rt : ChatRuntime)

def firstGraphemeCluster (text : String) : Option String :=
  let trimmed := trim text
  if trimmed = "" then none
  else match rt.graphemes trimmed with
    | [segment] => some segment
    | _ => none

def codePointAt0 (s : String) : Option Int := s.toList.head?.map fun c => (c.toNat : Int)

-- What the wire's value alone stands for: an entry of the standard set, or a code point.
def wireReactionEmoji (wireEmoji : Option Int) : Option Int :=
  wireEmoji.bind fun wire =>
    if 1 ≤ wire ∧ wire ≤ REACTION_EMOJI_CODES.length then REACTION_EMOJI_CODES[wire.toNat - 1]?
    else if wire < 1 ∨ wire > 0x10ffff then none
    else some wire

def legacyReactionCode (wireEmoji : Option Int) : Option Int :=
  wireEmoji.bind fun wire =>
    if 1 ≤ wire ∧ wire ≤ REACTION_EMOJI_CODES.length then REACTION_EMOJI_CODES[wire.toNat - 1]? else none

def normalizeReactionEmoji (wireEmoji : Option Int) (payloadUtf8 : String) : Option Int :=
  let trimmed := trim payloadUtf8
  let cp := if trimmed = "" then none else codePointAt0 ((firstGraphemeCluster rt trimmed).getD trimmed)
  match cp with
  | none => wireReactionEmoji wireEmoji
  | some cp =>
      if wireEmoji = some MESHTASTIC_TAPBACK_DATA_EMOJI_FLAG ∨ legacyReactionCode wireEmoji ≠ some cp then some cp
      else wireReactionEmoji wireEmoji

-- Both come from a value that may be an empty text, which counts as none.
def nonEmpty (s : Option String) : Option String := s.filter fun text => text ≠ ""

def statusToChat : MessageStatus → ChatStatus
  | .sending => .sending
  | .acked => .acked
  | .failed => .failed

def statusToRecord : ChatStatus → Option MessageStatus
  | .sending => some .sending
  | .acked => some .acked
  | .failed => some .failed
  | _ => none

def isDigits (s : String) : Bool := s ≠ "" && s.toList.all isDigit

def messageRecordToChatMessage (record : MessageRecord) : ChatMessage :=
  let packetId := if isDigits record.id then some (rt.toNumber record.id) else none
  { id := packetId
    storeId := if packetId.isNone then some record.id else none
    sender_id := record.from'
    sender_name :=
      ((record.senderName.map trim).filter fun name => name ≠ "").getD
        (if 0 < record.from' then formatMeshtasticNodeId record.from' else "")
    payload := record.payload
    channel := record.channelIndex
    timestamp := record.timestamp
    localOrder := record.localOrder
    packetId
    status := record.status.map statusToChat
    mqttStatus := record.mqttStatus
    receivedVia := record.receivedVia
    isHistory := record.isHistory
    error := record.error
    to' := if isMeshtasticBroadcastNodeNum record.to' then none else some record.to'
    reticulum_sender_hash := nonEmpty record.reticulumSenderHash
    reticulum_message_hash := nonEmpty record.reticulumMessageHash
    reticulum_reply_to_hash := nonEmpty record.reticulumReplyToHash
    emoji :=
      if record.tapback = some true then
        normalizeReactionEmoji rt (some MESHTASTIC_TAPBACK_DATA_EMOJI_FLAG) record.payload
      else none
    replyId := if record.reticulumReplyToHash.isNone then record.replyTo.map rt.toNumber else none
    replyPreviewText := record.replyPreviewText
    replyPreviewSender := record.replyPreviewSender
    rxHops := record.rxHops.or record.hopCount
    rxSnr := record.rxSnr
    rxRssi := record.rxRssi
    rxRadioTransport := record.rxRadioTransport
    viaStoreForward := record.viaStoreForward.filter id
    roomServerId := record.roomServerId
    channelKey := nonEmpty record.channelKey
    radioNodeId := record.radioNodeId
    meshcoreDedupeKey := nonEmpty record.meshcoreDedupeKey }

def chatRecordId (msg : ChatMessage) : String :=
  ((msg.storeId.or msg.reticulum_message_hash).or (msg.packetId.map rt.numberText)).getD
    s!"{msg.sender_id}-{msg.timestamp}-{msg.channel}"

def chatRecord (msg : ChatMessage) : MessageRecord where
  id := chatRecordId rt msg
  from' := msg.sender_id
  senderName := some msg.sender_name
  to' := (msg.to'.filter fun to' => !isMeshtasticBroadcastNodeNum to').getD MESHTASTIC_BROADCAST_NODE_NUM
  payload := msg.payload
  channelIndex := msg.channel
  timestamp := msg.timestamp
  localOrder := msg.localOrder
  status := msg.status.bind statusToRecord
  mqttStatus := msg.mqttStatus
  receivedVia := msg.receivedVia
  isHistory := msg.isHistory
  error := msg.error
  tapback := msg.emoji.map fun _ => true
  replyTo := msg.reticulum_reply_to_hash.or (msg.replyId.map rt.numberText)
  replyPreviewText := msg.replyPreviewText
  replyPreviewSender := msg.replyPreviewSender
  rxHops := msg.rxHops
  rxSnr := msg.rxSnr
  rxRssi := msg.rxRssi
  rxRadioTransport := msg.rxRadioTransport
  viaStoreForward := msg.viaStoreForward.filter id
  reticulumMessageHash := nonEmpty msg.reticulum_message_hash
  reticulumSenderHash := nonEmpty msg.reticulum_sender_hash
  reticulumReplyToHash := nonEmpty msg.reticulum_reply_to_hash
  roomServerId := msg.roomServerId
  channelKey := nonEmpty msg.channelKey
  radioNodeId := msg.radioNodeId
  meshcoreDedupeKey := nonEmpty msg.meshcoreDedupeKey

-- The keys that the object has even where they are undefined.
def CHAT_RECORD_KEYS : List MessageField :=
  [.id, .from', .senderName, .to', .payload, .channelIndex, .timestamp, .localOrder, .status, .mqttStatus,
    .receivedVia, .isHistory, .error, .tapback, .replyTo, .replyPreviewText, .replyPreviewSender]

def chatMessageToMessageRecord (msg : ChatMessage) : MessageWrite where
  record := chatRecord rt msg
  has f := f ∈ CHAT_RECORD_KEYS || ((chatRecord rt msg).get f).isSome
  required f h := by
    simp only [MessageField.Required, List.mem_cons, List.not_mem_nil, or_false] at h
    obtain rfl | rfl | rfl | rfl | rfl | rfl := h <;> rfl
  absent f h := by
    rw [Bool.or_eq_false_iff] at h
    simpa using h.2

def MessageWrite.withId (message : MessageWrite) (id : String) : MessageWrite where
  record := { message.record with id }
  has := message.has
  required := message.required
  absent f h := by
    have hnone := message.absent f h
    cases f with
    | id => cases hnone
    | _ => exact hnone

end

end MeshClient.Messages
