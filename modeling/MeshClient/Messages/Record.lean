import MeshClient.Lib.OrderedMap

namespace MeshClient.Messages

inductive MessageStatus where
  | sending
  | acked
  | failed
deriving DecidableEq, Repr

-- The last are the `+`-joined egress routes.
inductive MessageTransport where
  | rf
  | ble
  | mqtt
  | both
  | tcp
  | network
  | paper
  | joined (routes : String)
deriving DecidableEq, Repr

inductive RxRadioTransport where
  | rf
  | ble
deriving DecidableEq, Repr

inductive ReticulumDeliveryMethod where
  | direct
  | propagated
  | opportunistic
  | paper
  | storedLocally
deriving DecidableEq, Repr

inductive AttachmentKind where
  | image
  | audio
deriving DecidableEq, Repr

structure MessageRecord where
  id : String
  from' : Int
  senderName : Option String := none
  to' : Int
  payload : String
  channelIndex : Int
  timestamp : Int
  localOrder : Option Int := none
  rxSnr : Option ℚ := none
  rxRssi : Option ℚ := none
  rxRadioTransport : Option RxRadioTransport := none
  hopCount : Option Int := none
  rxHops : Option Int := none
  tapback : Option Bool := none
  replyTo : Option String := none
  replyPreviewText : Option String := none
  replyPreviewSender : Option String := none
  status : Option MessageStatus := none
  mqttStatus : Option MessageStatus := none
  receivedVia : Option MessageTransport := none
  isHistory : Option Bool := none
  error : Option String := none
  roomServerId : Option Int := none
  reticulumMessageHash : Option String := none
  reticulumSenderHash : Option String := none
  reticulumReplyToHash : Option String := none
  reticulumDeliveryMethod : Option ReticulumDeliveryMethod := none
  reticulumDeliveryAttempts : Option Int := none
  reticulumAttachmentPath : Option String := none
  reticulumAttachmentKind : Option AttachmentKind := none
  reticulumAudioMode : Option Int := none
  reticulumAudioDurationSec : Option ℚ := none
  viaStoreForward : Option Bool := none
  channelKey : Option String := none
  radioNodeId : Option Int := none
  meshcoreDedupeKey : Option String := none
deriving DecidableEq

inductive MessageField where
  | id | from' | senderName | to' | payload | channelIndex | timestamp | localOrder | rxSnr | rxRssi
  | rxRadioTransport | hopCount | rxHops | tapback | replyTo | replyPreviewText | replyPreviewSender | status
  | mqttStatus | receivedVia | isHistory | error | roomServerId | reticulumMessageHash | reticulumSenderHash
  | reticulumReplyToHash | reticulumDeliveryMethod | reticulumDeliveryAttempts | reticulumAttachmentPath
  | reticulumAttachmentKind | reticulumAudioMode | reticulumAudioDurationSec | viaStoreForward | channelKey
  | radioNodeId | meshcoreDedupeKey
deriving DecidableEq, Repr

-- What a field can hold; an absent or undefined field holds nothing.
inductive FieldValue where
  | text (s : String)
  | int (n : Int)
  | ratio (q : ℚ)
  | flag (b : Bool)
  | status (s : MessageStatus)
  | transport (t : MessageTransport)
  | radio (r : RxRadioTransport)
  | delivery (m : ReticulumDeliveryMethod)
  | attachment (k : AttachmentKind)
deriving DecidableEq

def MessageRecord.get (r : MessageRecord) : MessageField → Option FieldValue
  | .id => some (.text r.id)
  | .from' => some (.int r.from')
  | .senderName => r.senderName.map .text
  | .to' => some (.int r.to')
  | .payload => some (.text r.payload)
  | .channelIndex => some (.int r.channelIndex)
  | .timestamp => some (.int r.timestamp)
  | .localOrder => r.localOrder.map .int
  | .rxSnr => r.rxSnr.map .ratio
  | .rxRssi => r.rxRssi.map .ratio
  | .rxRadioTransport => r.rxRadioTransport.map .radio
  | .hopCount => r.hopCount.map .int
  | .rxHops => r.rxHops.map .int
  | .tapback => r.tapback.map .flag
  | .replyTo => r.replyTo.map .text
  | .replyPreviewText => r.replyPreviewText.map .text
  | .replyPreviewSender => r.replyPreviewSender.map .text
  | .status => r.status.map .status
  | .mqttStatus => r.mqttStatus.map .status
  | .receivedVia => r.receivedVia.map .transport
  | .isHistory => r.isHistory.map .flag
  | .error => r.error.map .text
  | .roomServerId => r.roomServerId.map .int
  | .reticulumMessageHash => r.reticulumMessageHash.map .text
  | .reticulumSenderHash => r.reticulumSenderHash.map .text
  | .reticulumReplyToHash => r.reticulumReplyToHash.map .text
  | .reticulumDeliveryMethod => r.reticulumDeliveryMethod.map .delivery
  | .reticulumDeliveryAttempts => r.reticulumDeliveryAttempts.map .int
  | .reticulumAttachmentPath => r.reticulumAttachmentPath.map .text
  | .reticulumAttachmentKind => r.reticulumAttachmentKind.map .attachment
  | .reticulumAudioMode => r.reticulumAudioMode.map .int
  | .reticulumAudioDurationSec => r.reticulumAudioDurationSec.map .ratio
  | .viaStoreForward => r.viaStoreForward.map .flag
  | .channelKey => r.channelKey.map .text
  | .radioNodeId => r.radioNodeId.map .int
  | .meshcoreDedupeKey => r.meshcoreDedupeKey.map .text

def MESSAGE_RECORD_KEYS : List MessageField :=
  [.id, .from', .senderName, .to', .payload, .channelIndex, .timestamp, .localOrder, .rxSnr, .rxRssi,
    .rxRadioTransport, .hopCount, .rxHops, .tapback, .replyTo, .replyPreviewText, .replyPreviewSender,
    .status, .mqttStatus, .receivedVia, .isHistory, .error, .roomServerId, .reticulumMessageHash,
    .reticulumSenderHash, .reticulumReplyToHash, .reticulumDeliveryMethod, .reticulumDeliveryAttempts,
    .reticulumAttachmentPath, .reticulumAttachmentKind, .reticulumAudioMode, .reticulumAudioDurationSec,
    .viaStoreForward, .channelKey, .radioNodeId]

def messageRecordFieldsEqual (a b : MessageRecord) : Bool := MESSAGE_RECORD_KEYS.all fun key => a.get key = b.get key

def MessageField.Required (f : MessageField) : Prop :=
  f ∈ [MessageField.id, .from', .to', .payload, .channelIndex, .timestamp]

-- A record as a caller passes it: its values, and which keys the object has, some perhaps undefined.
structure MessageWrite where
  record : MessageRecord
  has : MessageField → Bool
  required : ∀ f, f.Required → has f = true
  absent : ∀ f, has f = false → record.get f = none

-- `{ ...existing, ...message }`
def spread (existing : MessageRecord) (message : MessageWrite) : MessageRecord where
  id := message.record.id
  from' := message.record.from'
  senderName := if message.has .senderName then message.record.senderName else existing.senderName
  to' := message.record.to'
  payload := message.record.payload
  channelIndex := message.record.channelIndex
  timestamp := message.record.timestamp
  localOrder := if message.has .localOrder then message.record.localOrder else existing.localOrder
  rxSnr := if message.has .rxSnr then message.record.rxSnr else existing.rxSnr
  rxRssi := if message.has .rxRssi then message.record.rxRssi else existing.rxRssi
  rxRadioTransport := if message.has .rxRadioTransport then message.record.rxRadioTransport else existing.rxRadioTransport
  hopCount := if message.has .hopCount then message.record.hopCount else existing.hopCount
  rxHops := if message.has .rxHops then message.record.rxHops else existing.rxHops
  tapback := if message.has .tapback then message.record.tapback else existing.tapback
  replyTo := if message.has .replyTo then message.record.replyTo else existing.replyTo
  replyPreviewText := if message.has .replyPreviewText then message.record.replyPreviewText else existing.replyPreviewText
  replyPreviewSender := if message.has .replyPreviewSender then message.record.replyPreviewSender else existing.replyPreviewSender
  status := if message.has .status then message.record.status else existing.status
  mqttStatus := if message.has .mqttStatus then message.record.mqttStatus else existing.mqttStatus
  receivedVia := if message.has .receivedVia then message.record.receivedVia else existing.receivedVia
  isHistory := if message.has .isHistory then message.record.isHistory else existing.isHistory
  error := if message.has .error then message.record.error else existing.error
  roomServerId := if message.has .roomServerId then message.record.roomServerId else existing.roomServerId
  reticulumMessageHash := if message.has .reticulumMessageHash then message.record.reticulumMessageHash else existing.reticulumMessageHash
  reticulumSenderHash := if message.has .reticulumSenderHash then message.record.reticulumSenderHash else existing.reticulumSenderHash
  reticulumReplyToHash := if message.has .reticulumReplyToHash then message.record.reticulumReplyToHash else existing.reticulumReplyToHash
  reticulumDeliveryMethod := if message.has .reticulumDeliveryMethod then message.record.reticulumDeliveryMethod else existing.reticulumDeliveryMethod
  reticulumDeliveryAttempts := if message.has .reticulumDeliveryAttempts then message.record.reticulumDeliveryAttempts else existing.reticulumDeliveryAttempts
  reticulumAttachmentPath := if message.has .reticulumAttachmentPath then message.record.reticulumAttachmentPath else existing.reticulumAttachmentPath
  reticulumAttachmentKind := if message.has .reticulumAttachmentKind then message.record.reticulumAttachmentKind else existing.reticulumAttachmentKind
  reticulumAudioMode := if message.has .reticulumAudioMode then message.record.reticulumAudioMode else existing.reticulumAudioMode
  reticulumAudioDurationSec := if message.has .reticulumAudioDurationSec then message.record.reticulumAudioDurationSec else existing.reticulumAudioDurationSec
  viaStoreForward := if message.has .viaStoreForward then message.record.viaStoreForward else existing.viaStoreForward
  channelKey := if message.has .channelKey then message.record.channelKey else existing.channelKey
  radioNodeId := if message.has .radioNodeId then message.record.radioNodeId else existing.radioNodeId
  meshcoreDedupeKey := if message.has .meshcoreDedupeKey then message.record.meshcoreDedupeKey else existing.meshcoreDedupeKey

-- A record that has exactly the fields it defines, and the ones its type requires.
def MessageRecord.toWrite (r : MessageRecord) : MessageWrite where
  record := r
  has f := (r.get f).isSome
  required f h := by
    simp only [MessageField.Required, List.mem_cons, List.not_mem_nil, or_false] at h
    obtain rfl | rfl | rfl | rfl | rfl | rfl := h <;> rfl
  absent f h := by simpa using h

theorem map_ite {α β : Type} (g : α → β) (c : Prop) [Decidable c] (x y : Option α) :
    (if c then x else y).map g = if c then x.map g else y.map g := by
  by_cases h : c
  · rw [if_pos h, if_pos h]
  · rw [if_neg h, if_neg h]

theorem get_spread (existing : MessageRecord) (message : MessageWrite) (f : MessageField) :
    (spread existing message).get f = if message.has f then message.record.get f else existing.get f := by
  have hrequired : f.Required → (spread existing message).get f = message.record.get f →
      (spread existing message).get f = if message.has f then message.record.get f else existing.get f := by
    intro h heq
    rw [heq, message.required f h, if_pos rfl]
  cases f with
  | id => exact hrequired (by simp [MessageField.Required]) rfl
  | from' => exact hrequired (by simp [MessageField.Required]) rfl
  | to' => exact hrequired (by simp [MessageField.Required]) rfl
  | payload => exact hrequired (by simp [MessageField.Required]) rfl
  | channelIndex => exact hrequired (by simp [MessageField.Required]) rfl
  | timestamp => exact hrequired (by simp [MessageField.Required]) rfl
  | _ => exact map_ite _ _ _ _

-- Every field but the wire text is compared.
theorem messageRecordFieldsEqual_iff (a b : MessageRecord) :
    messageRecordFieldsEqual a b = true ↔ ∀ f, f ≠ .meshcoreDedupeKey → a.get f = b.get f := by
  have hkeys : ∀ f, f ∈ MESSAGE_RECORD_KEYS ↔ f ≠ .meshcoreDedupeKey := by
    intro f
    cases f <;> decide
  simp only [messageRecordFieldsEqual, List.all_eq_true, decide_eq_true_eq, hkeys]

end MeshClient.Messages
