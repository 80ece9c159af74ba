import MeshClient.Messages.ChatMessage

namespace MeshClient.Meshcore

open Js Messages

def MESHCORE_ROOM_MESSAGE_CHANNEL : Int := -2
def MESHCORE_CHAT_STUB_ID_MIN : Int := 0xa0000000
def MESHCORE_CHAT_STUB_ID_MAX : Int := 0xafffffff
def LAST_HEARD_MS_THRESHOLD : Int := 1000000000000
def MESHCORE_CROSS_TRANSPORT_SCAN_LIMIT : Nat := 200
def MS_PER_MINUTE : Int := 60000
def MESHCORE_CROSS_TRANSPORT_DEDUP_WINDOW_MS : Int := 5 * MS_PER_MINUTE
def MESHCORE_CHANNEL_RF_DEDUP_WINDOW_MS : Int := 5 * MS_PER_MINUTE
def MESHCORE_DM_RF_DEDUP_WINDOW_MS : Int := 2 * MS_PER_MINUTE
def MESHCORE_ROOM_POST_DEDUP_WINDOW_MS : Int := MS_PER_MINUTE
def MESHCORE_TAPBACK_ECHO_DEDUP_WINDOW_MS : Int := 10 * MS_PER_MINUTE

def fnvStep (h : BitVec 32) (unit : Nat) : BitVec 32 := (h ^^^ BitVec.ofNat 32 unit) * 16777619#32

def meshcoreChatStubNodeIdFromDisplayName (name : String) : Int :=
  let trimmed := if trim name = "" then "Unknown" else trim name
  let h := (codeUnits trimmed).foldl fnvStep 2166136261#32
  ((0xa0000000#32 ||| (h &&& 0x0fffffff#32)).toNat : Int)

def MESHCORE_UNKNOWN_SENDER_STUB_ID : Int := meshcoreChatStubNodeIdFromDisplayName "Unknown"

def meshcoreIsChatStubNodeId (nodeId : Int) : Bool :=
  MESHCORE_CHAT_STUB_ID_MIN ≤ nodeId % 0x100000000 && nodeId % 0x100000000 ≤ MESHCORE_CHAT_STUB_ID_MAX

def isAmbiguousMeshcoreSender (msg : ChatMessage) : Bool :=
  msg.sender_id = 0 || msg.sender_id = MESHCORE_UNKNOWN_SENDER_STUB_ID || msg.sender_name = "Unknown"

def intText (n : Option Int) : String := (n.map toString).getD ""

-- The text that identifies a message: what it was on the wire, where that is known.
def messageBody (msg : ChatMessage) : String := msg.meshcoreDedupeKey.getD msg.payload

def meshcoreTransportsAreCross (existing incoming : ChatMessage) : Bool :=
  match existing.receivedVia, incoming.receivedVia with
  | some existingVia, some incomingVia => existingVia ≠ incomingVia && existingVia ≠ .both && incomingVia ≠ .both
  | _, _ => false

def meshcoreIsBroadcastChannelMessage (msg : ChatMessage) : Bool := 0 ≤ msg.channel && msg.roomServerId = none

def meshcoreReceivedViaIncludesRf (via : Option MessageTransport) : Bool := via = some .rf || via = some .both

def meshcoreIsDmMessage (msg : ChatMessage) : Bool := msg.channel = -1 && msg.to'.isSome

def meshcoreRoomServerIdForDedup (msg : ChatMessage) : Option Int :=
  msg.roomServerId.or (if msg.channel = MESHCORE_ROOM_MESSAGE_CHANNEL then msg.to' else none)

def withinWindow (existing incoming : ChatMessage) (windowMs : Int) : Bool :=
  |existing.timestamp - incoming.timestamp| ≤ windowMs

def sameReplyId (a b : Option JsNumber) : Bool :=
  match a, b with
  | none, none => true
  | some a, some b => sameNumber a b
  | _, _ => false

-- Neither the wire texts nor the displayed ones agree.
def bodiesDiffer (existing incoming : ChatMessage) : Bool :=
  messageBody existing ≠ messageBody incoming && existing.payload ≠ incoming.payload

section

variable (rt : ChatRuntime)

def meshcoreMessageDedupeKey (msg : ChatMessage) : String :=
  "|".intercalate [toString msg.sender_id, intText msg.to', toString msg.channel, toString msg.timestamp,
    messageBody msg, intText msg.emoji, (msg.replyId.map rt.numberText).getD ""]

def normalizeMeshcoreSenderNameForDedup (name : String) : String := rt.toLowerCase (trim name)

def meshcoreSenderMatchesForDedup (a b : ChatMessage) : Bool :=
  if a.sender_id = b.sender_id then true
  else if !meshcoreIsChatStubNodeId a.sender_id && !meshcoreIsChatStubNodeId b.sender_id then false
  else
    let aName := normalizeMeshcoreSenderNameForDedup rt a.sender_name
    aName ≠ "" && aName = normalizeMeshcoreSenderNameForDedup rt b.sender_name

def meshcorePayloadIsTapbackEmojiOnly (payload : String) : Bool :=
  let t := trim payload
  if t = "" || t.toList.any isSpace then false
  else if (rt.graphemes t).length ≠ 1 then false
  else if !rt.isReactionPickerEmojiGlyph t then false
  else (normalizeReactionEmoji rt none t).isSome

def meshcoreIsTapbackShapedRow (msg : ChatMessage) : Bool :=
  msg.emoji.isSome && msg.replyId.isSome ||
    msg.replyId.isSome && meshcorePayloadIsTapbackEmojiOnly rt msg.payload

end

-- `meshcoreMessageMatchesReplyKey` on a message whose packet id and timestamp are both `key`.
def replyKeyMatches (key replyKey : JsNumber) : Bool :=
  match key, replyKey with
  | some key, some replyKey =>
      if replyKey ≤ 0 then false
      else if key = replyKey then true
      else replyKey < LAST_HEARD_MS_THRESHOLD && LAST_HEARD_MS_THRESHOLD ≤ key &&
        (⌊key / 1000⌋ = replyKey || key = replyKey * 1000)
  | _, _ => false

def meshcoreTapbackReplyIdsMatch (a b : Option JsNumber) : Bool :=
  match a, b with
  | none, none => true
  | some a, some b => sameNumber a b || replyKeyMatches a b || replyKeyMatches b a
  | _, _ => false

section

variable (rt : ChatRuntime)

def meshcoreTapbackEmojiScalar (msg : ChatMessage) : Option Int :=
  msg.emoji.or (normalizeReactionEmoji rt none (trim msg.payload))

def meshcoreTapbackEmojisMatch (existing incoming : ChatMessage) : Bool :=
  (meshcoreTapbackEmojiScalar rt existing).isSome &&
    meshcoreTapbackEmojiScalar rt existing = meshcoreTapbackEmojiScalar rt incoming

def meshcoreCrossTransportMatch (existing incoming : ChatMessage) : Bool :=
  meshcoreTransportsAreCross existing incoming &&
  meshcoreSenderMatchesForDedup rt existing incoming &&
  existing.channel = incoming.channel &&
  existing.to' = incoming.to' &&
  (if meshcoreIsTapbackShapedRow rt existing || meshcoreIsTapbackShapedRow rt incoming then
    meshcoreTapbackReplyIdsMatch existing.replyId incoming.replyId && meshcoreTapbackEmojisMatch rt existing incoming
  else
    existing.emoji = incoming.emoji && sameReplyId existing.replyId incoming.replyId &&
      !bodiesDiffer existing incoming) &&
  withinWindow existing incoming MESHCORE_CROSS_TRANSPORT_DEDUP_WINDOW_MS

-- Wire texts that are both known have to agree.
def wiresDiffer (existing incoming : ChatMessage) : Bool :=
  existing.meshcoreDedupeKey.isSome && incoming.meshcoreDedupeKey.isSome &&
    existing.meshcoreDedupeKey ≠ incoming.meshcoreDedupeKey

def meshcoreChannelRfMatch (existing incoming : ChatMessage) : Bool :=
  meshcoreIsBroadcastChannelMessage existing && meshcoreIsBroadcastChannelMessage incoming &&
  existing.emoji = none && incoming.emoji = none &&
  meshcoreReceivedViaIncludesRf existing.receivedVia &&
  incoming.receivedVia = some .rf &&
  !meshcoreTransportsAreCross existing incoming &&
  meshcoreSenderMatchesForDedup rt existing incoming &&
  existing.channel = incoming.channel &&
  existing.to' = incoming.to' &&
  sameReplyId existing.replyId incoming.replyId &&
  !wiresDiffer existing incoming &&
  !bodiesDiffer existing incoming &&
  withinWindow existing incoming MESHCORE_CHANNEL_RF_DEDUP_WINDOW_MS

def meshcoreDmRfMatch (existing incoming : ChatMessage) : Bool :=
  meshcoreIsDmMessage existing && meshcoreIsDmMessage incoming &&
  existing.emoji = none && incoming.emoji = none &&
  existing.receivedVia = some .rf && incoming.receivedVia = some .rf &&
  !meshcoreTransportsAreCross existing incoming &&
  meshcoreSenderMatchesForDedup rt existing incoming &&
  existing.to' = incoming.to' &&
  sameReplyId existing.replyId incoming.replyId &&
  !bodiesDiffer existing incoming &&
  withinWindow existing incoming MESHCORE_DM_RF_DEDUP_WINDOW_MS

def meshcoreTapbackEchoMatch (existing incoming : ChatMessage) : Bool :=
  (meshcoreIsTapbackShapedRow rt existing || meshcoreIsTapbackShapedRow rt incoming) &&
  meshcoreTapbackReplyIdsMatch existing.replyId incoming.replyId &&
  existing.channel = incoming.channel &&
  existing.to' = incoming.to' &&
  meshcoreTapbackEmojisMatch rt existing incoming &&
  meshcoreSenderMatchesForDedup rt existing incoming &&
  withinWindow existing incoming MESHCORE_TAPBACK_ECHO_DEDUP_WINDOW_MS

def meshcoreTapbackRfReplayMatch (existing incoming : ChatMessage) : Bool :=
  meshcoreIsTapbackShapedRow rt existing && meshcoreIsTapbackShapedRow rt incoming &&
  meshcoreReceivedViaIncludesRf existing.receivedVia &&
  incoming.receivedVia = some .rf &&
  !meshcoreTransportsAreCross existing incoming &&
  meshcoreSenderMatchesForDedup rt existing incoming &&
  existing.channel = incoming.channel &&
  existing.to' = incoming.to' &&
  meshcoreTapbackReplyIdsMatch existing.replyId incoming.replyId &&
  meshcoreTapbackEmojisMatch rt existing incoming &&
  withinWindow existing incoming MESHCORE_CHANNEL_RF_DEDUP_WINDOW_MS

def meshcoreRoomPostContentMatch (existing incoming : ChatMessage) : Bool :=
  (meshcoreRoomServerIdForDedup existing).isSome &&
  meshcoreRoomServerIdForDedup existing = meshcoreRoomServerIdForDedup incoming &&
  !bodiesDiffer existing incoming &&
  withinWindow existing incoming MESHCORE_ROOM_POST_DEDUP_WINDOW_MS

-- The rows that a search looks at: the last ones of the list.
def scanned (messages : List ChatMessage) : List ChatMessage :=
  messages.drop (messages.length - MESHCORE_CROSS_TRANSPORT_SCAN_LIMIT)

-- The last of them that matches.
def findLast (matches' : ChatMessage → Bool) (messages : List ChatMessage) : Option ChatMessage :=
  (scanned messages).reverse.find? matches'

def findMeshcoreChannelRfDuplicate (messages : List ChatMessage) (incoming : ChatMessage) : Option ChatMessage :=
  findLast (fun existing => meshcoreChannelRfMatch rt existing incoming) messages

def findMeshcoreDmRfDuplicate (messages : List ChatMessage) (incoming : ChatMessage) : Option ChatMessage :=
  findLast (fun existing => meshcoreDmRfMatch rt existing incoming) messages

def findMeshcoreTapbackEchoDuplicate (messages : List ChatMessage) (incoming : ChatMessage) : Option ChatMessage :=
  findLast (fun existing => meshcoreTapbackEchoMatch rt existing incoming) messages

def findMeshcoreTapbackRfReplayDuplicate (messages : List ChatMessage) (incoming : ChatMessage) :
    Option ChatMessage :=
  findLast (fun existing => meshcoreTapbackRfReplayMatch rt existing incoming) messages

def findMeshcoreCrossTransportDuplicate (messages : List ChatMessage) (incoming : ChatMessage) :
    Option ChatMessage :=
  findLast (fun existing => meshcoreCrossTransportMatch rt existing incoming) messages

-- The first message of each sender that is known.
def resolvedById (contentMatches : List ChatMessage) : OrderedMap Int ChatMessage :=
  contentMatches.foldl
    (fun byId m =>
      if isAmbiguousMeshcoreSender m || m.sender_id ≤ 0 then byId
      else if (byId.get? m.sender_id).isSome then byId
      else byId.set m.sender_id m) ∅

def findMeshcoreRoomPostDuplicate (messages : List ChatMessage) (incoming : ChatMessage) : Option ChatMessage :=
  let contentMatches := (scanned messages).filter fun existing => meshcoreRoomPostContentMatch existing incoming
  match contentMatches.reverse.find? fun existing => meshcoreSenderMatchesForDedup rt existing incoming with
  | some existing => some existing
  | none =>
      let resolved := resolvedById contentMatches
      if isAmbiguousMeshcoreSender incoming then
        if resolved.size ≠ 1 then none else resolved.values.head?
      else if incoming.sender_id ≤ 0 then none
      else if resolved.keys.any (· ≠ incoming.sender_id) then none
      else contentMatches.reverse.find? isAmbiguousMeshcoreSender

end

end MeshClient.Meshcore
