import MeshClient.Meshcore.MessageDedup

namespace MeshClient.Meshcore

open Js Messages

abbrev DedupeIndex := OrderedMap String (OrderedMap String String)

-- The message store with the index of dedupe keys beside it and the last local order that was given out.
structure MeshcoreStore where
  messages : MessagesByIdentity
  dedupeIndex : DedupeIndex
  lastLocalOrder : Int

structure DedupEnv extends StoreEnv where
  rt : ChatRuntime

structure MeshcoreStoreUpsertResult where
  inserted : Bool
  storeUpdated : Bool
  message : ChatMessage
  canonicalId : String

def meshcoreChannelMessageStoreId (channel timestampSec : Int) (senderId : Option Int) : String :=
  match senderId.filter (0 < ·) with
  | some senderId => s!"ch:{channel}:{senderId}:{timestampSec}"
  | none => s!"ch:{channel}:{timestampSec}"

def meshcoreRoomMessageStoreId (roomServerId timestampSec : Int) (authorId : Option Int) : String :=
  match authorId.filter (· ≠ 0) with
  | some authorId => s!"room:{roomServerId}:{authorId}:{timestampSec}"
  | none => s!"room:{roomServerId}:{timestampSec}"

def meshcoreTimestampSec (timestamp : Int) : Int :=
  if LAST_HEARD_MS_THRESHOLD ≤ timestamp then timestamp / 1000 else timestamp

def meshcoreMessageStoreId (msg : ChatMessage) : String :=
  let senderId := if 0 < msg.sender_id then some msg.sender_id else none
  let timestampSec := meshcoreTimestampSec msg.timestamp
  match meshcoreRoomServerIdForDedup msg with
  | some room => meshcoreRoomMessageStoreId room timestampSec senderId
  | none =>
      if 0 ≤ msg.channel then meshcoreChannelMessageStoreId msg.channel timestampSec senderId
      else s!"{msg.sender_id}-{msg.timestamp}-{msg.channel}-" ++ (msg.to'.map toString).getD "unknown"

structure ReplyFields where
  replyId : Option JsNumber
  replyPreviewText : Option String
  replyPreviewSender : Option String
deriving DecidableEq

def ReplyFields.onto (fields : ReplyFields) (msg : ChatMessage) : ChatMessage :=
  { msg with
    replyId := fields.replyId
    replyPreviewText := fields.replyPreviewText
    replyPreviewSender := fields.replyPreviewSender }

def withReplyFields (fields : Option ReplyFields) (msg : ChatMessage) : ChatMessage :=
  match fields with
  | none => msg
  | some fields => fields.onto msg

def meshcorePreferIncomingReplyFields (existing incoming : ChatMessage) : Option ReplyFields :=
  if incoming.replyId = none then none
  else if sameReplyId existing.replyId incoming.replyId && existing.replyPreviewText = incoming.replyPreviewText &&
      existing.replyPreviewSender = incoming.replyPreviewSender then none
  else if existing.replyId = none || !sameReplyId incoming.replyId existing.replyId ||
      incoming.replyPreviewText.isSome && incoming.replyPreviewText ≠ existing.replyPreviewText then
    some ⟨incoming.replyId, incoming.replyPreviewText, incoming.replyPreviewSender⟩
  else none

def mergeMeshcoreReceivedVia (existing incoming : Option MessageTransport) : Option MessageTransport :=
  if existing = some .both ∨ incoming = some .both then some .both
  else match existing, incoming with
    | none, incoming => incoming
    | existing, none => existing
    | some existing, some incoming => if existing ≠ incoming then some .both else some existing

def meshcoreIsRoomPostMessage (msg : ChatMessage) : Bool :=
  msg.roomServerId.isSome || msg.channel = MESHCORE_ROOM_MESSAGE_CHANNEL

def adoptsTimestamp (existing incoming : ChatMessage) : Bool :=
  incoming.receivedVia = some .rf && incoming.timestamp ≠ existing.timestamp

def mergeRoomPostDuplicate (existing : ChatMessage) (incoming : IncomingChat) : ChatMessage :=
  let own := incoming.message
  let incomingName := trim own.sender_name
  let existingName := trim existing.sender_name
  { spreadChat existing incoming with
    timestamp := if adoptsTimestamp existing own then own.timestamp else existing.timestamp
    status :=
      if existing.status = some .sending then own.status.or (some .acked)
      else (existing.status.or own.status).or (some .acked)
    payload := own.payload
    meshcoreDedupeKey := own.meshcoreDedupeKey.or existing.meshcoreDedupeKey
    sender_id :=
      if 0 < own.sender_id then own.sender_id
      else if 0 < existing.sender_id then existing.sender_id
      else if own.sender_id ≠ 0 then own.sender_id else existing.sender_id
    sender_name :=
      if incomingName ≠ "" ∧ incomingName ≠ "Unknown" then own.sender_name
      else if existingName ≠ "" ∧ existingName ≠ "Unknown" then existing.sender_name
      else if own.sender_name ≠ "" then own.sender_name else existing.sender_name
    receivedVia := mergeMeshcoreReceivedVia existing.receivedVia own.receivedVia
    rxHops := existing.rxHops.or own.rxHops
    packetId := own.packetId.or existing.packetId }

def statusAdvances (existing incoming : ChatMessage) : Bool :=
  existing.status = some .sending && (incoming.status = some .acked || incoming.status = some .failed)

def channelTimestampAdopt (existing incoming : ChatMessage) : Bool :=
  meshcoreIsBroadcastChannelMessage existing && adoptsTimestamp existing incoming

-- Nothing of the incoming message is news to the row.
def nothingRicher (existing incoming : ChatMessage) : Bool :=
  !statusAdvances existing incoming &&
  mergeMeshcoreReceivedVia existing.receivedVia incoming.receivedVia = existing.receivedVia &&
  !(incoming.packetId.isSome && existing.packetId.isNone) &&
  !(incoming.error.isSome && existing.error.isNone) &&
  !(incoming.rxHops.isSome && existing.rxHops.isNone) &&
  !channelTimestampAdopt existing incoming

def mergeExactKeyDuplicate (existing : ChatMessage) (incoming : IncomingChat) : Option ChatMessage :=
  let own := incoming.message
  if nothingRicher existing own then none
  else if statusAdvances existing own && meshcoreIsRoomPostMessage existing then
    some (mergeRoomPostDuplicate existing incoming)
  else
    let merged := { spreadChat existing incoming with localOrder := existing.localOrder.or own.localOrder }
    some { withReplyFields (meshcorePreferIncomingReplyFields existing own) merged with
      receivedVia := mergeMeshcoreReceivedVia existing.receivedVia own.receivedVia
      status := if statusAdvances existing own then own.status else existing.status.or own.status
      packetId := own.packetId.or existing.packetId
      error := own.error.or existing.error
      rxHops := existing.rxHops.or own.rxHops
      timestamp := if channelTimestampAdopt existing own then own.timestamp else existing.timestamp }

namespace DedupEnv

variable (env : DedupEnv)

def key (msg : ChatMessage) : String := meshcoreMessageDedupeKey env.rt msg

def toChat (record : MessageRecord) : ChatMessage := messageRecordToChatMessage env.rt record

end DedupEnv

namespace MeshcoreStore

variable (env : DedupEnv) (s : MeshcoreStore) (identityId : String)

def row (id : String) : Option MessageRecord := (bucketOf s.messages identityId).get? id

def listChatMessagesFromStore : List ChatMessage :=
  (bucketOf s.messages identityId).values.map env.toChat

def lookupMeshcoreMessageIdByDedupeKey (dedupeKey : String) : Option String :=
  (s.dedupeIndex.get? identityId).bind (·.get? dedupeKey)

def indexMeshcoreMessageForDedupe (msg : ChatMessage) (messageId : String) : MeshcoreStore :=
  { s with
    dedupeIndex := s.dedupeIndex.set identityId
      (((s.dedupeIndex.get? identityId).getD ∅).set (env.key msg) messageId) }

def removeMeshcoreDedupeIndexForMessage (msg : ChatMessage) : MeshcoreStore :=
  match s.dedupeIndex.get? identityId with
  | none => s
  | some bucket => { s with dedupeIndex := s.dedupeIndex.set identityId (bucket.erase (env.key msg)) }

def deleteMessage (messageId : String) : MeshcoreStore :=
  if (s.row identityId messageId).isSome then
    { s with messages :=
        s.messages.set identityId ((bucketOf s.messages identityId).omitRecordKey messageId) }
  else s

def upsertMessage (message : MessageWrite) : MeshcoreStore :=
  { s with messages := (Messages.upsertMessage env.toStoreEnv s.messages identityId message).messages }

-- The indexed row where there is one, else the first row with the message's key, which is then indexed.
def findStoreRecordIdForMessage (msg : ChatMessage) : Option String × MeshcoreStore :=
  let byId := bucketOf s.messages identityId
  match (s.lookupMeshcoreMessageIdByDedupeKey identityId (env.key msg)).filter fun id =>
      id ≠ "" && (byId.get? id).isSome with
  | some indexed => (some indexed, s)
  | none =>
      match (objectEntries byId.rows).find? fun entry => env.key (env.toChat entry.2) = env.key msg with
      | some entry => (some entry.1, s.indexMeshcoreMessageForDedupe env identityId msg entry.1)
      | none => (none, s)

def resolveExactKeyDuplicate (incomingKey : String) (storeMessages : List ChatMessage) : Option ChatMessage :=
  let indexed := ((s.lookupMeshcoreMessageIdByDedupeKey identityId incomingKey).filter fun id => id ≠ "").bind
    fun id => (s.row identityId id).map env.toChat
  match indexed.filter fun chat => env.key chat = incomingKey with
  | some chat => some chat
  | none => storeMessages.find? fun m => env.key m = incomingKey

-- One of the two messages is the one that the row holds.
def sameLogicalMessage (chat candidate : ChatMessage) : Bool :=
  if env.key chat = env.key candidate then true
  else if chat.channel ≠ candidate.channel ∨ chat.timestamp ≠ candidate.timestamp then false
  else match chat.meshcoreDedupeKey, candidate.meshcoreDedupeKey with
    | some chatWire, some candidateWire => chatWire = candidateWire
    | _, _ => messageBody chat = messageBody candidate || chat.payload = candidate.payload

def meshcoreAltRecordMatchesMergedMessage (record : MessageRecord) (incoming : ChatMessage)
    (existing : Option ChatMessage) : Bool :=
  (incoming :: existing.toList).any (sameLogicalMessage env (env.toChat record))

-- What a merge knows about the row it merges onto.
structure MergeOpts where
  preferredId : Option String
  existingRecordId : Option String
  existingMessage : ChatMessage
  incomingMessage : ChatMessage

def alternateIds (canonicalId : String) (opts : MergeOpts) : List String :=
  Lists.unique (((opts.preferredId.filter fun id => id ≠ "" && id ≠ canonicalId).toList ++
    (opts.existingRecordId.filter fun id => id ≠ "" && id ≠ canonicalId).toList) ++
    (if meshcoreMessageStoreId opts.incomingMessage ≠ canonicalId then
      [meshcoreMessageStoreId opts.incomingMessage] else []))

-- One turn of the loop over the alternate ids; the flag tells whether a row was removed.
def removeAlternate (opts : MergeOpts) (acc : MeshcoreStore × Bool) (altId : String) : MeshcoreStore × Bool :=
  match acc.1.row identityId altId with
  | none => acc
  | some record =>
      if !meshcoreAltRecordMatchesMergedMessage env record opts.incomingMessage (some opts.existingMessage) then acc
      else
        let deleted := acc.1.deleteMessage identityId altId
        if altId = meshcoreMessageStoreId opts.incomingMessage then
          (deleted.removeMeshcoreDedupeIndexForMessage env identityId opts.incomingMessage, true)
        else if some altId = opts.existingRecordId then
          (deleted.removeMeshcoreDedupeIndexForMessage env identityId opts.existingMessage, true)
        else (deleted, true)

def removeMeshcoreAlternateStoreIds (canonicalId : String) (opts : MergeOpts) : MeshcoreStore × Bool :=
  (alternateIds canonicalId opts).foldl (removeAlternate env identityId opts) (s, false)

-- Writes the merged message under its canonical id, indexes it and drops the rows left behind.
def persistMerged (merged : ChatMessage) (canonicalId : String) (opts : MergeOpts) :
    MeshcoreStoreUpsertResult × MeshcoreStore :=
  let written := s.upsertMessage env identityId ((chatMessageToMessageRecord env.rt merged).withId canonicalId)
  let indexed := written.indexMeshcoreMessageForDedupe env identityId merged canonicalId
  (⟨false, true, merged, canonicalId⟩, (indexed.removeMeshcoreAlternateStoreIds env identityId canonicalId opts).1)

-- What the branches for inexact duplicates do, each with its own merge.
def applyDuplicateMerge (existing : ChatMessage) (merged : ChatMessage) (msg : ChatMessage)
    (preferredId : Option String) : MeshcoreStoreUpsertResult × MeshcoreStore :=
  let (existingRecordId, s) := s.findStoreRecordIdForMessage env identityId existing
  let canonicalId := (preferredId.or existingRecordId).getD (meshcoreMessageStoreId merged)
  s.persistMerged env identityId merged canonicalId ⟨preferredId, existingRecordId, existing, msg⟩

def applyExactMerge (exactMatch : ChatMessage) (msg : IncomingChat) (preferredId : Option String) :
    MeshcoreStoreUpsertResult × MeshcoreStore :=
  let own := msg.message
  let (existingRecordId, s) := s.findStoreRecordIdForMessage env identityId exactMatch
  let canonicalId := (existingRecordId.or preferredId).getD (meshcoreMessageStoreId exactMatch)
  let opts : MergeOpts := ⟨preferredId, existingRecordId, exactMatch, own⟩
  match mergeExactKeyDuplicate exactMatch msg with
  | some merged => s.persistMerged env identityId merged canonicalId opts
  | none =>
      match meshcorePreferIncomingReplyFields exactMatch own with
      | some replyFields =>
          let upgraded := { replyFields.onto exactMatch with
            receivedVia := mergeMeshcoreReceivedVia exactMatch.receivedVia own.receivedVia
            rxHops := exactMatch.rxHops.or own.rxHops }
          s.persistMerged env identityId upgraded canonicalId opts
      | none =>
          let (s, removedOrphans) := s.removeMeshcoreAlternateStoreIds env identityId canonicalId opts
          (⟨false, removedOrphans, exactMatch, canonicalId⟩, s)

def mergedTapback (existing msg : ChatMessage) : ChatMessage :=
  { existing with
    receivedVia := mergeMeshcoreReceivedVia existing.receivedVia msg.receivedVia
    rxHops := existing.rxHops.or msg.rxHops
    meshcoreDedupeKey := msg.meshcoreDedupeKey.or existing.meshcoreDedupeKey }

def mergedRehearing (existing msg : ChatMessage) : ChatMessage :=
  { withReplyFields (meshcorePreferIncomingReplyFields existing msg) existing with
    receivedVia := mergeMeshcoreReceivedVia existing.receivedVia msg.receivedVia
    rxHops := existing.rxHops.or msg.rxHops }

def mergedCrossTransport (existing msg : ChatMessage) : ChatMessage :=
  { mergedRehearing existing msg with
    timestamp := if channelTimestampAdopt existing msg then msg.timestamp else existing.timestamp }

def nextMeshcoreMessageLocalOrder (clock : Int) : Int := max (s.lastLocalOrder + 1) (clock * 1000)

def insertMessage (msg : ChatMessage) (preferredId : Option String) (clock : Int) :
    MeshcoreStoreUpsertResult × MeshcoreStore :=
  let canonicalId := preferredId.getD (meshcoreMessageStoreId msg)
  let ordered := msg.channel = -1 && msg.localOrder.isNone
  let order := s.nextMeshcoreMessageLocalOrder clock
  let msg := if ordered then { msg with localOrder := some order } else msg
  let s := if ordered then { s with lastLocalOrder := order } else s
  let written := s.upsertMessage env identityId ((chatMessageToMessageRecord env.rt msg).withId canonicalId)
  (⟨true, true, msg, canonicalId⟩, written.indexMeshcoreMessageForDedupe env identityId msg canonicalId)

-- The inexact duplicate of a message with its merge, by the first search that finds one.
def findDuplicate (storeMessages : List ChatMessage) (msg : IncomingChat) : Option (ChatMessage × ChatMessage) :=
  let own := msg.message
  (((((findMeshcoreTapbackEchoDuplicate env.rt storeMessages own).map fun dup => (dup, mergedTapback dup own)).or
    ((findMeshcoreTapbackRfReplayDuplicate env.rt storeMessages own).map fun dup => (dup, mergedTapback dup own))).or
    ((findMeshcoreCrossTransportDuplicate env.rt storeMessages own).map fun dup =>
      (dup, mergedCrossTransport dup own))).or
    ((findMeshcoreDmRfDuplicate env.rt storeMessages own).map fun dup => (dup, mergedRehearing dup own))).or
    (((findMeshcoreChannelRfDuplicate env.rt storeMessages own).map fun dup => (dup, mergedRehearing dup own)).or
      ((findMeshcoreRoomPostDuplicate env.rt storeMessages own).map fun dup =>
        (dup, mergeRoomPostDuplicate dup msg)))

def upsertMeshcoreMessageWithDedup (msg : IncomingChat) (preferredId : Option String) (clock : Int) :
    MeshcoreStoreUpsertResult × MeshcoreStore :=
  let storeMessages := s.listChatMessagesFromStore env identityId
  match s.resolveExactKeyDuplicate env identityId (env.key msg.message) storeMessages with
  | some exactMatch => s.applyExactMerge env identityId exactMatch msg preferredId
  | none =>
      match findDuplicate env storeMessages msg with
      | some (existing, merged) => s.applyDuplicateMerge env identityId existing merged msg.message preferredId
      | none => s.insertMessage env identityId msg.message preferredId clock

end MeshcoreStore

end MeshClient.Meshcore
