import MeshClient.Js.Object
import MeshClient.Messages.Record

namespace MeshClient.Messages

-- The rows of an identity, each under its own id.
structure Bucket where
  rows : OrderedMap String MessageRecord
  keyed : ∀ id r, rows.get? id = some r → r.id = id
deriving DecidableEq

namespace Bucket

def empty : Bucket := ⟨∅, fun _ _ h => by cases h⟩

instance : EmptyCollection Bucket := ⟨empty⟩

def get? (b : Bucket) (id : String) : Option MessageRecord := b.rows.get? id

def values (b : Bucket) : List MessageRecord := Js.objectValues b.rows

-- `{ ...byIdentity, [message.id]: message }`
def set (b : Bucket) (r : MessageRecord) : Bucket where
  rows := b.rows.set r.id r
  keyed id r' h := by
    rw [OrderedMap.get?_set] at h
    by_cases hid : id = r.id
    · rw [if_pos hid, Option.some.injEq] at h
      rw [← h, hid]
    · rw [if_neg hid] at h
      exact b.keyed id r' h

def omitRecordKey (b : Bucket) (key : String) : Bucket where
  rows := b.rows.erase key
  keyed id r h := by
    rw [OrderedMap.get?_erase] at h
    by_cases hid : id = key
    · simp [hid] at h
    · rw [if_neg hid] at h
      exact b.keyed id r h

def ofRows (rows : List MessageRecord) : Bucket := rows.foldl set ∅

@[simp] theorem get?_empty (id : String) : (∅ : Bucket).get? id = none := rfl

theorem id_of_get? {b : Bucket} {id : String} {r : MessageRecord} (h : b.get? id = some r) : r.id = id :=
  b.keyed id r h

theorem get?_set (b : Bucket) (r : MessageRecord) (id : String) :
    (b.set r).get? id = if id = r.id then some r else b.get? id := OrderedMap.get?_set _ _ _ _

theorem get?_omitRecordKey (b : Bucket) (key id : String) :
    (b.omitRecordKey key).get? id = if id = key then none else b.get? id := OrderedMap.get?_erase _ _ _

theorem mem_values (b : Bucket) (r : MessageRecord) : r ∈ b.values ↔ b.get? r.id = some r := by
  rw [values, Js.mem_objectValues]
  constructor
  · rintro ⟨k, hk⟩
    rw [← b.keyed k r hk] at hk
    exact hk
  · intro h
    exact ⟨r.id, h⟩

theorem values_length (b : Bucket) : b.values.length = b.rows.size := Js.objectValues_length b.rows

theorem get?_foldl_set {b : Bucket} {rows : List MessageRecord} {id : String} {r : MessageRecord}
    (h : (rows.foldl set b).get? id = some r) : b.get? id = some r ∨ r ∈ rows ∧ r.id = id := by
  induction rows generalizing b with
  | nil => exact .inl h
  | cons first rest ih =>
      obtain h | ⟨hmem, hid⟩ := ih h
      · rw [get?_set] at h
        by_cases hid : id = first.id
        · rw [if_pos hid, Option.some.injEq] at h
          subst h
          exact .inr ⟨List.mem_cons_self, hid.symm⟩
        · rw [if_neg hid] at h
          exact .inl h
      · exact .inr ⟨List.mem_cons_of_mem _ hmem, hid⟩

theorem get?_ofRows {rows : List MessageRecord} {id : String} {r : MessageRecord}
    (h : (ofRows rows).get? id = some r) : r ∈ rows ∧ r.id = id := by
  obtain h | h := get?_foldl_set h
  · cases h
  · exact h

theorem get?_foldl_set_of_notMem {b : Bucket} {rows : List MessageRecord} {id : String}
    (h : ∀ r ∈ rows, r.id ≠ id) : (rows.foldl set b).get? id = b.get? id := by
  induction rows generalizing b with
  | nil => rfl
  | cons first rest ih =>
      rw [List.foldl_cons, ih fun r hr => h r (List.mem_cons_of_mem _ hr), get?_set,
        if_neg (h first List.mem_cons_self).symm]

theorem get?_ofRows_of_mem {rows : List MessageRecord} (hn : (rows.map (·.id)).Nodup) {r : MessageRecord}
    (h : r ∈ rows) : (ofRows rows).get? r.id = some r := by
  have hfold : ∀ b : Bucket, (rows.foldl set b).get? r.id = some r := by
    induction rows with
    | nil => cases h
    | cons first rest ih =>
        intro b
        obtain ⟨hfirst, hrest⟩ := List.nodup_cons.mp hn
        obtain rfl | h := List.mem_cons.mp h
        · rw [List.foldl_cons, get?_foldl_set_of_notMem, get?_set, if_pos rfl]
          intro r' hr' hid
          exact hfirst (List.mem_map.mpr ⟨r', hr', hid⟩)
        · exact ih hrest h (b.set first)
  exact hfold ∅

theorem values_ids_nodup (b : Bucket) : (b.values.map (·.id)).Nodup := by
  have hids : b.values.map (·.id) = (Js.objectEntries b.rows).map Prod.fst := by
    rw [values, Js.objectValues, List.map_map]
    refine List.map_congr_left fun entry hentry => ?_
    rw [Js.mem_objectEntries] at hentry
    exact b.keyed entry.1 entry.2 ((OrderedMap.mem_entries_iff b.rows entry.1 entry.2).mp hentry)
  rw [hids, ((Js.objectEntries_perm b.rows).map Prod.fst).nodup_iff]
  exact b.rows.nodup

end Bucket

inductive ProtocolType where
  | meshtastic
  | meshcore
  | reticulum
deriving DecidableEq, Repr

structure LiveChannelKeys where
  radioNodeId : Option Int
  keyByIndex : OrderedMap Int String

-- What the store reads of the rest of the program, and the collation of the runtime.
structure StoreEnv where
  protocolOf : String → Option ProtocolType
  liveChannelKeys : ProtocolType → Option LiveChannelKeys
  messageLoadLimit : Nat
  localeCompare : String → String → Int

abbrev MessagesByIdentity := OrderedMap String Bucket

def MAX_IN_MEMORY_CHAT_MESSAGES : Nat := 2000

def MESHTASTIC_BROADCAST_NODE_NUM : Int := 0xffffffff

def isMeshtasticBroadcastNodeNum (nodeId : Int) : Bool := nodeId % 0x100000000 = MESHTASTIC_BROADCAST_NODE_NUM

def isGroupChannelRecord (message : MessageRecord) : Bool :=
  0 ≤ message.channelIndex && message.roomServerId = none &&
    (message.to' = 0 || isMeshtasticBroadcastNodeNum message.to')

section

variable (env : StoreEnv)

def liveKeysFor (identityId : String) : Option LiveChannelKeys :=
  match env.protocolOf identityId with
  | some .meshtastic => env.liveChannelKeys .meshtastic
  | some .meshcore => env.liveChannelKeys .meshcore
  | _ => none

-- An empty key counts as none.
def stampLiveChannelIdentity (identityId : String) (message : MessageRecord) : MessageRecord :=
  if message.channelKey.isSome || message.radioNodeId.isSome then message
  else
    match liveKeysFor env identityId with
    | none => message
    | some live =>
        let channelKey :=
          if isGroupChannelRecord message then
            (live.keyByIndex.get? message.channelIndex).filter fun key => key ≠ ""
          else none
        { message with radioNodeId := live.radioNodeId, channelKey }

def carryChannelIdentity (existing incoming : MessageRecord) : MessageRecord :=
  if (incoming.channelKey.isSome || existing.channelKey = none) &&
      (incoming.radioNodeId.isSome || existing.radioNodeId = none) then incoming
  else
    { incoming with
      channelKey := incoming.channelKey.or existing.channelKey
      radioNodeId := incoming.radioNodeId.or existing.radioNodeId }

def resolveLiveMessageCap (identityId : String) : Nat :=
  if env.protocolOf identityId = some .meshtastic then min env.messageLoadLimit MAX_IN_MEMORY_CHAT_MESSAGES
  else MAX_IN_MEMORY_CHAT_MESSAGES

def compareMessageRecordsForTrim (a b : MessageRecord) : Int :=
  if a.timestamp ≠ b.timestamp then a.timestamp - b.timestamp
  else if a.localOrder.getD 0 ≠ b.localOrder.getD 0 then a.localOrder.getD 0 - b.localOrder.getD 0
  else env.localeCompare a.id b.id

def isProtectedFromLiveTrim (message : MessageRecord) : Bool := message.status = some .sending

def evictableRows (byIdentity : Bucket) : List MessageRecord :=
  (byIdentity.values.filter fun message => !isProtectedFromLiveTrim message).insertionSort fun a b =>
    compareMessageRecordsForTrim env a b ≤ 0

-- The newest rows up to the cap, with the ids of the others; rows that are being sent stay.
def trimIdentityBucketToNewest (byIdentity : Bucket) (cap : Nat) : Bucket × List String :=
  let size := byIdentity.values.length
  if size ≤ cap then (byIdentity, [])
  else
    let protectedRows := byIdentity.values.filter isProtectedFromLiveTrim
    let evictable := evictableRows env byIdentity
    let evictCount := min evictable.length (size - cap)
    match evictable with
    | [] => (byIdentity, [])
    | oldest :: _ =>
        if size = cap + 1 ∧ evictCount = 1 then (byIdentity.omitRecordKey oldest.id, [oldest.id])
        else
          let evictedIds := (evictable.take evictCount).map (·.id)
          (Bucket.ofRows (protectedRows.filter (fun message => message.id ∉ evictedIds) ++ evictable.drop evictCount),
            evictedIds)

-- The store after a write, the ids whose coverage and listen windows are dropped with their rows, and the
-- row that listeners are told was added.
structure WriteResult where
  messages : MessagesByIdentity
  evictedIds : List String := []
  added : Option MessageRecord := none

def bucketOf (messages : MessagesByIdentity) (identityId : String) : Bucket := (messages.get? identityId).getD ∅

-- What both writers do with the record they arrive at: nothing where it equals the row that is there.
def writeRecord (messages : MessagesByIdentity) (identityId : String) (existing : Option MessageRecord)
    (message : MessageRecord) : WriteResult :=
  let grown := (bucketOf messages identityId).set message
  match existing with
  | some existing =>
      if messageRecordFieldsEqual existing message then { messages }
      else { messages := messages.set identityId grown }
  | none =>
      let trimmed := trimIdentityBucketToNewest env grown (resolveLiveMessageCap env identityId)
      { messages := messages.set identityId trimmed.1
        evictedIds := trimmed.2
        added := if (trimmed.1.get? message.id).isSome then some message else none }

def addedRecord (messages : MessagesByIdentity) (identityId : String) (incoming : MessageRecord) : MessageRecord :=
  match (bucketOf messages identityId).get? incoming.id with
  | some existing => carryChannelIdentity existing incoming
  | none => stampLiveChannelIdentity env identityId incoming

def addMessage (messages : MessagesByIdentity) (identityId : String) (incoming : MessageRecord) : WriteResult :=
  writeRecord env messages identityId ((bucketOf messages identityId).get? incoming.id)
    (addedRecord env messages identityId incoming)

-- A local order stays what it was, and a known recipient is not forgotten.
def mergeOnto (existing : MessageRecord) (message : MessageWrite) : MessageRecord :=
  let merged := spread existing message
  { merged with
    localOrder := existing.localOrder.or merged.localOrder
    to' := if merged.to' = 0 ∧ existing.to' ≠ 0 then existing.to' else merged.to' }

def upsertedRecord (messages : MessagesByIdentity) (identityId : String) (message : MessageWrite) : MessageRecord :=
  match (bucketOf messages identityId).get? message.record.id with
  | some existing => mergeOnto existing message
  | none => stampLiveChannelIdentity env identityId message.record

def upsertMessage (messages : MessagesByIdentity) (identityId : String) (message : MessageWrite) : WriteResult :=
  writeRecord env messages identityId ((bucketOf messages identityId).get? message.record.id)
    (upsertedRecord env messages identityId message)

end

end MeshClient.Messages
