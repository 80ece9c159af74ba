import MeshClient.Messages.Writes
import MeshClient.Meshcore.StoreDedup

namespace MeshClient.Meshcore

open Messages

namespace MeshcoreStore

variable {env : DedupEnv} {s : MeshcoreStore} {identityId : String}

theorem applyExactMerge_inserted (exactMatch : ChatMessage) (msg : IncomingChat) (preferredId : Option String) :
    (s.applyExactMerge env identityId exactMatch msg preferredId).1.inserted = false := by
  unfold applyExactMerge
  simp only
  split
  · rfl
  · split <;> rfl

-- Only the last branch tells that it inserted.
theorem upsert_of_inserted {msg : IncomingChat} {preferredId : Option String} {clock : Int}
    (h : (s.upsertMeshcoreMessageWithDedup env identityId msg preferredId clock).1.inserted = true) :
    s.upsertMeshcoreMessageWithDedup env identityId msg preferredId clock =
      s.insertMessage env identityId msg.message preferredId clock := by
  unfold upsertMeshcoreMessageWithDedup at h ⊢
  cases hexact : s.resolveExactKeyDuplicate env identityId (env.key msg.message)
      (s.listChatMessagesFromStore env identityId) with
  | some exactMatch =>
      simp only [hexact, applyExactMerge_inserted] at h
      cases h
  | none =>
      simp only [hexact] at h ⊢
      cases hinexact : findDuplicate env (s.listChatMessagesFromStore env identityId) msg with
      | some duplicate =>
          simp only [hinexact] at h
          cases h
      | none => simp only

end MeshcoreStore

-- What a row shows of a message besides its wire text.
def Shows (row : MessageRecord) (msg : ChatMessage) : Prop :=
  row.payload = msg.payload ∧ row.from' = msg.sender_id ∧ row.channelIndex = msg.channel

theorem stamped_shows {env : StoreEnv} (identityId : String) (message : MessageRecord) :
    (stampLiveChannelIdentity env identityId message).payload = message.payload ∧
    (stampLiveChannelIdentity env identityId message).from' = message.from' ∧
    (stampLiveChannelIdentity env identityId message).channelIndex = message.channelIndex ∧
    (stampLiveChannelIdentity env identityId message).meshcoreDedupeKey = message.meshcoreDedupeKey := by
  unfold stampLiveChannelIdentity
  split
  · exact ⟨rfl, rfl, rfl, rfl⟩
  · split <;> exact ⟨rfl, rfl, rfl, rfl⟩

-- Rows that are taken to be equal show the same.
theorem shows_of_fieldsEqual {a b : MessageRecord} {msg : ChatMessage} (h : messageRecordFieldsEqual a b = true)
    (hb : Shows b msg) : Shows a msg := by
  have hsame := (messageRecordFieldsEqual_iff a b).mp h
  have hpayload := hsame .payload (by decide)
  have hfrom := hsame .from' (by decide)
  have hchannel := hsame .channelIndex (by decide)
  simp only [MessageRecord.get, Option.some.injEq, FieldValue.text.injEq, FieldValue.int.injEq]
    at hpayload hfrom hchannel
  exact ⟨hpayload.trans hb.1, hfrom.trans hb.2.1, hchannel.trans hb.2.2⟩

-- The record that an insert writes.
def insertedRecord (env : DedupEnv) (msg : ChatMessage) (canonicalId : String) : MessageWrite :=
  (chatMessageToMessageRecord env.rt msg).withId canonicalId

theorem upserted_shows (env : DedupEnv) (messages : MessagesByIdentity) (identityId : String) (msg : ChatMessage)
    (canonicalId : String) :
    Shows (upsertedRecord env.toStoreEnv messages identityId (insertedRecord env msg canonicalId)) msg := by
  unfold upsertedRecord
  split
  · exact ⟨rfl, rfl, rfl⟩
  · obtain ⟨hpayload, hfrom, hchannel, _⟩ := @stamped_shows env.toStoreEnv identityId
      (insertedRecord env msg canonicalId).record
    exact ⟨hpayload, hfrom, hchannel⟩

section

variable (env : DedupEnv) (s : MeshcoreStore) (identityId : String) (msg : IncomingChat)
  (preferredId : Option String) (clock : Int)

def ingest : MeshcoreStoreUpsertResult × MeshcoreStore :=
  s.upsertMeshcoreMessageWithDedup env identityId msg preferredId clock

def canonicalIdFor : String := preferredId.getD (meshcoreMessageStoreId msg.message)

-- The record that an insert arrives at, and the rows that the live cap drops with its write.
def writtenRecord : MessageRecord :=
  upsertedRecord env.toStoreEnv s.messages identityId
    (insertedRecord env (ingest env s identityId msg preferredId clock).1.message (canonicalIdFor msg preferredId))

def writeResult : WriteResult :=
  writeRecord env.toStoreEnv s.messages identityId (s.row identityId (canonicalIdFor msg preferredId))
    (writtenRecord env s identityId msg preferredId clock)

def trimmedIds : List String := (writeResult env s identityId msg preferredId clock).evictedIds

theorem writtenRecord_id :
    (writtenRecord env s identityId msg preferredId clock).id = canonicalIdFor msg preferredId :=
  upsertedRecord_id s.messages identityId _

end

section

variable {env : DedupEnv} {s : MeshcoreStore} {identityId : String} {msg : IncomingChat}
  {preferredId : Option String} {clock : Int}

-- An insert only gives the message its order among the direct messages and writes it.
theorem ingest_inserted (h : (ingest env s identityId msg preferredId clock).1.inserted = true) :
    (ingest env s identityId msg preferredId clock).2.messages =
      (writeResult env s identityId msg preferredId clock).messages ∧
    ∃ order, (ingest env s identityId msg preferredId clock).1.message = { msg.message with localOrder := order } := by
  have hinsert : ingest env s identityId msg preferredId clock =
      s.insertMessage env identityId msg.message preferredId clock := MeshcoreStore.upsert_of_inserted h
  unfold writeResult writtenRecord
  rw [hinsert]
  unfold MeshcoreStore.insertMessage
  by_cases hordered : (msg.message.channel = -1 && msg.message.localOrder.isNone) = true
  · simp only [hordered, if_true]
    exact ⟨rfl, _, rfl⟩
  · simp only [hordered]
    exact ⟨rfl, msg.message.localOrder, rfl⟩

theorem writtenRecord_shows (h : (ingest env s identityId msg preferredId clock).1.inserted = true) :
    Shows (writtenRecord env s identityId msg preferredId clock) msg.message := by
  obtain ⟨_, order, hmessage⟩ := ingest_inserted h
  have hshows := upserted_shows env s.messages identityId
    (ingest env s identityId msg preferredId clock).1.message (canonicalIdFor msg preferredId)
  rw [Shows, hmessage] at hshows
  rw [writtenRecord, hmessage]
  exact hshows

theorem writtenRecord_wireText (h : (ingest env s identityId msg preferredId clock).1.inserted = true)
    (hfree : s.row identityId (canonicalIdFor msg preferredId) = none) :
    (writtenRecord env s identityId msg preferredId clock).meshcoreDedupeKey =
      nonEmpty msg.message.meshcoreDedupeKey := by
  obtain ⟨_, order, hmessage⟩ := ingest_inserted h
  have hnew : (bucketOf s.messages identityId).get? (insertedRecord env
      (ingest env s identityId msg preferredId clock).1.message (canonicalIdFor msg preferredId)).record.id = none :=
    hfree
  rw [writtenRecord, upsertedRecord, hnew]
  simp only
  rw [(stamped_shows identityId _).2.2.2, hmessage]
  rfl

-- What the write leaves under the message's own id.
theorem ingest_self (h : (ingest env s identityId msg preferredId clock).1.inserted = true) :
    (∃ row, (ingest env s identityId msg preferredId clock).2.row identityId (canonicalIdFor msg preferredId) = some row ∧
      Shows row msg.message ∧ (s.row identityId (canonicalIdFor msg preferredId) = none →
        row.meshcoreDedupeKey = nonEmpty msg.message.meshcoreDedupeKey)) ∨
    s.row identityId (canonicalIdFor msg preferredId) = none ∧
      canonicalIdFor msg preferredId ∈ trimmedIds env s identityId msg preferredId clock := by
  have hself := @get?_writeRecord_self env.toStoreEnv s.messages identityId
    (writtenRecord env s identityId msg preferredId clock)
  rw [writtenRecord_id] at hself
  obtain ⟨row, hrow⟩ | hdropped := hself
  · left
    refine ⟨row, by rw [MeshcoreStore.row, (ingest_inserted h).1]; exact hrow, ?_⟩
    rw [← writtenRecord_id env s identityId msg preferredId clock] at hrow
    obtain rfl | ⟨existing, hexisting, rfl, hsame⟩ := get?_writeRecord hrow
    · exact ⟨writtenRecord_shows h, writtenRecord_wireText h⟩
    · refine ⟨shows_of_fieldsEqual hsame (writtenRecord_shows h), fun hfree => ?_⟩
      rw [writtenRecord_id] at hexisting
      rw [MeshcoreStore.row, hexisting] at hfree
      cases hfree
  · exact .inr hdropped

-- Another row is there before the ingest iff it is there after it, or it is one that the live cap drops.
theorem ingest_other {id : String} {row : MessageRecord}
    (h : (ingest env s identityId msg preferredId clock).1.inserted = true)
    (hid : id ≠ canonicalIdFor msg preferredId) :
    (s.row identityId id = some row →
      (ingest env s identityId msg preferredId clock).2.row identityId id = some row ∨
        id ∈ trimmedIds env s identityId msg preferredId clock) ∧
    ((ingest env s identityId msg preferredId clock).2.row identityId id = some row →
      s.row identityId id = some row) := by
  rw [← writtenRecord_id env s identityId msg preferredId clock] at hid
  unfold MeshcoreStore.row
  rw [(ingest_inserted h).1]
  exact ⟨get?_writeRecord_other hid, get?_of_writeRecord_other hid⟩

-- A message that is told to be inserted leaves the other rows as they are, and stands as a row of its own
-- under its id if that was free. A row that the caller names is taken over.
theorem inserted_message_is_kept (h : (ingest env s identityId msg preferredId clock).1.inserted = true) :
    (∀ id row, id ≠ canonicalIdFor msg preferredId →
      (s.row identityId id = some row →
        (ingest env s identityId msg preferredId clock).2.row identityId id = some row ∨
          id ∈ trimmedIds env s identityId msg preferredId clock) ∧
      ((ingest env s identityId msg preferredId clock).2.row identityId id = some row →
        s.row identityId id = some row)) ∧
    (s.row identityId (canonicalIdFor msg preferredId) = none →
      canonicalIdFor msg preferredId ∈ trimmedIds env s identityId msg preferredId clock ∨
      ∃ row, (ingest env s identityId msg preferredId clock).2.row identityId (canonicalIdFor msg preferredId) =
          some row ∧
        Shows row msg.message ∧ row.meshcoreDedupeKey = nonEmpty msg.message.meshcoreDedupeKey) ∧
    ∀ given, preferredId = some given → s.row identityId given ≠ none →
      ∃ row, (ingest env s identityId msg preferredId clock).2.row identityId given = some row ∧
        Shows row msg.message := by
  refine ⟨fun id row hid => ingest_other h hid, fun hfree => ?_, ?_⟩
  · obtain ⟨row, hrow, hshows, hwire⟩ | ⟨_, htrimmed⟩ := ingest_self h
    · exact .inr ⟨row, hrow, hshows, hwire hfree⟩
    · exact .inl htrimmed
  · rintro given rfl hgiven
    obtain ⟨row, hrow, hshows, _⟩ | ⟨hfree, _⟩ := ingest_self h
    · exact ⟨row, hrow, hshows⟩
    · exact absurd hfree hgiven

end

-- A runtime for plain texts.
def plainRuntime : ChatRuntime where
  toLowerCase := String.toLower
  toNumber text := text.toInt?.map fun n => (n : ℚ)
  numberText n := (n.map fun q => toString q.num).getD "NaN"
  graphemes text := text.toList.map String.singleton
  isReactionPickerEmojiGlyph _ := false

def radioEnv : DedupEnv := { meshcoreEnv with rt := plainRuntime }

def channelPost : IncomingChat where
  message := {
    sender_id := 0x11, sender_name := "Alice", payload := "second line", channel := 0,
    timestamp := 1700000007000, receivedVia := some .rf, meshcoreDedupeKey := some "Alice: second line" }

def routerId : String := "ch:0:1700000007:Alice: second line"

-- What the packet router writes of the post before it is ingested.
def provisionalRow : MessageRecord where
  id := routerId
  from' := 0
  to' := 0
  payload := "Alice: second line"
  channelIndex := 0
  timestamp := 1700000007000
  receivedVia := some .rf

theorem first_post_is_kept :
    (ingest radioEnv ⟨∅, ∅, 0⟩ "radio" channelPost none 0).1.inserted = true ∧
    ∃ row, (ingest radioEnv ⟨∅, ∅, 0⟩ "radio" channelPost none 0).2.row "radio" "ch:0:17:1700000007" = some row ∧
      Shows row channelPost.message := by
  have hinserted : (ingest radioEnv ⟨∅, ∅, 0⟩ "radio" channelPost none 0).1.inserted = true := by decide
  refine ⟨hinserted, ?_⟩
  obtain htrimmed | ⟨row, hrow, hshows, _⟩ := (inserted_message_is_kept hinserted).2.1 (by decide)
  · exact absurd htrimmed (by decide)
  · have hid : canonicalIdFor channelPost none = "ch:0:17:1700000007" := by decide
    rw [hid] at hrow
    exact ⟨row, hrow, hshows⟩

def storeOf (row : MessageRecord) : MeshcoreStore :=
  ⟨(∅ : MessagesByIdentity).set "radio" ((∅ : Bucket).set row), ∅, 0⟩

-- The ingest of the post takes the router's row over: it is told to be inserted, but there is no row more, and
-- the row that was there shows another text and another sender.
theorem provisional_row_is_replaced :
    ¬ ∀ (env : DedupEnv) (s : MeshcoreStore) (identityId : String) (msg : IncomingChat)
        (preferredId : Option String) (clock : Int),
      (ingest env s identityId msg preferredId clock).1.inserted = true →
        (∀ id row, s.row identityId id = some row →
          id ∈ trimmedIds env s identityId msg preferredId clock ∨
          ∃ kept, (ingest env s identityId msg preferredId clock).2.row identityId id = some kept ∧
            kept.payload = row.payload ∧ kept.from' = row.from' ∧ kept.channelIndex = row.channelIndex ∧
            kept.meshcoreDedupeKey = row.meshcoreDedupeKey) ∧
        s.row identityId (ingest env s identityId msg preferredId clock).1.canonicalId = none := by
  intro h
  have hnew := (h radioEnv (storeOf provisionalRow) "radio" channelPost (some routerId) 0 (by decide)).1
    routerId provisionalRow (by decide)
  obtain htrimmed | ⟨kept, hkept, hpayload, _⟩ := hnew
  · exact absurd htrimmed (by decide)
  · have hreplaced : ((ingest radioEnv (storeOf provisionalRow) "radio" channelPost (some routerId) 0).2.row "radio"
        routerId).map (·.payload) = some "second line" := by decide
    rw [hkept, Option.map_some, hpayload] at hreplaced
    exact absurd hreplaced (by decide)

end MeshClient.Meshcore
