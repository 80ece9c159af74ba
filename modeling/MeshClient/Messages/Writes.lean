import MeshClient.Messages.Store

namespace MeshClient.Messages

variable {env : StoreEnv}

-- Trimming only drops rows.
theorem get?_of_trim {b : Bucket} {cap : Nat} {id : String} {r : MessageRecord}
    (h : (trimIdentityBucketToNewest env b cap).1.get? id = some r) : b.get? id = some r := by
  have hrows : ∀ r ∈ evictableRows env b, b.get? r.id = some r := by
    intro r hr
    rw [evictableRows, List.mem_insertionSort, List.mem_filter] at hr
    exact (b.mem_values r).mp hr.1
  unfold trimIdentityBucketToNewest at h
  simp only at h
  by_cases hsize : b.values.length ≤ cap
  · rwa [if_pos hsize] at h
  · rw [if_neg hsize] at h
    cases hev : evictableRows env b with
    | nil => rwa [hev] at h
    | cons oldest rest =>
        rw [hev] at h hrows
        simp only at h
        split at h
        · rw [Bucket.get?_omitRecordKey] at h
          by_cases hid : id = oldest.id
          · simp [hid] at h
          · rwa [if_neg hid] at h
        · obtain ⟨hmem, rfl⟩ := Bucket.get?_ofRows h
          obtain hmem | hmem := List.mem_append.mp hmem
          · exact (b.mem_values r).mp (List.mem_filter.mp (List.mem_filter.mp hmem).1).1
          · exact hrows r (List.mem_of_mem_drop hmem)

-- What is dropped is told.
theorem get?_trim {b : Bucket} {cap : Nat} {id : String} {r : MessageRecord} (h : b.get? id = some r) :
    (trimIdentityBucketToNewest env b cap).1.get? id = some r ∨
      id ∈ (trimIdentityBucketToNewest env b cap).2 := by
  obtain rfl := Bucket.id_of_get? h
  have hmem := (b.mem_values r).mpr h
  unfold trimIdentityBucketToNewest
  simp only
  by_cases hsize : b.values.length ≤ cap
  · rw [if_pos hsize]
    exact .inl h
  · rw [if_neg hsize]
    have hperm : (evictableRows env b).Perm (b.values.filter fun message => !isProtectedFromLiveTrim message) :=
      List.perm_insertionSort _ _
    generalize hev : evictableRows env b = evictable at hperm
    cases evictable with
    | nil => exact .inl h
    | cons oldest rest =>
        simp only
        generalize hcount : min (oldest :: rest).length (b.values.length - cap) = evictCount
        split
        · by_cases hid : r.id = oldest.id
          · exact .inr (by rw [hid]; exact List.mem_singleton_self _)
          · rw [Bucket.get?_omitRecordKey, if_neg hid]
            exact .inl h
        · by_cases hevicted : r.id ∈ ((oldest :: rest).take evictCount).map (·.id)
          · exact .inr hevicted
          · left
            apply Bucket.get?_ofRows_of_mem
            · -- The rows that are kept are some of the rows that were there.
              have hall : (b.values.filter isProtectedFromLiveTrim ++ oldest :: rest).Perm b.values :=
                (hperm.append_left _).trans (List.filter_append_perm isProtectedFromLiveTrim b.values)
              exact ((hall.map (·.id)).nodup_iff.mpr b.values_ids_nodup).sublist
                ((List.filter_sublist.append (List.drop_sublist _ _)).map _)
            · rw [List.mem_append]
              by_cases hprotected : isProtectedFromLiveTrim r = true
              · exact .inl (List.mem_filter.mpr ⟨List.mem_filter.mpr ⟨hmem, hprotected⟩, by simpa using hevicted⟩)
              · right
                have hsorted : r ∈ oldest :: rest := by
                  rw [hperm.mem_iff, List.mem_filter]
                  exact ⟨hmem, by simpa using hprotected⟩
                rw [← List.take_append_drop evictCount (oldest :: rest), List.mem_append] at hsorted
                exact hsorted.resolve_left fun hr => hevicted (List.mem_map_of_mem hr)

theorem bucketOf_set (messages : MessagesByIdentity) (identityId : String) (b : Bucket) :
    bucketOf (messages.set identityId b) identityId = b := by
  rw [bucketOf, OrderedMap.get?_set_self, Option.getD_some]

-- The row behind a write.
theorem get?_writeRecord {messages : MessagesByIdentity} {identityId : String} {message row : MessageRecord}
    (h : (bucketOf (writeRecord env messages identityId ((bucketOf messages identityId).get? message.id)
      message).messages identityId).get? message.id = some row) :
    row = message ∨ ∃ existing, (bucketOf messages identityId).get? message.id = some existing ∧
      row = existing ∧ messageRecordFieldsEqual existing message = true := by
  unfold writeRecord at h
  cases hexisting : (bucketOf messages identityId).get? message.id with
  | none =>
      simp only [hexisting, bucketOf_set] at h
      have hgrown := get?_of_trim h
      rw [Bucket.get?_set, if_pos rfl, Option.some.injEq] at hgrown
      exact .inl hgrown.symm
  | some existing =>
      simp only [hexisting] at h
      by_cases heq : messageRecordFieldsEqual existing message = true
      · rw [if_pos heq, hexisting, Option.some.injEq] at h
        exact .inr ⟨existing, rfl, h.symm, heq⟩
      · rw [if_neg heq, bucketOf_set, Bucket.get?_set, if_pos rfl, Option.some.injEq] at h
        exact .inl h.symm

-- The other rows stay, but for those that the write tells it dropped.
theorem get?_writeRecord_other {messages : MessagesByIdentity} {identityId id : String}
    {existing : Option MessageRecord} {message row : MessageRecord} (hid : id ≠ message.id)
    (h : (bucketOf messages identityId).get? id = some row) :
    (bucketOf (writeRecord env messages identityId existing message).messages identityId).get? id = some row ∨
      id ∈ (writeRecord env messages identityId existing message).evictedIds := by
  have hgrown : ((bucketOf messages identityId).set message).get? id = some row := by
    rw [Bucket.get?_set, if_neg hid, h]
  unfold writeRecord
  cases existing with
  | none =>
      simp only [bucketOf_set]
      exact get?_trim hgrown
  | some existing =>
      simp only
      split
      · exact .inl h
      · rw [bucketOf_set]
        exact .inl hgrown

theorem get?_of_writeRecord_other {messages : MessagesByIdentity} {identityId id : String}
    {existing : Option MessageRecord} {message row : MessageRecord} (hid : id ≠ message.id)
    (h : (bucketOf (writeRecord env messages identityId existing message).messages identityId).get? id = some row) :
    (bucketOf messages identityId).get? id = some row := by
  unfold writeRecord at h
  cases existing with
  | none =>
      simp only [bucketOf_set] at h
      have hgrown := get?_of_trim h
      rwa [Bucket.get?_set, if_neg hid] at hgrown
  | some existing =>
      simp only at h
      split at h
      · exact h
      · rwa [bucketOf_set, Bucket.get?_set, if_neg hid] at h

-- The written row is there, if it was not dropped at once.
theorem get?_writeRecord_self {messages : MessagesByIdentity} {identityId : String} (message : MessageRecord) :
    (∃ row, (bucketOf (writeRecord env messages identityId ((bucketOf messages identityId).get? message.id)
        message).messages identityId).get? message.id = some row) ∨
      (bucketOf messages identityId).get? message.id = none ∧
      message.id ∈ (writeRecord env messages identityId ((bucketOf messages identityId).get? message.id)
        message).evictedIds := by
  have hgrown : ((bucketOf messages identityId).set message).get? message.id = some message := by
    rw [Bucket.get?_set, if_pos rfl]
  unfold writeRecord
  cases hexisting : (bucketOf messages identityId).get? message.id with
  | none =>
      simp only [bucketOf_set]
      exact (get?_trim hgrown).imp (fun h => ⟨message, h⟩) fun h => ⟨trivial, h⟩
  | some existing =>
      simp only
      left
      split
      · exact ⟨existing, hexisting⟩
      · rw [bucketOf_set]
        exact ⟨message, hgrown⟩

theorem stampLiveChannelIdentity_get (identityId : String) (message : MessageRecord) {f : MessageField}
    (h : message.get f ≠ none) : (stampLiveChannelIdentity env identityId message).get f = message.get f := by
  unfold stampLiveChannelIdentity
  by_cases hknown : (message.channelKey.isSome || message.radioNodeId.isSome) = true
  · rw [if_pos hknown]
  · rw [if_neg hknown]
    simp only [Bool.or_eq_true, not_or, Bool.not_eq_true, Option.isSome_eq_false_iff, Option.isNone_iff_eq_none]
      at hknown
    cases liveKeysFor env identityId with
    | none => rfl
    | some live =>
        cases f with
        | channelKey => simp [MessageRecord.get, hknown.1] at h
        | radioNodeId => simp [MessageRecord.get, hknown.2] at h
        | _ => rfl

theorem stampLiveChannelIdentity_id (identityId : String) (message : MessageRecord) :
    (stampLiveChannelIdentity env identityId message).id = message.id := by
  unfold stampLiveChannelIdentity
  split
  · rfl
  · split <;> rfl

theorem carryChannelIdentity_eq (existing incoming : MessageRecord) :
    carryChannelIdentity existing incoming =
      { incoming with
        channelKey := incoming.channelKey.or existing.channelKey
        radioNodeId := incoming.radioNodeId.or existing.radioNodeId } := by
  unfold carryChannelIdentity
  split
  · rename_i h
    have hor : ∀ {α : Type} (x y : Option α), x.isSome = true ∨ y = none → x = x.or y := by
      rintro α x y (hx | rfl)
      · obtain ⟨v, rfl⟩ := Option.isSome_iff_exists.mp hx
        rfl
      · exact (Option.or_none).symm
    simp only [Bool.and_eq_true, Bool.or_eq_true, decide_eq_true_eq] at h
    rw [← hor _ _ h.1, ← hor _ _ h.2]
  · rfl

-- The write sets the field to something else than the row holds, and it is not one that the row keeps.
def Overwrites (existing : MessageRecord) (message : MessageWrite) (f : MessageField) : Prop :=
  message.has f = true ∧ message.record.get f ≠ existing.get f ∧
    ¬ (f = .localOrder ∧ existing.localOrder ≠ none) ∧ ¬ (f = .to' ∧ message.record.to' = 0)

-- Likewise where the whole record is replaced, and only the channel identity is carried over.
def Replaces (existing incoming : MessageRecord) (f : MessageField) : Prop :=
  incoming.get f ≠ existing.get f ∧ ¬ ((f = .channelKey ∨ f = .radioNodeId) ∧ incoming.get f = none)

theorem mergeOnto_get {existing : MessageRecord} {message : MessageWrite} {f : MessageField}
    (horder : ¬ (f = .localOrder ∧ existing.localOrder ≠ none))
    (hto : ¬ (f = .to' ∧ message.record.to' = 0 ∧ existing.to' ≠ 0)) :
    (mergeOnto existing message).get f = (spread existing message).get f := by
  cases f with
  | localOrder =>
      have hnone : existing.localOrder = none := by simpa using horder
      simp [mergeOnto, MessageRecord.get, hnone]
  | to' =>
      have hknown : ¬ (message.record.to' = 0 ∧ existing.to' ≠ 0) := fun h => hto ⟨rfl, h⟩
      exact congrArg (fun n => some (FieldValue.int n)) (if_neg hknown)
  | _ => rfl

theorem mergeOnto_keeps {existing : MessageRecord} {message : MessageWrite} {f : MessageField}
    (h : f = .localOrder ∧ existing.localOrder ≠ none ∨
      f = .to' ∧ message.record.to' = 0 ∧ existing.to' ≠ 0) :
    (mergeOnto existing message).get f = existing.get f := by
  obtain ⟨rfl, horder⟩ | ⟨rfl, hto⟩ := h
  · obtain ⟨order, horder⟩ := Option.ne_none_iff_exists'.mp horder
    simp only [mergeOnto, MessageRecord.get, horder, Option.some_or]
  · exact congrArg (fun n => some (FieldValue.int n)) (if_pos hto)

theorem mergeOnto_changes_iff (existing : MessageRecord) (message : MessageWrite) (f : MessageField) :
    (mergeOnto existing message).get f ≠ existing.get f ↔ Overwrites existing message f := by
  by_cases hkept : f = .localOrder ∧ existing.localOrder ≠ none ∨
      f = .to' ∧ message.record.to' = 0 ∧ existing.to' ≠ 0
  · have hkeeps := mergeOnto_keeps hkept
    refine ⟨fun h => absurd hkeeps h, fun h => ?_⟩
    obtain hkept | ⟨hf, hto, _⟩ := hkept
    · exact absurd hkept h.2.2.1
    · exact absurd ⟨hf, hto⟩ h.2.2.2
  · obtain ⟨horder, hto⟩ := not_or.mp hkept
    rw [mergeOnto_get horder hto, get_spread]
    by_cases hhas : message.has f = true
    · rw [if_pos hhas]
      refine ⟨fun h => ⟨hhas, h, horder, ?_⟩, fun h => h.2.1⟩
      -- A recipient of zero that changes nothing stands on a row without a recipient.
      rintro ⟨rfl, hzero⟩
      have hunknown : existing.to' = 0 := not_not.mp fun hne => hto ⟨rfl, hzero, hne⟩
      exact h (by simp only [MessageRecord.get, hzero, hunknown])
    · rw [if_neg hhas]
      exact ⟨fun h => absurd rfl h, fun h => absurd h.1 hhas⟩

theorem carryChannelIdentity_changes_iff (existing incoming : MessageRecord) (f : MessageField) :
    (carryChannelIdentity existing incoming).get f ≠ existing.get f ↔ Replaces existing incoming f := by
  have hcarried : ∀ {α : Type} (g : α → FieldValue) (x y : Option α),
      (x.or y).map g ≠ y.map g ↔ x.map g ≠ y.map g ∧ ¬ x.map g = none := by
    intro α g x y
    cases x with
    | none => simp
    | some v => simp
  rw [carryChannelIdentity_eq]
  cases f with
  | channelKey => simpa [Replaces, MessageRecord.get] using hcarried .text _ _
  | radioNodeId => simpa [Replaces, MessageRecord.get] using hcarried .int _ _
  | _ => simp [Replaces, MessageRecord.get]

-- The row shows every field of the message, but for an order it had before and a recipient it knew.
def Carries (existing : Option MessageRecord) (message row : MessageRecord) : Prop :=
  ∀ f, message.get f ≠ none → row.get f = message.get f ∨
    ∃ known, existing = some known ∧ row.get f = known.get f ∧
      (f = .localOrder ∧ known.localOrder ≠ none ∨ f = .to' ∧ message.to' = 0 ∧ known.to' ≠ 0)

-- What holds of a write of `message` that arrives at the record `written`: the row shows the message, and
-- a row is only taken to be the written record where the two differ in nothing.
def NothingDropped (before after : MessagesByIdentity) (identityId : String) (message written : MessageRecord) : Prop :=
  (∀ row, (bucketOf after identityId).get? message.id = some row →
    Carries ((bucketOf before identityId).get? message.id) message row) ∧
  ∀ existing, (bucketOf before identityId).get? message.id = some existing →
    messageRecordFieldsEqual existing written = true → ∀ f, existing.get f = written.get f

-- Of the fields that a write changes, the wire text is not the only one.
def Shown (changes : MessageField → Prop) : Prop :=
  (∃ f, f ≠ .meshcoreDedupeKey ∧ changes f) ∨ ¬ changes .meshcoreDedupeKey

theorem shown_iff {existing written : MessageRecord} {changes : MessageField → Prop}
    (hchanges : ∀ f, written.get f ≠ existing.get f ↔ changes f) :
    (messageRecordFieldsEqual existing written = true → ∀ f, existing.get f = written.get f) ↔
      Shown changes := by
  rw [messageRecordFieldsEqual_iff]
  simp only [Shown, ← hchanges, not_not]
  constructor
  · intro h
    by_cases hother : ∃ f, f ≠ .meshcoreDedupeKey ∧ written.get f ≠ existing.get f
    · exact .inl hother
    · refine .inr (h (fun f hf => ?_) .meshcoreDedupeKey).symm
      exact (not_not.mp fun hne => hother ⟨f, hf, hne⟩).symm
  · rintro (⟨f, hf, hne⟩ | hsame) heq f'
    · exact absurd (heq f hf).symm hne
    · by_cases hf' : f' = .meshcoreDedupeKey
      · rw [hf', hsame]
      · exact heq f' hf'

theorem nothingDropped_iff {messages : MessagesByIdentity} {identityId : String} {message written : MessageRecord}
    (hid : written.id = message.id)
    (hcarries : Carries ((bucketOf messages identityId).get? message.id) message written)
    {changes : MessageRecord → MessageField → Prop}
    (hchanges : ∀ existing, (bucketOf messages identityId).get? message.id = some existing →
      ∀ f, written.get f ≠ existing.get f ↔ changes existing f) :
    NothingDropped messages (writeRecord env messages identityId
        ((bucketOf messages identityId).get? message.id) written).messages identityId message written ↔
      ∀ existing, (bucketOf messages identityId).get? message.id = some existing →
        Shown (changes existing) := by
  constructor
  · intro h existing hexisting
    exact (shown_iff (hchanges existing hexisting)).mp (h.2 existing hexisting)
  · intro h
    have hequal := fun existing hexisting => (shown_iff (hchanges existing hexisting)).mpr (h existing hexisting)
    refine ⟨fun row hrow => ?_, hequal⟩
    rw [← hid] at hrow
    obtain rfl | ⟨existing, hexisting, rfl, hsame⟩ := get?_writeRecord hrow
    · exact hcarries
    · rw [hid] at hexisting
      intro f hf
      rw [hequal row hexisting hsame f]
      exact hcarries f hf

theorem upsertedRecord_id (messages : MessagesByIdentity) (identityId : String) (message : MessageWrite) :
    (upsertedRecord env messages identityId message).id = message.record.id := by
  unfold upsertedRecord
  split
  · rfl
  · exact stampLiveChannelIdentity_id identityId message.record

theorem addedRecord_id (messages : MessagesByIdentity) (identityId : String) (incoming : MessageRecord) :
    (addedRecord env messages identityId incoming).id = incoming.id := by
  unfold addedRecord
  split
  · rw [carryChannelIdentity_eq]
  · exact stampLiveChannelIdentity_id identityId incoming

theorem upsertedRecord_carries (messages : MessagesByIdentity) (identityId : String) (message : MessageWrite) :
    Carries ((bucketOf messages identityId).get? message.record.id) message.record
      (upsertedRecord env messages identityId message) := by
  intro f hf
  unfold upsertedRecord
  cases hexisting : (bucketOf messages identityId).get? message.record.id with
  | none => exact .inl (stampLiveChannelIdentity_get identityId message.record hf)
  | some existing =>
      by_cases hkept : f = .localOrder ∧ existing.localOrder ≠ none ∨
          f = .to' ∧ message.record.to' = 0 ∧ existing.to' ≠ 0
      · exact .inr ⟨existing, rfl, mergeOnto_keeps hkept, hkept⟩
      · obtain ⟨horder, hto⟩ := not_or.mp hkept
        have hhas : message.has f = true := by
          by_contra hno
          exact hf (message.absent f (by simpa using hno))
        left
        show (mergeOnto existing message).get f = message.record.get f
        rw [mergeOnto_get horder hto, get_spread, if_pos hhas]

theorem addedRecord_carries (messages : MessagesByIdentity) (identityId : String) (incoming : MessageRecord) :
    Carries ((bucketOf messages identityId).get? incoming.id) incoming
      (addedRecord env messages identityId incoming) := by
  intro f hf
  left
  unfold addedRecord
  cases (bucketOf messages identityId).get? incoming.id with
  | none => exact stampLiveChannelIdentity_get identityId incoming hf
  | some existing =>
      have hcarried : ∀ {α : Type} (g : α → FieldValue) (x y : Option α), x.map g ≠ none →
          (x.or y).map g = x.map g := by
        intro α g x y hx
        cases x with
        | none => exact absurd rfl hx
        | some v => rfl
      show (carryChannelIdentity existing incoming).get f = incoming.get f
      rw [carryChannelIdentity_eq]
      cases f with
      | channelKey => exact hcarried .text _ _ hf
      | radioNodeId => exact hcarried .int _ _ hf
      | _ => rfl

-- A write drops nothing exactly where it inserts a row, changes a field besides the wire text, or leaves
-- the wire text alone.
theorem writes_drop_nothing_iff (env : StoreEnv) (messages : MessagesByIdentity) (identityId : String) :
    (∀ message : MessageWrite,
      NothingDropped messages (upsertMessage env messages identityId message).messages identityId message.record
          (upsertedRecord env messages identityId message) ↔
        ∀ existing, (bucketOf messages identityId).get? message.record.id = some existing →
          Shown (Overwrites existing message)) ∧
    ∀ incoming : MessageRecord,
      NothingDropped messages (addMessage env messages identityId incoming).messages identityId incoming
          (addedRecord env messages identityId incoming) ↔
        ∀ existing, (bucketOf messages identityId).get? incoming.id = some existing →
          Shown (Replaces existing incoming) := by
  refine ⟨fun message => ?_, fun incoming => ?_⟩
  · refine nothingDropped_iff (upsertedRecord_id messages identityId message)
      (upsertedRecord_carries messages identityId message) fun existing hexisting f => ?_
    have hmerged : upsertedRecord env messages identityId message = mergeOnto existing message := by
      simp only [upsertedRecord, hexisting]
    rw [hmerged]
    exact mergeOnto_changes_iff existing message f
  · refine nothingDropped_iff (addedRecord_id messages identityId incoming)
      (addedRecord_carries messages identityId incoming) fun existing hexisting f => ?_
    have hcarried : addedRecord env messages identityId incoming = carryChannelIdentity existing incoming := by
      simp only [addedRecord, hexisting]
    rw [hcarried]
    exact carryChannelIdentity_changes_iff existing incoming f

def meshcoreEnv : StoreEnv := ⟨fun _ => some .meshcore, fun _ => none, 1000, fun _ _ => 0⟩

-- Our own reaction as it is stored when it is sent, before its wire text is known.
def sentReaction : MessageRecord where
  id := "ch:0:7:1700000000"
  from' := 7
  to' := MESHTASTIC_BROADCAST_NODE_NUM
  payload := "+"
  channelIndex := 0
  timestamp := 1700000000000
  tapback := some true
  replyTo := some "1699999999000"

def sentReactions : MessagesByIdentity := (∅ : MessagesByIdentity).set "radio" ((∅ : Bucket).set sentReaction)

-- The echo's wire text is the only thing that the merge writes, and it is dropped.
theorem wire_text_is_dropped :
    ¬ ∀ (env : StoreEnv) (messages : MessagesByIdentity) (identityId : String) (message : MessageWrite),
      NothingDropped messages (upsertMessage env messages identityId message).messages identityId message.record
        (upsertedRecord env messages identityId message) := by
  intro h
  have hechoed := (h meshcoreEnv sentReactions "radio"
    { sentReaction with meshcoreDedupeKey := some "@[Bob] +" }.toWrite).1 sentReaction (by decide)
    .meshcoreDedupeKey (by decide)
  obtain hshown | ⟨_, _, _, ⟨hf, _⟩ | ⟨hf, _⟩⟩ := hechoed
  · exact absurd hshown (by decide)
  · cases hf
  · cases hf

end MeshClient.Messages
