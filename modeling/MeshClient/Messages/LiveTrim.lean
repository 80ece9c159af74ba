import MeshClient.Meshcore.HeardRepeatTracker
import MeshClient.Messages.Writes

namespace MeshClient.Messages

-- What a collation promises: it compares any two strings, and consistently.
structure Collates (localeCompare : String → String → Int) : Prop where
  total : ∀ a b, localeCompare a b ≤ 0 ∨ localeCompare b a ≤ 0
  trans : ∀ a b c, localeCompare a b ≤ 0 → localeCompare b c ≤ 0 → localeCompare a c ≤ 0

-- Each coverage entry and listen window of a dropped message goes with it.
def cleanupEvictedLiveMessages (tracker : Meshcore.Tracker) (identityId : String) (evictedIds : List String) :
    Meshcore.Tracker :=
  evictedIds.foldl (fun t id =>
    Meshcore.Tracker.clearHeardRepeatWindowIfMessage
      { t with coverage := t.coverage.remove identityId id } identityId id) tracker

variable {env : StoreEnv}

theorem compareMessageRecordsForTrim_le_iff (a b : MessageRecord) :
    compareMessageRecordsForTrim env a b ≤ 0 ↔ a.timestamp < b.timestamp ∨ a.timestamp = b.timestamp ∧
      (a.localOrder.getD 0 < b.localOrder.getD 0 ∨ a.localOrder.getD 0 = b.localOrder.getD 0 ∧
        env.localeCompare a.id b.id ≤ 0) := by
  unfold compareMessageRecordsForTrim
  by_cases ht : a.timestamp = b.timestamp
  · by_cases ho : a.localOrder.getD 0 = b.localOrder.getD 0
    · simp [ht, ho]
    · rw [if_neg (not_not.mpr ht), if_pos ho]
      omega
  · rw [if_pos ht]
    omega

section

variable (hcollates : Collates env.localeCompare)

include hcollates

theorem compareMessageRecordsForTrim_total (a b : MessageRecord) :
    compareMessageRecordsForTrim env a b ≤ 0 ∨ compareMessageRecordsForTrim env b a ≤ 0 := by
  rw [compareMessageRecordsForTrim_le_iff, compareMessageRecordsForTrim_le_iff]
  have hid := hcollates.total a.id b.id
  omega

theorem compareMessageRecordsForTrim_trans {a b c : MessageRecord}
    (hab : compareMessageRecordsForTrim env a b ≤ 0) (hbc : compareMessageRecordsForTrim env b c ≤ 0) :
    compareMessageRecordsForTrim env a c ≤ 0 := by
  rw [compareMessageRecordsForTrim_le_iff] at hab hbc ⊢
  have hid := hcollates.trans a.id b.id c.id
  omega

theorem evictableRows_sorted (b : Bucket) :
    (evictableRows env b).Pairwise fun x y => compareMessageRecordsForTrim env x y ≤ 0 := by
  have : Std.Total fun x y : MessageRecord => compareMessageRecordsForTrim env x y ≤ 0 :=
    ⟨compareMessageRecordsForTrim_total hcollates⟩
  have : IsTrans MessageRecord fun x y => compareMessageRecordsForTrim env x y ≤ 0 :=
    ⟨fun _ _ _ => compareMessageRecordsForTrim_trans hcollates⟩
  exact List.pairwise_insertionSort _ _

end

theorem evictableRows_perm (b : Bucket) :
    (b.values.filter isProtectedFromLiveTrim ++ evictableRows env b).Perm b.values :=
  ((List.perm_insertionSort _ _).append_left _).trans (List.filter_append_perm isProtectedFromLiveTrim b.values)

theorem mem_evictableRows {b : Bucket} {r : MessageRecord} :
    r ∈ evictableRows env b ↔ r ∈ b.values ∧ isProtectedFromLiveTrim r = false := by
  simp [evictableRows]

theorem Bucket.values_nodup (b : Bucket) : b.values.Nodup := b.values_ids_nodup.of_map

theorem Bucket.eq_of_id_eq {b : Bucket} {r r' : MessageRecord} (h : r ∈ b.values) (h' : r' ∈ b.values)
    (hid : r.id = r'.id) : r = r' :=
  List.inj_on_of_nodup_map b.values_ids_nodup h h' hid

theorem Bucket.mem_values_omitRecordKey {b : Bucket} {key : String} {r : MessageRecord} :
    r ∈ (b.omitRecordKey key).values ↔ r ∈ b.values ∧ r.id ≠ key := by
  rw [mem_values, mem_values, get?_omitRecordKey]
  by_cases hid : r.id = key <;> simp [hid]

theorem Bucket.mem_values_ofRows {rows : List MessageRecord} (hn : (rows.map (·.id)).Nodup) {r : MessageRecord} :
    r ∈ (ofRows rows).values ↔ r ∈ rows := by
  rw [mem_values]
  exact ⟨fun h => (get?_ofRows h).1, get?_ofRows_of_mem hn⟩

def keptRows (env : StoreEnv) (b : Bucket) (cap : Nat) : List MessageRecord :=
  b.values.filter isProtectedFromLiveTrim ++ (evictableRows env b).drop (b.values.length - cap)

theorem keptRows_sublist (b : Bucket) (cap : Nat) :
    (keptRows env b cap).Sublist (b.values.filter isProtectedFromLiveTrim ++ evictableRows env b) :=
  (List.Sublist.refl _).append (List.drop_sublist _ _)

theorem keptRows_ids_nodup (b : Bucket) (cap : Nat) : ((keptRows env b cap).map (·.id)).Nodup :=
  (((evictableRows_perm b).map (·.id)).nodup_iff.mpr b.values_ids_nodup).sublist
    ((keptRows_sublist b cap).map _)

-- Both paths of the trimming keep the same rows and tell the same ids.
theorem trim_spec (b : Bucket) (cap : Nat) :
    (trimIdentityBucketToNewest env b cap).1.values.Perm (keptRows env b cap) ∧
    (trimIdentityBucketToNewest env b cap).2 =
      ((evictableRows env b).take (b.values.length - cap)).map (·.id) := by
  have hperm := @evictableRows_perm env b
  have hids := @keptRows_ids_nodup env b cap
  unfold trimIdentityBucketToNewest
  simp only
  by_cases hsize : b.values.length ≤ cap
  · rw [if_pos hsize, keptRows, Nat.sub_eq_zero_of_le hsize, List.take_zero, List.drop_zero]
    exact ⟨hperm.symm, rfl⟩
  · rw [if_neg hsize]
    rw [keptRows] at hids ⊢
    generalize evictableRows env b = evictable at hperm hids
    cases evictable with
    | nil =>
        rw [List.append_nil] at hperm
        simp only [List.drop_nil, List.take_nil, List.append_nil]
        exact ⟨hperm.symm, rfl⟩
    | cons oldest rest =>
        simp only
        by_cases hfast : b.values.length = cap + 1 ∧
            min (oldest :: rest).length (b.values.length - cap) = 1
        · have hover : b.values.length - cap = 1 := by omega
          rw [if_pos hfast, hover, List.drop_one, List.tail_cons, List.take_one]
          refine ⟨(List.perm_ext_iff_of_nodup (Bucket.values_nodup _) ?_).mpr fun r => ?_, rfl⟩
          · rw [hover, List.drop_one, List.tail_cons] at hids
            exact hids.of_map
          · have hcons := List.perm_middle.symm.trans hperm
            have hnot := (List.nodup_cons.mp (hcons.nodup_iff.mpr b.values_nodup)).1
            have hmem : ∀ x, x ∈ b.values ↔ x = oldest ∨ x ∈ b.values.filter isProtectedFromLiveTrim ++ rest :=
              fun x => by rw [← hcons.mem_iff, List.mem_cons]
            rw [Bucket.mem_values_omitRecordKey, hmem]
            constructor
            · rintro ⟨rfl | hr, hid⟩
              · exact absurd rfl hid
              · exact hr
            · intro hr
              refine ⟨.inr hr, fun hid => hnot ?_⟩
              rwa [← Bucket.eq_of_id_eq ((hmem r).mpr (.inr hr)) ((hmem oldest).mpr (.inl rfl)) hid]
        · rw [if_neg hfast]
          generalize b.values.length - cap = excess at hids
          have htake : (oldest :: rest).take (min (oldest :: rest).length excess) =
              (oldest :: rest).take excess := by
            rw [Nat.min_comm, ← List.take_eq_take_min]
          have hdrop : (oldest :: rest).drop (min (oldest :: rest).length excess) =
              (oldest :: rest).drop excess := by
            rw [Nat.min_comm, ← List.drop_eq_drop_min]
          rw [htake, hdrop]
          -- no row that is being sent is among the evicted ones
          have hfilter : (b.values.filter isProtectedFromLiveTrim).filter (fun message =>
              message.id ∉ ((oldest :: rest).take excess).map (·.id)) = b.values.filter isProtectedFromLiveTrim := by
            rw [List.filter_eq_self]
            intro r hr
            have hn := (hperm.map (·.id)).nodup_iff.mpr b.values_ids_nodup
            rw [List.map_append] at hn
            rw [decide_eq_true_eq]
            intro hmem
            apply (List.nodup_append'.mp hn).2.2 (List.mem_map_of_mem hr)
            exact ((List.take_sublist excess _).map _).subset hmem
          rw [hfilter]
          refine ⟨(List.perm_ext_iff_of_nodup (Bucket.values_nodup _) hids.of_map).mpr fun r => ?_, rfl⟩
          exact Bucket.mem_values_ofRows hids

theorem mem_values_trim {b : Bucket} {cap : Nat} {r : MessageRecord} :
    r ∈ (trimIdentityBucketToNewest env b cap).1.values ↔ r ∈ keptRows env b cap :=
  (trim_spec b cap).1.mem_iff

def Dropped (grown after : Bucket) (id : String) : Prop := grown.get? id ≠ none ∧ after.get? id = none

-- The ids told are those of the rows that are gone.
theorem mem_evictedIds_iff {b : Bucket} {cap : Nat} {id : String} :
    id ∈ (trimIdentityBucketToNewest env b cap).2 ↔
      Dropped b (trimIdentityBucketToNewest env b cap).1 id := by
  constructor
  · intro h
    rw [(trim_spec b cap).2] at h
    obtain ⟨r, hr, rfl⟩ := List.mem_map.mp h
    have hrow : r ∈ b.values := (mem_evictableRows.mp (List.mem_of_mem_take hr)).1
    refine ⟨by rw [(b.mem_values r).mp hrow]; exact Option.some_ne_none r, ?_⟩
    by_contra hkept
    obtain ⟨r', hr'⟩ := Option.ne_none_iff_exists'.mp hkept
    have hid := Bucket.id_of_get? hr'
    rw [← hid] at hr'
    have hmem := mem_values_trim.mp ((Bucket.mem_values _ _).mpr hr')
    have hn := ((@evictableRows_perm env b).map (·.id)).nodup_iff.mpr b.values_ids_nodup
    rw [← List.take_append_drop (b.values.length - cap) (evictableRows env b), List.map_append,
      List.map_append, List.nodup_append'] at hn
    obtain ⟨-, hrest, hapart⟩ := hn
    rcases List.mem_append.mp hmem with hp | hd
    · apply hapart (List.mem_map_of_mem hp)
      rw [hid]
      exact List.mem_append_left _ (List.mem_map_of_mem hr)
    · apply (List.nodup_append'.mp hrest).2.2 (List.mem_map_of_mem hr)
      rw [← hid]
      exact List.mem_map_of_mem hd
  · rintro ⟨hgrown, hgone⟩
    obtain ⟨r, hr⟩ := Option.ne_none_iff_exists'.mp hgrown
    refine (@get?_trim env b cap id r hr).resolve_left fun hkept => ?_
    rw [hgone] at hkept
    cases hkept

-- Trimming leaves the newest rows among those that it may drop.
structure LiveTrimmed (env : StoreEnv) (cap : Nat) (grown after : Bucket) : Prop where
  untouched : grown.values.length ≤ cap → after = grown
  size : cap < grown.values.length →
    after.values.length = max cap (grown.values.countP fun r => r.status = some .sending)
  unchanged : ∀ id r, after.get? id = some r → grown.get? id = some r
  sending : ∀ id r, grown.get? id = some r → r.status = some .sending → after.get? id = some r
  newest : ∀ removed kept, grown.get? removed.id = some removed → after.get? removed.id = none →
    after.get? kept.id = some kept → kept.status ≠ some .sending →
    compareMessageRecordsForTrim env removed kept ≤ 0

theorem trim_size {b : Bucket} {cap : Nat} (h : cap < b.values.length) :
    (trimIdentityBucketToNewest env b cap).1.values.length =
      max cap (b.values.countP isProtectedFromLiveTrim) := by
  have hlength := (@evictableRows_perm env b).length_eq
  rw [(trim_spec b cap).1.length_eq, keptRows, List.length_append, List.length_drop, List.countP_eq_length_filter]
  rw [List.length_append] at hlength
  omega

theorem trim_liveTrimmed (hcollates : Collates env.localeCompare) (b : Bucket) (cap : Nat) :
    LiveTrimmed env cap b (trimIdentityBucketToNewest env b cap).1 where
  untouched := by
    intro h
    unfold trimIdentityBucketToNewest
    simp only
    rw [if_pos h]
  size := trim_size
  unchanged _ _ := get?_of_trim
  sending := by
    intro id r hr hsending
    obtain rfl := Bucket.id_of_get? hr
    rw [← Bucket.mem_values, mem_values_trim, keptRows]
    apply List.mem_append_left
    exact List.mem_filter.mpr ⟨(b.mem_values r).mpr hr, decide_eq_true hsending⟩
  newest := by
    intro removed kept hremoved hgone hkept hidle
    have hdropped : removed.id ∈ (trimIdentityBucketToNewest env b cap).2 :=
      mem_evictedIds_iff.mpr ⟨by rw [hremoved]; exact Option.some_ne_none removed, hgone⟩
    rw [(trim_spec b cap).2] at hdropped
    obtain ⟨r, hr, hid⟩ := List.mem_map.mp hdropped
    have heq : r = removed := by
      apply Bucket.eq_of_id_eq (mem_evictableRows.mp (List.mem_of_mem_take hr)).1 _ hid
      exact (b.mem_values removed).mpr hremoved
    have hstays : kept ∈ (evictableRows env b).drop (b.values.length - cap) := by
      have hmem := mem_values_trim.mp ((Bucket.mem_values _ kept).mpr hkept)
      refine (List.mem_append.mp hmem).resolve_left fun hp => hidle ?_
      exact of_decide_eq_true (List.mem_filter.mp hp).2
    have hsorted := evictableRows_sorted hcollates b
    rw [← List.take_append_drop (b.values.length - cap) (evictableRows env b)] at hsorted
    exact (List.pairwise_append.mp hsorted).2.2 removed (heq ▸ hr) kept hstays

theorem clearHeardRepeatWindowIfMessage_coverage (t : Meshcore.Tracker) (identityId messageId : String) :
    (t.clearHeardRepeatWindowIfMessage identityId messageId).coverage = t.coverage := by
  unfold Meshcore.Tracker.clearHeardRepeatWindowIfMessage
  split
  · rfl
  · split <;> rfl

theorem clearHeardRepeatWindowIfMessage_window (t : Meshcore.Tracker) (identityId messageId i : String)
    (w : Meshcore.PendingWindow) :
    (t.clearHeardRepeatWindowIfMessage identityId messageId).pendingByIdentity.get? i = some w ↔
      t.pendingByIdentity.get? i = some w ∧ ¬(i = identityId ∧ w.messageId = messageId) := by
  unfold Meshcore.Tracker.clearHeardRepeatWindowIfMessage
  by_cases hi : i = identityId
  · subst hi
    cases hw : t.pendingByIdentity.get? i with
    | none => simp [hw]
    | some w' =>
        by_cases hm : w'.messageId = messageId
        · simp only [if_pos hm, Meshcore.Tracker.get?_clearHeardRepeatWindow, if_true]
          refine iff_of_false (Option.some_ne_none w).symm ?_
          rintro ⟨hsame, hother⟩
          rw [Option.some_inj] at hsame
          exact hother ⟨trivial, hsame ▸ hm⟩
        · simp only [if_neg hm, hw]
          refine ⟨fun hsame => ⟨hsame, fun hboth => ?_⟩, And.left⟩
          rw [Option.some_inj] at hsame
          exact hm (hsame ▸ hboth.2)
  · have hother : (t.clearHeardRepeatWindow identityId).pendingByIdentity.get? i =
        t.pendingByIdentity.get? i := by
      rw [Meshcore.Tracker.get?_clearHeardRepeatWindow, if_neg hi]
    split
    · simp [hi]
    · split <;> simp [hi, hother]

theorem coverage_cleanup (t : Meshcore.Tracker) (identityId key : String) (ids : List String)
    (entry : Meshcore.RelayCoverage) :
    (cleanupEvictedLiveMessages t identityId ids).coverage.get? key = some entry ↔
      t.coverage.get? key = some entry ∧ ∀ id ∈ ids, key ≠ Meshcore.relayCoverageKey identityId id := by
  induction ids generalizing t with
  | nil => simp [cleanupEvictedLiveMessages]
  | cons id ids ih =>
      rw [cleanupEvictedLiveMessages, List.foldl_cons]
      refine (ih _).trans ?_
      rw [clearHeardRepeatWindowIfMessage_coverage, Meshcore.Coverage.remove, OrderedMap.get?_filter]
      cases t.coverage.get? key with
      | none => simp
      | some known => by_cases hkey : key = Meshcore.relayCoverageKey identityId id <;> simp [hkey, Option.filter]

theorem window_cleanup (t : Meshcore.Tracker) (identityId i : String) (ids : List String)
    (w : Meshcore.PendingWindow) :
    (cleanupEvictedLiveMessages t identityId ids).pendingByIdentity.get? i = some w ↔
      t.pendingByIdentity.get? i = some w ∧ ¬(i = identityId ∧ w.messageId ∈ ids) := by
  induction ids generalizing t with
  | nil => simp [cleanupEvictedLiveMessages]
  | cons id ids ih =>
      rw [cleanupEvictedLiveMessages, List.foldl_cons]
      refine (ih _).trans ?_
      rw [clearHeardRepeatWindowIfMessage_window, List.mem_cons]
      tauto

theorem relayCoverageKey_inj {identityId id id' : String}
    (h : Meshcore.relayCoverageKey identityId id = Meshcore.relayCoverageKey identityId id') : id = id' := by
  simpa [Meshcore.relayCoverageKey, String.append_assoc] using h

-- What a live insert of `row` does to the bucket, to what hangs on its rows and to the listeners.
structure LiveInsert (env : StoreEnv) (messages : MessagesByIdentity) (identityId : String) (row : MessageRecord)
    (tracker : Meshcore.Tracker) (result : WriteResult) : Prop where
  trimmed : LiveTrimmed env (resolveLiveMessageCap env identityId) ((bucketOf messages identityId).set row)
    (bucketOf result.messages identityId)
  coverage : ∀ id entry,
    (cleanupEvictedLiveMessages tracker identityId result.evictedIds).coverage.coverageFor identityId id =
        some entry ↔
      tracker.coverage.coverageFor identityId id = some entry ∧
        ¬Dropped ((bucketOf messages identityId).set row) (bucketOf result.messages identityId) id
  otherCoverage : ∀ key, (∀ id,
      Dropped ((bucketOf messages identityId).set row) (bucketOf result.messages identityId) id →
        key ≠ Meshcore.relayCoverageKey identityId id) →
    (cleanupEvictedLiveMessages tracker identityId result.evictedIds).coverage.get? key =
      tracker.coverage.get? key
  windows : ∀ i w,
    (cleanupEvictedLiveMessages tracker identityId result.evictedIds).pendingByIdentity.get? i = some w ↔
      tracker.pendingByIdentity.get? i = some w ∧ ¬(i = identityId ∧
        Dropped ((bucketOf messages identityId).set row) (bucketOf result.messages identityId) w.messageId)
  added : ∀ r, result.added = some r ↔
    r = row ∧ (bucketOf result.messages identityId).get? row.id = some row

theorem writeRecord_liveInsert (hcollates : Collates env.localeCompare) (messages : MessagesByIdentity)
    (identityId : String) (row : MessageRecord) (tracker : Meshcore.Tracker) :
    LiveInsert env messages identityId row tracker (writeRecord env messages identityId none row) := by
  have hbucket : bucketOf (writeRecord env messages identityId none row).messages identityId =
      (trimIdentityBucketToNewest env ((bucketOf messages identityId).set row)
        (resolveLiveMessageCap env identityId)).1 := bucketOf_set _ _ _
  have hdropped : ∀ id, id ∈ (writeRecord env messages identityId none row).evictedIds ↔
      Dropped ((bucketOf messages identityId).set row)
        (bucketOf (writeRecord env messages identityId none row).messages identityId) id := by
    intro id
    rw [hbucket]
    exact mem_evictedIds_iff
  refine ⟨?_, ?_, ?_, ?_, ?_⟩
  · rw [hbucket]
    exact trim_liveTrimmed hcollates _ _
  · intro id entry
    rw [Meshcore.Coverage.coverageFor, coverage_cleanup, ← hdropped]
    refine and_congr Iff.rfl ⟨fun h hid => h id hid rfl, fun h id' hid' hkey => h ?_⟩
    rwa [relayCoverageKey_inj hkey]
  · intro key hkey
    apply Option.ext
    intro entry
    rw [coverage_cleanup]
    exact and_iff_left fun id hid => hkey id ((hdropped id).mp hid)
  · intro i w
    rw [window_cleanup, hdropped]
  · intro r
    have hgrown : ((bucketOf messages identityId).set row).get? row.id = some row := by
      rw [Bucket.get?_set, if_pos rfl]
    rw [hbucket]
    simp only [writeRecord]
    cases hafter : (trimIdentityBucketToNewest env ((bucketOf messages identityId).set row)
        (resolveLiveMessageCap env identityId)).1.get? row.id with
    | none => simp
    | some row' =>
        have hsame := get?_of_trim hafter
        rw [hgrown, Option.some_inj] at hsame
        simp [hsame, eq_comm]

theorem live_insert_keeps_the_newest (env : StoreEnv) (hcollates : Collates env.localeCompare)
    (messages : MessagesByIdentity) (identityId : String) (tracker : Meshcore.Tracker) :
    (∀ incoming : MessageRecord, (bucketOf messages identityId).get? incoming.id = none →
      LiveInsert env messages identityId (addedRecord env messages identityId incoming) tracker
        (addMessage env messages identityId incoming)) ∧
    ∀ message : MessageWrite, (bucketOf messages identityId).get? message.record.id = none →
      LiveInsert env messages identityId (upsertedRecord env messages identityId message) tracker
        (upsertMessage env messages identityId message) := by
  refine ⟨fun incoming hnew => ?_, fun message hnew => ?_⟩
  · rw [addMessage, hnew]
    exact writeRecord_liveInsert hcollates messages identityId _ tracker
  · rw [upsertMessage, hnew]
    exact writeRecord_liveInsert hcollates messages identityId _ tracker

-- The collation of strings of digits.
def digitCompare (a b : String) : Int := if a < b then -1 else if a = b then 0 else 1

theorem digitCompare_le_iff (a b : String) : digitCompare a b ≤ 0 ↔ a ≤ b := by
  unfold digitCompare
  rcases lt_trichotomy a b with h | h | h
  · simp [h, h.le]
  · simp [h]
  · simp [h, h.not_gt, h.ne']

theorem digitCompare_collates : Collates digitCompare where
  total a b := by
    rw [digitCompare_le_iff, digitCompare_le_iff]
    exact le_total a b
  trans a b c := by
    rw [digitCompare_le_iff, digitCompare_le_iff, digitCompare_le_iff]
    exact le_trans

def oneRowEnv : StoreEnv := ⟨fun _ => some .meshtastic, fun _ => none, 1, digitCompare⟩

def datedRow (id : String) (timestamp : Int) : MessageRecord where
  id := id
  from' := 7
  to' := MESHTASTIC_BROADCAST_NODE_NUM
  payload := "hello"
  channelIndex := 0
  timestamp := timestamp

def oneRow : MessagesByIdentity := (∅ : MessagesByIdentity).set "radio" ((∅ : Bucket).set (datedRow "2" 20))

-- A row that is older than the one present is dropped as it comes.
theorem live_insert_keeps_the_newest_late :
    (addMessage oneRowEnv oneRow "radio" (datedRow "1" 10)).added = none ∧
    LiveInsert oneRowEnv oneRow "radio" (addedRecord oneRowEnv oneRow "radio" (datedRow "1" 10)) ⟨∅, ∅, ∅⟩
      (addMessage oneRowEnv oneRow "radio" (datedRow "1" 10)) :=
  ⟨by decide, (live_insert_keeps_the_newest oneRowEnv digitCompare_collates oneRow "radio" ⟨∅, ∅, ∅⟩).1
    (datedRow "1" 10) (by decide)⟩

end MeshClient.Messages
