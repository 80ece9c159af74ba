import MeshClient.Tak.ContactCache

namespace MeshClient.Tak

open Run

namespace TakContactCache

variable {s : TakContactCache}

-- What dropping entries one after the other leaves.
structure Dropped (s t : TakContactCache) : Prop where
  sound : t.Sound
  stored : ∀ uid source c, t.stored uid source = some c → s.stored uid source = some c
  keys : t.contacts.keys.Sublist s.contacts.keys
  maxSize : t.maxSize = s.maxSize

theorem Dropped.refl (h : s.Sound) : Dropped s s := ⟨h, fun _ _ _ hc => hc, List.Sublist.refl _, rfl⟩

theorem Dropped.trans {t u : TakContactCache} (h : Dropped s t) (h' : Dropped t u) : Dropped s u :=
  ⟨h'.sound, fun uid source c hc => h.stored uid source c (h'.stored uid source c hc), h'.keys.trans h.keys,
    h'.maxSize.trans h.maxSize⟩

theorem Dropped.entry (h : s.Sound) (uid : String) (source : TAKContactSource) :
    Dropped s (s.dropSourceEntry uid source) := by
  refine ⟨h.dropSourceEntry uid source, ?_, s.keys_dropSourceEntry uid source, s.maxSize_dropSourceEntry uid source⟩
  intro uid' source' c hc
  rw [stored_dropSourceEntry] at hc
  by_cases hentry : uid' = uid ∧ source' = source
  · rw [if_pos hentry] at hc
    cases hc
  · rwa [if_neg hentry] at hc

theorem Dropped.scheduleFlush {t : TakContactCache} (h : Dropped s t) : Dropped s t.scheduleFlush := by
  refine ⟨h.sound.scheduleFlush, ?_, ?_, ?_⟩ <;> unfold TakContactCache.scheduleFlush <;> split
  · exact h.stored
  · exact h.stored
  · exact h.keys
  · exact h.keys
  · exact h.maxSize
  · exact h.maxSize

theorem Dropped.stopPruneTimerIfEmpty {t : TakContactCache} (h : Dropped s t) :
    Dropped s t.stopPruneTimerIfEmpty := by
  refine ⟨h.sound.stopPruneTimerIfEmpty, ?_, ?_, ?_⟩ <;> unfold TakContactCache.stopPruneTimerIfEmpty <;> split
  · exact h.stored
  · exact h.stored
  · exact h.keys
  · exact h.keys
  · exact h.maxSize
  · exact h.maxSize

theorem Dropped.fold {α : Type} {f : TakContactCache → α → TakContactCache}
    (hf : ∀ s x, s.Sound → Dropped s (f s x)) (xs : List α) (h : s.Sound) : Dropped s (xs.foldl f s) := by
  induction xs generalizing s with
  | nil => exact .refl h
  | cons x rest ih => exact (hf s x h).trans (ih (hf s x h).sound)

theorem dropped_removeSource (h : s.Sound) (source : TAKContactSource) : Dropped s (s.removeSource source) :=
  (Dropped.fold (fun _ uid ht => .entry ht uid source) _ h).scheduleFlush.stopPruneTimerIfEmpty

theorem dropped_dropIfStale (now : Int) (h : s.Sound) (entry : String × TAKContactSource × TAKContact) :
    Dropped s (dropIfStale now s entry) := by
  unfold dropIfStale
  split
  · exact .entry h entry.1 entry.2.1
  · exact .refl h

theorem dropped_pruneStale (h : s.Sound) (now : Int) : Dropped s (s.pruneStale now) :=
  (Dropped.fold (fun _ entry ht => dropped_dropIfStale now ht entry) _ h).scheduleFlush.stopPruneTimerIfEmpty

-- Every listed entry that is stale is gone in the end.
theorem not_stale_of_foldl {now : Int} {entries : List (String × TAKContactSource × TAKContact)} (h : s.Sound)
    {uid : String} {source : TAKContactSource} {c : TAKContact} (hmem : (uid, source, c) ∈ entries)
    (hstored : (entries.foldl (dropIfStale now) s).stored uid source = some c) : ¬ c.staleAt ≤ now := by
  induction entries generalizing s with
  | nil => exact absurd hmem List.not_mem_nil
  | cons entry rest ih =>
      have hfirst := dropped_dropIfStale now h entry
      obtain rfl | hmem := List.mem_cons.mp hmem
      · intro hstale
        have hkept := (Dropped.fold (fun _ e ht => dropped_dropIfStale now ht e) rest hfirst.sound).stored uid source c
          hstored
        rw [dropIfStale, if_pos hstale, stored_dropSourceEntry, if_pos ⟨rfl, rfl⟩] at hkept
        cases hkept
      · exact ih hfirst.sound hmem hstored

theorem mem_storedEntries {uid : String} {source : TAKContactSource} {c : TAKContact}
    (h : s.stored uid source = some c) : (uid, source, c) ∈ s.storedEntries := by
  obtain ⟨sources, hsources, hget⟩ := Option.bind_eq_some_iff.mp h
  refine List.mem_flatMap.mpr ⟨(uid, sources), (OrderedMap.mem_entries_iff _ _ _).mpr hsources, ?_⟩
  exact List.mem_map.mpr ⟨(source, c), (OrderedMap.mem_entries_iff _ _ _).mpr hget, rfl⟩

theorem visible_not_stale (h : s.Sound) (now : Int) {uid : String} {c : TAKContact}
    (hc : (s.pruneStale now).contacts.get? uid = some c) : ¬ c.staleAt ≤ now := by
  have hstored := (dropped_pruneStale h now).sound.shown uid c hc
  have hbefore := (dropped_pruneStale h now).stored uid c.source c hstored
  refine not_stale_of_foldl h (mem_storedEntries hbefore) ?_
  have hsame : (s.pruneStale now).stored = (s.storedEntries.foldl (dropIfStale now) s).stored := by
    unfold pruneStale TakContactCache.stopPruneTimerIfEmpty TakContactCache.scheduleFlush
    split_ifs <;> rfl
  rw [← hsame]
  exact hstored

-- The eviction drops the first uids, as many as there are too many.
theorem evict_spec (h : s.Sound) {keys : List String} (hkeys : s.contacts.keys = keys) :
    Dropped s (s.evict keys) ∧ (s.evict keys).contacts.keys = keys.drop (keys.length - s.maxSize) := by
  induction keys generalizing s with
  | nil => exact ⟨.refl h, hkeys.trans List.drop_nil.symm⟩
  | cons uid rest ih =>
      have hsize : s.contacts.size = rest.length + 1 := by
        rw [OrderedMap.size_eq_keys_length, hkeys, List.length_cons]
      rw [evict]
      by_cases hfits : s.contacts.size ≤ s.maxSize
      · rw [if_pos hfits, List.length_cons, Nat.sub_eq_zero_of_le (by omega)]
        exact ⟨.refl h, hkeys⟩
      · rw [if_neg hfits]
        have hnodup : uid ∉ rest := (List.nodup_cons.mp (hkeys ▸ s.contacts.keys_nodup)).1
        have hrest : (s.remove uid).contacts.keys = rest := by
          rw [contacts_remove]
          have hfilter : (s.contacts.erase uid).keys = s.contacts.keys.filter (· ≠ uid) := by
            simp [OrderedMap.erase, OrderedMap.filter, OrderedMap.keys, List.filter_map, Function.comp_def]
          rw [hfilter, hkeys, List.filter_cons, if_neg (by simp), List.filter_eq_self.mpr]
          intro k hk
          simpa using fun heq : k = uid => hnodup (heq ▸ hk)
        have hmax : (s.remove uid).maxSize = s.maxSize := by
          unfold remove
          simp only
          split <;> rfl
        have hremoved : Dropped s (s.remove uid) := by
          refine ⟨h.remove uid, ?_, ?_, hmax⟩
          · intro uid' source c hc
            rw [stored_remove] at hc
            by_cases huid : uid' = uid
            · rw [if_pos huid] at hc
              cases hc
            · rwa [if_neg huid] at hc
          · rw [contacts_remove]
            exact s.contacts.keys_erase_sublist uid
        obtain ⟨hdropped, hkept⟩ := ih (h.remove uid) hrest
        refine ⟨hremoved.trans hdropped, ?_⟩
        rw [hkept, hmax, List.length_cons, show rest.length + 1 - s.maxSize = rest.length - s.maxSize + 1 by omega,
          List.drop_succ_cons]

end TakContactCache

open TakContactCache

inductive ContactEvent where
  | upsert (contact : TAKContact)
  | removeSource (source : TAKContactSource)
  | pruneStale (now : Int)
  | snapshot (now : Int)
  | flushTimer

def step (s : TakContactCache) : ContactEvent → TakContactCache
  | .upsert contact => s.upsert contact
  | .removeSource source => s.removeSource source
  | .pruneStale now => s.pruneStale now
  | .snapshot now => (s.snapshot now).2
  | .flushTimer => s.flushTimerFires

def ContactEvent.received : ContactEvent → Option TAKContact
  | .upsert contact => some contact
  | _ => none

def heard (events : List ContactEvent) : List TAKContact := events.filterMap ContactEvent.received

def InOrder (contacts : List TAKContact) : Prop := contacts.Pairwise fun a b => a.receivedAt ≤ b.receivedAt

-- When a uid was last received, from any source.
def lastReceived (contacts : List TAKContact) (uid : String) : Option Int :=
  (contacts.filter (·.uid = uid)).getLast?.map (·.receivedAt)

theorem lastReceived_append (contacts : List TAKContact) (contact : TAKContact) (uid : String) :
    lastReceived (contacts ++ [contact]) uid =
      if uid = contact.uid then some contact.receivedAt else lastReceived contacts uid := by
  unfold lastReceived
  by_cases huid : uid = contact.uid
  · simp [huid]
  · simp [huid, List.filter_append, Ne.symm huid]

theorem le_of_inOrder {contacts : List TAKContact} {contact c : TAKContact}
    (h : InOrder (contacts ++ [contact])) (hc : c ∈ contacts) : c.receivedAt ≤ contact.receivedAt :=
  (List.pairwise_append.mp h).2.2 c hc contact (List.mem_singleton_self _)

theorem lastReceived_of_mem {contacts : List TAKContact} {c : TAKContact} (h : InOrder contacts) (hc : c ∈ contacts) :
    ∃ t, lastReceived contacts c.uid = some t ∧ c.receivedAt ≤ t := by
  induction contacts using List.reverseRecOn with
  | nil => exact absurd hc List.not_mem_nil
  | append_singleton contacts contact ih =>
      rw [lastReceived_append]
      by_cases huid : c.uid = contact.uid
      · rw [if_pos huid]
        refine ⟨contact.receivedAt, rfl, ?_⟩
        obtain hc | hc := List.mem_append.mp hc
        · exact le_of_inOrder h hc
        · rw [List.mem_singleton.mp hc]
      · rw [if_neg huid]
        obtain hc | hc := List.mem_append.mp hc
        · exact ih (List.pairwise_append.mp h).1 hc
        · exact absurd (congrArg TAKContact.uid (List.mem_singleton.mp hc)) huid

theorem mem_of_lastReceived {contacts : List TAKContact} {uid : String} {t : Int}
    (h : lastReceived contacts uid = some t) : ∃ c ∈ contacts, c.receivedAt = t := by
  obtain ⟨c, hc, ht⟩ := Option.map_eq_some_iff.mp h
  exact ⟨c, (List.mem_filter.mp (List.mem_of_getLast? hc)).1, ht⟩

def Before (contacts : List TAKContact) (a b : String) : Prop :=
  ∀ t t', lastReceived contacts a = some t → lastReceived contacts b = some t' → t ≤ t'

-- The visible uids stand in the order in which they were last received.
structure Kept (maxSize : Nat) (contacts : List TAKContact) (s : TakContactCache) : Prop where
  sound : s.Sound
  stored : ∀ uid source c, s.stored uid source = some c → c ∈ contacts
  order : s.contacts.keys.Pairwise (Before contacts)
  size : s.contacts.size ≤ maxSize
  maxSize : s.maxSize = maxSize

variable {maxSize : Nat} {contacts : List TAKContact} {s : TakContactCache}

theorem Kept.dropped (h : Kept maxSize contacts s) {t : TakContactCache} (ht : Dropped s t) :
    Kept maxSize contacts t := by
  refine ⟨ht.sound, fun uid source c hc => h.stored uid source c (ht.stored uid source c hc),
    h.order.sublist ht.keys, ?_, ht.maxSize.trans h.maxSize⟩
  have hle := ht.keys.length_le
  have hsize := h.size
  rw [OrderedMap.size_eq_keys_length] at hsize ⊢
  omega

theorem Kept.flushTimerFires (h : Kept maxSize contacts s) : Kept maxSize contacts s.flushTimerFires := by
  unfold TakContactCache.flushTimerFires
  by_cases harmed : s.flushTimer = true
  · have hidle : ({ s with flushTimer := false } : TakContactCache).Sound := h.sound.congr rfl rfl rfl rfl
    have hflush := hidle.flush
    rw [if_pos harmed]
    unfold TakContactCache.flush at hflush ⊢
    split
    · exact ⟨hidle, h.stored, h.order, h.size, h.maxSize⟩
    · rename_i hpending
      rw [if_neg hpending] at hflush
      exact ⟨hflush, h.stored, h.order, h.size, h.maxSize⟩
  · rwa [if_neg harmed]

theorem keys_receive (contact : TAKContact) :
    (s.receive contact).contacts.keys = (s.contacts.erase contact.uid).keys ++ [contact.uid] := by
  have hfresh : contact.uid ∉ (s.contacts.erase contact.uid).keys := by
    rw [← OrderedMap.get?_eq_none_iff, OrderedMap.get?_erase, if_pos rfl]
  unfold receive
  simp only [OrderedMap.keys_set, if_neg hfresh]

-- Right after it was received, a contact stands last, and all of them still stand in order.
theorem Kept.receive (h : Kept maxSize contacts s) {contact : TAKContact} (horder : InOrder (contacts ++ [contact])) :
    (s.receive contact).Sound ∧
      (∀ uid source c, (s.receive contact).stored uid source = some c → c ∈ contacts ++ [contact]) ∧
      (s.receive contact).contacts.keys.Pairwise (Before (contacts ++ [contact])) := by
  refine ⟨h.sound.receive fun source c hc => le_of_inOrder horder (h.stored _ _ _ hc), ?_, ?_⟩
  · intro uid source c hc
    rw [stored_receive] at hc
    by_cases hsame : uid = contact.uid ∧ source = contact.source
    · rw [if_pos hsame, Option.some.injEq] at hc
      simp [hc]
    · rw [if_neg hsame] at hc
      exact List.mem_append_left _ (h.stored uid source c hc)
  · have hother : ∀ uid ∈ (s.contacts.erase contact.uid).keys, uid ≠ contact.uid := by
      intro uid huid heq
      rw [heq, OrderedMap.mem_keys_iff] at huid
      obtain ⟨c, hc⟩ := huid
      rw [OrderedMap.get?_erase, if_pos rfl] at hc
      cases hc
    rw [keys_receive]
    refine List.pairwise_append.mpr ⟨?_, List.pairwise_singleton _ _, ?_⟩
    · refine (h.order.sublist (s.contacts.keys_erase_sublist contact.uid)).imp_of_mem ?_
      intro a b ha hb hab t t' ht ht'
      rw [lastReceived_append, if_neg (hother a ha)] at ht
      rw [lastReceived_append, if_neg (hother b hb)] at ht'
      exact hab t t' ht ht'
    · intro a ha b hb t t' ht ht'
      rw [List.mem_singleton.mp hb, lastReceived_append, if_pos rfl, Option.some.injEq] at ht'
      rw [lastReceived_append, if_neg (hother a ha)] at ht
      obtain ⟨c, hc, rfl⟩ := mem_of_lastReceived ht
      exact ht' ▸ le_of_inOrder horder hc

theorem upsert_contacts (contact : TAKContact) :
    (s.upsert contact).contacts = ((s.receive contact).evict (s.receive contact).contacts.keys).contacts := by
  unfold TakContactCache.upsert TakContactCache.scheduleFlush TakContactCache.ensurePruneTimer
  simp only
  split <;> rfl

theorem dropped_upsert {contact : TAKContact} (h : (s.receive contact).Sound) : Dropped (s.receive contact) (s.upsert contact) := by
  have hevicted := (evict_spec h rfl).1
  have htimer : Dropped (s.receive contact)
      ((s.receive contact).evict (s.receive contact).contacts.keys).ensurePruneTimer :=
    ⟨hevicted.sound.congr rfl rfl rfl rfl, hevicted.stored, hevicted.keys, hevicted.maxSize⟩
  exact htimer.scheduleFlush

theorem Kept.upsert (h : Kept maxSize contacts s) {contact : TAKContact} (horder : InOrder (contacts ++ [contact])) :
    Kept maxSize (contacts ++ [contact]) (s.upsert contact) := by
  obtain ⟨hsound, hstored, hkeys⟩ := h.receive horder
  have hdropped := dropped_upsert hsound
  refine ⟨hdropped.sound, fun uid source c hc => hstored uid source c (hdropped.stored uid source c hc),
    hkeys.sublist hdropped.keys, ?_, hdropped.maxSize.trans h.maxSize⟩
  have hmax : (s.receive contact).maxSize = maxSize := h.maxSize
  rw [upsert_contacts, OrderedMap.size_eq_keys_length, (evict_spec hsound rfl).2, List.length_drop, hmax]
  omega

-- What every event keeps.
theorem Kept.step (h : Kept maxSize contacts s) (event : ContactEvent)
    (horder : InOrder (contacts ++ event.received.toList)) :
    Kept maxSize (contacts ++ event.received.toList) (step s event) := by
  cases event with
  | upsert contact => exact h.upsert horder
  | removeSource source =>
      rw [show contacts ++ (ContactEvent.removeSource source).received.toList = contacts from List.append_nil _]
      exact h.dropped (dropped_removeSource h.sound source)
  | pruneStale now =>
      rw [show contacts ++ (ContactEvent.pruneStale now).received.toList = contacts from List.append_nil _]
      exact h.dropped (dropped_pruneStale h.sound now)
  | snapshot now =>
      rw [show contacts ++ (ContactEvent.snapshot now).received.toList = contacts from List.append_nil _]
      exact h.dropped (dropped_pruneStale h.sound now)
  | flushTimer =>
      rw [show contacts ++ ContactEvent.flushTimer.received.toList = contacts from List.append_nil _]
      exact h.flushTimerFires

theorem heard_append (events : List ContactEvent) (event : ContactEvent) :
    heard (events ++ [event]) = heard events ++ event.received.toList := by
  unfold heard
  cases hevent : event.received <;> simp [hevent]

theorem kept_run {events : List ContactEvent} (horder : InOrder (heard events)) :
    Kept maxSize (heard events) (run Tak.step { maxSize } events) := by
  induction events using List.reverseRecOn with
  | nil =>
      refine ⟨.empty maxSize, ?_, List.Pairwise.nil, Nat.zero_le _, rfl⟩
      intro uid source c hc
      cases hc
  | append_singleton events event ih =>
      rw [heard_append] at horder ⊢
      rw [run_concat]
      exact (ih (List.pairwise_append.mp horder).1).step event horder

-- The uids that are evicted were received no later than the ones that stay.
theorem Kept.evicted (h : Kept maxSize contacts s) {contact c : TAKContact} (horder : InOrder (contacts ++ [contact]))
    {uid rival : String} (hc : (s.receive contact).contacts.get? uid = some c)
    (hgone : (s.upsert contact).contacts.get? uid = none) (hrival : (s.upsert contact).contacts.get? rival ≠ none) :
    ∃ t, lastReceived (contacts ++ [contact]) rival = some t ∧ c.receivedAt ≤ t := by
  obtain ⟨hsound, hstored, hkeys⟩ := h.receive horder
  have hkept := (evict_spec hsound rfl).2
  rw [upsert_contacts, OrderedMap.get?_eq_none_iff, hkept] at hgone
  rw [upsert_contacts, ne_eq, OrderedMap.get?_eq_none_iff, hkept, not_not] at hrival
  have huid : uid ∈ (s.receive contact).contacts.keys := (OrderedMap.mem_keys_iff _ _).mpr ⟨c, hc⟩
  rw [← List.take_append_drop ((s.receive contact).contacts.keys.length - (s.receive contact).maxSize)
    (s.receive contact).contacts.keys] at huid hkeys
  have hbefore := (List.pairwise_append.mp hkeys).2.2 uid ((List.mem_append.mp huid).resolve_right hgone) rival hrival
  obtain ⟨d, hd⟩ := (OrderedMap.mem_keys_iff _ _).mp (List.mem_of_mem_drop hrival)
  have hcmem := hstored uid c.source c (hsound.shown uid c hc)
  have hdmem := hstored rival d.source d (hsound.shown rival d hd)
  obtain ⟨t, ht, hle⟩ := lastReceived_of_mem horder hcmem
  obtain ⟨t', ht', _⟩ := lastReceived_of_mem horder hdmem
  rw [(hsound.keyed uid c.source c (hsound.shown uid c hc)).1] at ht
  rw [(hsound.keyed rival d.source d (hsound.shown rival d hd)).1] at ht'
  exact ⟨t', ht', hle.trans (hbefore t t' ht ht')⟩

-- The cache and its stream of updates, over every run in which contacts are received in order.
theorem contact_stream_in_step {events : List ContactEvent} (horder : InOrder (heard events)) :
    (run Tak.step { maxSize } events).contacts.size ≤ maxSize ∧
    (∀ uid, (∃ c, (run Tak.step { maxSize } events).contacts.get? uid = some c) ↔
      ∃ source c, (run Tak.step { maxSize } events).stored uid source = some c) ∧
    (∀ uid c, (run Tak.step { maxSize } events).contacts.get? uid = some c →
      (run Tak.step { maxSize } events).stored uid c.source = some c ∧
      ∀ source c', (run Tak.step { maxSize } events).stored uid source = some c' → c'.receivedAt ≤ c.receivedAt) ∧
    (∀ now uid c, ((run Tak.step { maxSize } events).pruneStale now).contacts.get? uid = some c →
      ¬ c.staleAt ≤ now) ∧
    (∀ update ∈ (run Tak.step { maxSize } events).updates, ∀ c ∈ update.upserts, c.uid ∉ update.removedUids) ∧
    ((run Tak.step { maxSize } events).pending.isEmpty = true →
      ∀ uid, (mirror (run Tak.step { maxSize } events).updates).get? uid =
        (run Tak.step { maxSize } events).contacts.get? uid) ∧
    ∀ contact, InOrder (heard (events ++ [.upsert contact])) → ∀ uid c,
      ((run Tak.step { maxSize } events).receive contact).contacts.get? uid = some c →
      ((run Tak.step { maxSize } events).upsert contact).contacts.get? uid = none →
      ∀ rival, ((run Tak.step { maxSize } events).upsert contact).contacts.get? rival ≠ none →
        ∃ t, lastReceived (heard (events ++ [.upsert contact])) rival = some t ∧ c.receivedAt ≤ t := by
  have h : Kept maxSize (heard events) (run Tak.step { maxSize } events) := kept_run horder
  refine ⟨h.size, ?_, ?_, ?_, h.sound.updatesDisjoint, ?_, ?_⟩
  · intro uid
    constructor
    · rintro ⟨c, hc⟩
      exact ⟨c.source, c, h.sound.shown uid c hc⟩
    · rintro ⟨source, c, hc⟩
      obtain ⟨sources, hsources, _⟩ := Option.bind_eq_some_iff.mp hc
      exact Option.ne_none_iff_exists'.mp (h.sound.visible uid (by rw [hsources]; exact Option.some_ne_none _))
  · intro uid c hc
    exact ⟨h.sound.shown uid c hc, fun source c' hc' => h.sound.newest uid c source c' hc hc'⟩
  · intro now uid c hc
    exact visible_not_stale h.sound now hc
  · intro hempty uid
    rw [← h.sound.told uid, Delta.onto_of_isEmpty hempty]
  · intro contact hnext uid c hc hgone rival hrival
    rw [heard_append] at hnext ⊢
    exact h.evicted hnext hc hgone hrival

def unit (uid : String) (source : TAKContactSource) (receivedAt : Int) : TAKContact where
  uid
  type := "a-f-G-U-C"
  callsign := uid
  lat := 39
  lon := -105
  source
  receivedAt
  staleAt := receivedAt + 60000

-- With room for one unit, the second one that is heard takes the place of the first.
theorem second_unit_stays :
    (run Tak.step { maxSize := 1 } [.upsert (unit "A" .local' 1)]).contacts.size ≤ 1 ∧
    ∃ t, lastReceived (heard [.upsert (unit "A" .local' 1), .upsert (unit "B" .remote 2)]) "B" = some t ∧ 1 ≤ t := by
  have horder : InOrder (heard [.upsert (unit "A" .local' 1)]) := List.pairwise_singleton _ _
  obtain ⟨hsize, _, _, _, _, _, hevicted⟩ := @contact_stream_in_step 1 _ horder
  refine ⟨hsize, hevicted (unit "B" .remote 2) ?_ "A" (unit "A" .local' 1) (by decide) (by decide) "B"
    (by decide)⟩
  simp [heard, ContactEvent.received, InOrder, unit]

end MeshClient.Tak
