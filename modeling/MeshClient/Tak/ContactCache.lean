import MeshClient.Lib.Delta
import MeshClient.Lib.Run

namespace MeshClient.Tak

open Run

inductive TAKContactSource where
  | local'
  | remote
deriving DecidableEq, Repr

structure TAKContact where
  uid : String
  type : String
  callsign : String
  lat : ℚ
  lon : ℚ
  hae : Option ℚ := none
  group : Option String := none
  role : Option String := none
  remarks : Option String := none
  source : TAKContactSource
  receivedAt : Int
  staleAt : Int
deriving DecidableEq

structure TAKContactsUpdate where
  upserts : List TAKContact
  removedUids : List String
deriving DecidableEq

abbrev SourceContacts := OrderedMap TAKContactSource TAKContact

-- `pending` are the pendingUpserts and pendingRemovals. The timers are whether they are armed; `updates` are the `update` events so far.
structure TakContactCache where
  maxSize : Nat
  contacts : OrderedMap String TAKContact := ∅
  bySource : OrderedMap String SourceContacts := ∅
  pending : Delta String TAKContact := ∅
  flushTimer : Bool := false
  pruneTimer : Bool := false
  updates : List TAKContactsUpdate := []

namespace TakContactCache

variable (s : TakContactCache)

def remove (uid : String) : TakContactCache :=
  let s := { s with bySource := s.bySource.erase uid }
  if uid ∈ s.contacts.keys then { s with contacts := s.contacts.erase uid, pending := s.pending.take uid } else s

def laterOf (fallback : Option TAKContact) (c : TAKContact) : Option TAKContact :=
  match fallback with
  | some kept => if kept.receivedAt < c.receivedAt then some c else some kept
  | none => some c

-- The latest of the contacts, the first one where several are.
def latest (cs : List TAKContact) : Option TAKContact := cs.foldl laterOf none

def dropSourceEntry (uid : String) (source : TAKContactSource) : TakContactCache :=
  match s.bySource.get? uid with
  | none => s
  | some sources =>
      if source ∉ sources.keys then s
      else
        let sources := sources.erase source
        let s := { s with bySource := s.bySource.set uid sources }
        if (s.contacts.get? uid).map (·.source) ≠ some source then s
        else
          match latest sources.values with
          | none => s.remove uid
          | some fallback => { s with contacts := s.contacts.set uid fallback, pending := s.pending.put uid fallback }

def scheduleFlush : TakContactCache := if s.pending.isEmpty then s else { s with flushTimer := true }

def flush : TakContactCache :=
  if s.pending.isEmpty then s
  else { s with
    pending := ∅
    updates := s.updates ++ [⟨s.pending.upserts.values, s.pending.removals⟩] }

def ensurePruneTimer : TakContactCache := { s with pruneTimer := true }

def stopPruneTimerIfEmpty : TakContactCache := if s.contacts.size = 0 then { s with pruneTimer := false } else s

-- The contact as it is stored and shown, before anything is evicted.
def receive (contact : TAKContact) : TakContactCache :=
  { s with
    bySource := s.bySource.set contact.uid (((s.bySource.get? contact.uid).getD ∅).set contact.source contact)
    contacts := (s.contacts.erase contact.uid).set contact.uid contact
    pending := s.pending.put contact.uid contact }

def evict (s : TakContactCache) : List String → TakContactCache
  | [] => s
  | uid :: rest => if s.contacts.size ≤ s.maxSize then s else evict (s.remove uid) rest

def upsert (contact : TAKContact) : TakContactCache :=
  let s := s.receive contact
  (s.evict s.contacts.keys).ensurePruneTimer.scheduleFlush

def removeSource (source : TAKContactSource) : TakContactCache :=
  (s.bySource.keys.foldl (fun s uid => s.dropSourceEntry uid source) s).scheduleFlush.stopPruneTimerIfEmpty

def storedEntries : List (String × TAKContactSource × TAKContact) :=
  s.bySource.entries.flatMap fun entry => entry.2.entries.map fun stored => (entry.1, stored)

def dropIfStale (now : Int) (s : TakContactCache) (entry : String × TAKContactSource × TAKContact) : TakContactCache :=
  if entry.2.2.staleAt ≤ now then s.dropSourceEntry entry.1 entry.2.1 else s

def pruneStale (now : Int) : TakContactCache :=
  (s.storedEntries.foldl (dropIfStale now) s).scheduleFlush.stopPruneTimerIfEmpty

def snapshot (now : Int) : List TAKContact × TakContactCache :=
  let s := s.pruneStale now
  (s.contacts.values, s)

def flushTimerFires : TakContactCache := if s.flushTimer then { s with flushTimer := false }.flush else s

-- The entry of a source for a uid.
def stored (uid : String) (source : TAKContactSource) : Option TAKContact :=
  (s.bySource.get? uid).bind fun sources => sources.get? source

theorem foldl_laterOf (cs : List TAKContact) (kept : TAKContact) :
    ∃ f, cs.foldl laterOf (some kept) = some f ∧ f ∈ kept :: cs ∧ ∀ c ∈ kept :: cs, c.receivedAt ≤ f.receivedAt := by
  induction cs generalizing kept with
  | nil => exact ⟨kept, rfl, List.mem_singleton_self _, by simp⟩
  | cons c rest ih =>
      rw [List.foldl_cons, laterOf]
      by_cases hlater : kept.receivedAt < c.receivedAt
      · rw [if_pos hlater]
        obtain ⟨f, hf, hmem, hmax⟩ := ih c
        refine ⟨f, hf, List.mem_cons_of_mem _ hmem, ?_⟩
        intro c' hc'
        obtain rfl | hc' := List.mem_cons.mp hc'
        · have hc := hmax c List.mem_cons_self
          omega
        · exact hmax c' hc'
      · rw [if_neg hlater]
        obtain ⟨f, hf, hmem, hmax⟩ := ih kept
        have hkept := hmax kept List.mem_cons_self
        refine ⟨f, hf, ?_, ?_⟩
        · obtain rfl | hmem := List.mem_cons.mp hmem
          · exact List.mem_cons_self
          · exact List.mem_cons_of_mem _ (List.mem_cons_of_mem _ hmem)
        · intro c' hc'
          obtain rfl | hc' := List.mem_cons.mp hc'
          · exact hkept
          · obtain rfl | hc' := List.mem_cons.mp hc'
            · omega
            · exact hmax c' (List.mem_cons_of_mem _ hc')

theorem latest_cases (cs : List TAKContact) :
    cs = [] ∧ latest cs = none ∨
      ∃ f ∈ cs, latest cs = some f ∧ ∀ c ∈ cs, c.receivedAt ≤ f.receivedAt := by
  cases cs with
  | nil => exact .inl ⟨rfl, rfl⟩
  | cons c rest =>
      obtain ⟨f, hf, hmem, hmax⟩ := foldl_laterOf rest c
      exact .inr ⟨f, hmem, hf, hmax⟩

-- The map of a reader who got the updates.
def applyUpdate (view : OrderedMap String TAKContact) (update : TAKContactsUpdate) : OrderedMap String TAKContact :=
  update.removedUids.foldl OrderedMap.erase (view.setAll (update.upserts.map fun c => (c.uid, c)))

def mirror (updates : List TAKContactsUpdate) : OrderedMap String TAKContact := updates.foldl applyUpdate ∅

-- What the four maps have to do with each other and with the readers.
structure Sound (s : TakContactCache) : Prop where
  keyed : ∀ uid source c, s.stored uid source = some c → c.uid = uid ∧ c.source = source
  shown : ∀ uid c, s.contacts.get? uid = some c → s.stored uid c.source = some c
  visible : ∀ uid, s.bySource.get? uid ≠ none → s.contacts.get? uid ≠ none
  newest : ∀ uid c source c', s.contacts.get? uid = some c → s.stored uid source = some c' →
    c'.receivedAt ≤ c.receivedAt
  pendingKeyed : ∀ uid c, s.pending.upserts.get? uid = some c → c.uid = uid
  pendingDisjoint : s.pending.Disjoint
  told : ∀ uid, s.pending.onto (mirror s.updates).get? uid = s.contacts.get? uid
  updatesDisjoint : ∀ update ∈ s.updates, ∀ c ∈ update.upserts, c.uid ∉ update.removedUids

variable {s}

-- Timers and the cap do not matter for it.
theorem Sound.congr (h : s.Sound) {t : TakContactCache} (hcontacts : t.contacts = s.contacts)
    (hsources : t.bySource = s.bySource) (hpending : t.pending = s.pending) (hupdates : t.updates = s.updates) :
    t.Sound := by
  obtain ⟨hkeyed, hshown, hvisible, hnewest, hpkeyed, hdisjoint, htold, hupd⟩ := h
  constructor <;> simp only [stored, hcontacts, hsources, hpending, hupdates] <;> assumption

theorem Sound.scheduleFlush (h : s.Sound) : s.scheduleFlush.Sound := by
  unfold TakContactCache.scheduleFlush
  split
  · exact h
  · exact h.congr rfl rfl rfl rfl

theorem Sound.stopPruneTimerIfEmpty (h : s.Sound) : s.stopPruneTimerIfEmpty.Sound := by
  unfold TakContactCache.stopPruneTimerIfEmpty
  split
  · exact h.congr rfl rfl rfl rfl
  · exact h

theorem Sound.empty (maxSize : Nat) : ({ maxSize } : TakContactCache).Sound := by
  constructor
  · intro uid source c hc
    cases hc
  · intro uid c hc
    cases hc
  · intro uid hne
    exact absurd rfl hne
  · intro uid c source c' hc
    cases hc
  · intro uid c hc
    cases hc
  · exact Delta.disjoint_empty
  · intro uid
    exact Delta.onto_empty _ uid
  · intro update hupdate
    exact absurd hupdate List.not_mem_nil

-- An update tells a reader exactly what was pending.
theorem Sound.flush (h : s.Sound) : s.flush.Sound := by
  unfold TakContactCache.flush
  by_cases hempty : s.pending.isEmpty = true
  · rwa [if_pos hempty]
  · rw [if_neg hempty]
    have hentries : (s.pending.upserts.values.map fun c => (c.uid, c)) = s.pending.upserts.entries := by
      rw [OrderedMap.values, List.map_map]
      conv_rhs => rw [← List.map_id s.pending.upserts.entries]
      refine List.map_congr_left fun entry hentry => ?_
      exact Prod.ext (h.pendingKeyed entry.1 entry.2 ((OrderedMap.mem_entries_iff _ _ _).mp hentry)) rfl
    constructor
    · exact h.keyed
    · exact h.shown
    · exact h.visible
    · exact h.newest
    · intro uid c hc
      cases hc
    · exact Delta.disjoint_empty
    · intro uid
      rw [Delta.onto_empty, mirror, List.foldl_append, List.foldl_cons, List.foldl_nil, applyUpdate, hentries]
      exact (Delta.get?_tell s.pending _ uid).trans (h.told uid)
    · intro update hupdate c hc
      obtain hupdate | hupdate := List.mem_append.mp hupdate
      · exact h.updatesDisjoint update hupdate c hc
      · obtain rfl := List.mem_singleton.mp hupdate
        obtain ⟨uid, hget⟩ := (OrderedMap.mem_values_iff _ c).mp hc
        intro hremoved
        have hnone := h.pendingDisjoint c.uid hremoved
        rw [h.pendingKeyed uid c hget, hget] at hnone
        cases hnone

theorem stored_receive (contact : TAKContact) (uid : String) (source : TAKContactSource) :
    (s.receive contact).stored uid source =
      if uid = contact.uid ∧ source = contact.source then some contact else s.stored uid source := by
  unfold stored receive
  simp only [OrderedMap.get?_set]
  by_cases huid : uid = contact.uid
  · rw [if_pos huid, huid, Option.bind_some, OrderedMap.get?_set]
    by_cases hsource : source = contact.source
    · rw [if_pos hsource, if_pos ⟨rfl, hsource⟩]
    · rw [if_neg hsource, if_neg fun h => hsource h.2]
      cases s.bySource.get? contact.uid with
      | none => rfl
      | some sources => rfl
  · rw [if_neg huid, if_neg fun h => huid h.1]

theorem contacts_receive (contact : TAKContact) (uid : String) :
    (s.receive contact).contacts.get? uid = if uid = contact.uid then some contact else s.contacts.get? uid := by
  unfold receive
  simp only [OrderedMap.get?_set, OrderedMap.get?_erase]
  by_cases huid : uid = contact.uid <;> simp [huid]

-- A contact that is not older than what is stored of its uid becomes the visible one.
theorem Sound.receive (h : s.Sound) {contact : TAKContact}
    (hnew : ∀ source c, s.stored contact.uid source = some c → c.receivedAt ≤ contact.receivedAt) :
    (s.receive contact).Sound := by
  constructor
  · intro uid source c hc
    rw [stored_receive] at hc
    by_cases hsame : uid = contact.uid ∧ source = contact.source
    · rw [if_pos hsame, Option.some.injEq] at hc
      exact ⟨hc ▸ hsame.1.symm, hc ▸ hsame.2.symm⟩
    · rw [if_neg hsame] at hc
      exact h.keyed uid source c hc
  · intro uid c hc
    rw [contacts_receive] at hc
    rw [stored_receive]
    by_cases huid : uid = contact.uid
    · rw [if_pos huid, Option.some.injEq] at hc
      rw [if_pos ⟨huid, by rw [hc]⟩, hc]
    · rw [if_neg huid] at hc
      rw [if_neg fun hsame => huid hsame.1]
      exact h.shown uid c hc
  · intro uid hne
    rw [contacts_receive]
    by_cases huid : uid = contact.uid
    · rw [if_pos huid]
      exact Option.some_ne_none _
    · rw [if_neg huid]
      refine h.visible uid ?_
      rwa [TakContactCache.receive, OrderedMap.get?_set_of_ne _ _ huid] at hne
  · intro uid c source c' hc hc'
    rw [contacts_receive] at hc
    rw [stored_receive] at hc'
    by_cases huid : uid = contact.uid
    · rw [if_pos huid, Option.some.injEq] at hc
      by_cases hsource : source = contact.source
      · rw [if_pos ⟨huid, hsource⟩, Option.some.injEq] at hc'
        rw [← hc, ← hc']
      · rw [if_neg fun hsame => hsource hsame.2, huid] at hc'
        exact hc ▸ hnew source c' hc'
    · rw [if_neg huid] at hc
      rw [if_neg fun hsame => huid hsame.1] at hc'
      exact h.newest uid c source c' hc hc'
  · intro uid c hc
    rw [TakContactCache.receive, Delta.put, OrderedMap.get?_set] at hc
    by_cases huid : uid = contact.uid
    · rw [if_pos huid, Option.some.injEq] at hc
      exact hc ▸ huid.symm
    · rw [if_neg huid] at hc
      exact h.pendingKeyed uid c hc
  · exact h.pendingDisjoint.put contact.uid contact
  · intro uid
    rw [contacts_receive]
    change (s.pending.put contact.uid contact).onto (mirror s.updates).get? uid = _
    rw [Delta.onto_put, h.told]
  · exact h.updatesDisjoint

theorem stored_remove (uid uid' : String) (source : TAKContactSource) :
    (s.remove uid).stored uid' source = if uid' = uid then none else s.stored uid' source := by
  have hsources : (s.remove uid).bySource = s.bySource.erase uid := by
    unfold remove
    simp only
    split <;> rfl
  unfold stored
  rw [hsources, OrderedMap.get?_erase]
  split <;> rfl

theorem contacts_remove (uid : String) : (s.remove uid).contacts = s.contacts.erase uid := by
  unfold remove
  simp only
  by_cases hmem : uid ∈ s.contacts.keys
  · rw [if_pos hmem]
  · rw [if_neg hmem]
    refine (OrderedMap.filter_eq_self _ _ fun k v hget => ?_).symm
    have hk : k ∈ s.contacts.keys := (OrderedMap.mem_keys_iff _ _).mpr ⟨v, hget⟩
    exact decide_eq_true fun heq => hmem (heq ▸ hk)

-- What was taken away is told to the readers, where they knew it.
theorem Sound.remove (h : s.Sound) (uid : String) : (s.remove uid).Sound := by
  have hsources : (s.remove uid).bySource = s.bySource.erase uid := by
    unfold TakContactCache.remove
    simp only
    split <;> rfl
  have hupdates : (s.remove uid).updates = s.updates := by
    unfold TakContactCache.remove
    simp only
    split <;> rfl
  have hpending : uid ∈ s.contacts.keys ∧ (s.remove uid).pending = s.pending.take uid ∨
      uid ∉ s.contacts.keys ∧ (s.remove uid).pending = s.pending := by
    by_cases hmem : uid ∈ s.contacts.keys
    · exact .inl ⟨hmem, by simp only [TakContactCache.remove, if_pos hmem]⟩
    · exact .inr ⟨hmem, by simp only [TakContactCache.remove, if_neg hmem]⟩
  constructor
  · intro uid' source c hc
    rw [stored_remove] at hc
    by_cases huid : uid' = uid
    · rw [if_pos huid] at hc
      cases hc
    · rw [if_neg huid] at hc
      exact h.keyed uid' source c hc
  · intro uid' c hc
    rw [contacts_remove, OrderedMap.get?_erase] at hc
    rw [stored_remove]
    by_cases huid : uid' = uid
    · rw [if_pos huid] at hc
      cases hc
    · rw [if_neg huid] at hc ⊢
      exact h.shown uid' c hc
  · intro uid' hne
    rw [hsources, OrderedMap.get?_erase] at hne
    rw [contacts_remove, OrderedMap.get?_erase]
    by_cases huid : uid' = uid
    · rw [if_pos huid] at hne
      exact absurd rfl hne
    · rw [if_neg huid] at hne ⊢
      exact h.visible uid' hne
  · intro uid' c source c' hc hc'
    rw [contacts_remove, OrderedMap.get?_erase] at hc
    rw [stored_remove] at hc'
    by_cases huid : uid' = uid
    · rw [if_pos huid] at hc
      cases hc
    · rw [if_neg huid] at hc hc'
      exact h.newest uid' c source c' hc hc'
  · intro uid' c hc
    obtain ⟨_, hpend⟩ | ⟨_, hpend⟩ := hpending
    · rw [hpend, Delta.take, OrderedMap.get?_erase] at hc
      by_cases huid : uid' = uid
      · rw [if_pos huid] at hc
        cases hc
      · rw [if_neg huid] at hc
        exact h.pendingKeyed uid' c hc
    · rw [hpend] at hc
      exact h.pendingKeyed uid' c hc
  · obtain ⟨_, hpend⟩ | ⟨_, hpend⟩ := hpending
    · exact hpend ▸ h.pendingDisjoint.take uid
    · exact hpend ▸ h.pendingDisjoint
  · intro uid'
    rw [contacts_remove, OrderedMap.get?_erase, hupdates]
    obtain ⟨_, hpend⟩ | ⟨hmem, hpend⟩ := hpending
    · rw [hpend, Delta.onto_take, h.told]
    · rw [hpend, h.told]
      by_cases huid : uid' = uid
      · rw [if_pos huid, huid]
        exact (OrderedMap.get?_eq_none_iff _ _).mpr hmem
      · rw [if_neg huid]
  · rw [hupdates]
    exact h.updatesDisjoint

theorem stored_eq_of_sources {uid : String} {sources : SourceContacts} (h : s.bySource.get? uid = some sources)
    (source : TAKContactSource) : s.stored uid source = sources.get? source := by
  rw [stored, h, Option.bind_some]

-- What forgetting an entry can do: nothing, hide it only, show a fallback, or take the uid away.
theorem dropSourceEntry_cases (uid : String) (source : TAKContactSource) :
    s.stored uid source = none ∧ s.dropSourceEntry uid source = s ∨
    ∃ sources, s.bySource.get? uid = some sources ∧
      ((s.contacts.get? uid).map (·.source) ≠ some source ∧
          s.dropSourceEntry uid source = { s with bySource := s.bySource.set uid (sources.erase source) } ∨
        (sources.erase source).values = [] ∧ s.dropSourceEntry uid source = s.remove uid ∨
        ∃ f ∈ (sources.erase source).values, (∀ c ∈ (sources.erase source).values, c.receivedAt ≤ f.receivedAt) ∧
          (s.contacts.get? uid).map (·.source) = some source ∧
          s.dropSourceEntry uid source = { s with
            bySource := s.bySource.set uid (sources.erase source)
            contacts := s.contacts.set uid f
            pending := s.pending.put uid f }) := by
  unfold dropSourceEntry
  cases hsources : s.bySource.get? uid with
  | none => exact .inl ⟨by rw [stored, hsources]; rfl, rfl⟩
  | some sources =>
      simp only
      by_cases hmem : source ∈ sources.keys
      · rw [if_neg (not_not.mpr hmem)]
        refine .inr ⟨sources, rfl, ?_⟩
        by_cases hvisible : (s.contacts.get? uid).map (·.source) = some source
        · right
          rw [if_neg (not_not.mpr hvisible)]
          obtain ⟨hnil, hlatest⟩ | ⟨f, hf, hlatest, hmax⟩ := latest_cases (sources.erase source).values
          · refine .inl ⟨hnil, ?_⟩
            simp only [hlatest, remove, OrderedMap.erase_set]
          · refine .inr ⟨f, hf, hmax, hvisible, ?_⟩
            simp only [hlatest]
        · exact .inl ⟨hvisible, if_pos hvisible⟩
      · rw [if_pos hmem]
        exact .inl ⟨by rw [stored_eq_of_sources hsources, (OrderedMap.get?_eq_none_iff _ _).mpr hmem], rfl⟩

theorem stored_withSources {uid : String} {sources : SourceContacts} (hsources : s.bySource.get? uid = some sources)
    {t : TakContactCache} {source : TAKContactSource} (ht : t.bySource = s.bySource.set uid (sources.erase source))
    (uid' : String) (source' : TAKContactSource) :
    t.stored uid' source' = if uid' = uid ∧ source' = source then none else s.stored uid' source' := by
  unfold stored
  rw [ht, OrderedMap.get?_set]
  by_cases huid : uid' = uid
  · rw [if_pos huid, Option.bind_some, OrderedMap.get?_erase, huid, hsources, Option.bind_some]
    by_cases hsource : source' = source
    · rw [if_pos hsource, if_pos ⟨rfl, hsource⟩]
    · rw [if_neg hsource, if_neg fun hsame => hsource hsame.2]
  · rw [if_neg huid, if_neg fun hsame => huid hsame.1]

-- Exactly the entry of the source is gone, and the uids that stay keep their order.
theorem stored_dropSourceEntry (uid : String) (source : TAKContactSource) (uid' : String)
    (source' : TAKContactSource) :
    (s.dropSourceEntry uid source).stored uid' source' =
      if uid' = uid ∧ source' = source then none else s.stored uid' source' := by
  obtain ⟨hnone, hsame⟩ | ⟨sources, hsources, ⟨_, hdrop⟩ | ⟨hnil, hdrop⟩ | ⟨f, _, _, _, hdrop⟩⟩ :=
    s.dropSourceEntry_cases uid source
  · rw [hsame]
    by_cases hentry : uid' = uid ∧ source' = source
    · rw [if_pos hentry, hentry.1, hentry.2, hnone]
    · rw [if_neg hentry]
  · exact stored_withSources hsources (by rw [hdrop]) uid' source'
  · rw [hdrop, stored_remove]
    by_cases huid : uid' = uid
    · rw [if_pos huid, huid]
      by_cases hsource : source' = source
      · rw [if_pos ⟨rfl, hsource⟩]
      · rw [if_neg fun hsame => hsource hsame.2, stored_eq_of_sources hsources]
        cases hget : sources.get? source' with
        | none => rfl
        | some c =>
            have hkept : (sources.erase source).get? source' = some c := by
              rw [OrderedMap.get?_erase, if_neg hsource, hget]
            have hmem : c ∈ (sources.erase source).values := (OrderedMap.mem_values_iff _ _).mpr ⟨source', hkept⟩
            rw [hnil] at hmem
            exact absurd hmem List.not_mem_nil
    · rw [if_neg huid, if_neg fun hsame => huid hsame.1]
  · exact stored_withSources hsources (by rw [hdrop]) uid' source'

theorem keys_set_of_get? {uid : String} {c : TAKContact} (f : TAKContact)
    (h : s.contacts.get? uid = some c) : (s.contacts.set uid f).keys = s.contacts.keys := by
  rw [OrderedMap.keys_set, if_pos ((OrderedMap.mem_keys_iff _ _).mpr ⟨c, h⟩)]

theorem keys_dropSourceEntry (uid : String) (source : TAKContactSource) :
    (s.dropSourceEntry uid source).contacts.keys.Sublist s.contacts.keys := by
  obtain ⟨_, hsame⟩ | ⟨sources, _, ⟨_, hdrop⟩ | ⟨_, hdrop⟩ | ⟨f, _, _, hvisible, hdrop⟩⟩ :=
    s.dropSourceEntry_cases uid source
  · rw [hsame]
  · rw [hdrop]
  · rw [hdrop, contacts_remove]
    exact s.contacts.keys_erase_sublist uid
  · obtain ⟨c, hc, _⟩ := Option.map_eq_some_iff.mp hvisible
    rw [hdrop]
    change (s.contacts.set uid f).keys.Sublist s.contacts.keys
    rw [keys_set_of_get? f hc]

theorem maxSize_dropSourceEntry (uid : String) (source : TAKContactSource) :
    (s.dropSourceEntry uid source).maxSize = s.maxSize := by
  obtain ⟨_, hsame⟩ | ⟨sources, _, ⟨_, hdrop⟩ | ⟨_, hdrop⟩ | ⟨f, _, _, _, hdrop⟩⟩ :=
    s.dropSourceEntry_cases uid source
  · rw [hsame]
  · rw [hdrop]
  · rw [hdrop, remove]
    simp only
    split <;> rfl
  · rw [hdrop]

theorem Sound.dropSourceEntry (h : s.Sound) (uid : String) (source : TAKContactSource) :
    (s.dropSourceEntry uid source).Sound := by
  have hstored := s.stored_dropSourceEntry uid source
  -- Whatever is stored afterwards was stored before.
  have hkept : ∀ uid' source' c, (s.dropSourceEntry uid source).stored uid' source' = some c →
      s.stored uid' source' = some c := by
    intro uid' source' c hc
    rw [hstored] at hc
    by_cases hentry : uid' = uid ∧ source' = source
    · rw [if_pos hentry] at hc
      cases hc
    · rwa [if_neg hentry] at hc
  obtain ⟨_, hsame⟩ | ⟨sources, hsources, ⟨hhidden, hdrop⟩ | ⟨_, hdrop⟩ | ⟨f, hf, hmax, hvisible, hdrop⟩⟩ :=
    s.dropSourceEntry_cases uid source
  · rwa [hsame]
  · rw [hdrop] at hstored hkept ⊢
    constructor
    · exact fun uid' source' c hc => h.keyed uid' source' c (hkept uid' source' c hc)
    · intro uid' c hc
      rw [hstored, if_neg]
      · exact h.shown uid' c hc
      · rintro ⟨rfl, hsource⟩
        exact hhidden (by rw [show s.contacts.get? uid' = some c from hc, Option.map_some, hsource])
    · intro uid' hne
      by_cases huid : uid' = uid
      · exact h.visible uid' (by rw [huid, hsources]; exact Option.some_ne_none _)
      · rw [OrderedMap.get?_set_of_ne _ _ huid] at hne
        exact h.visible uid' hne
    · exact fun uid' c source' c' hc hc' => h.newest uid' c source' c' hc (hkept uid' source' c' hc')
    · exact h.pendingKeyed
    · exact h.pendingDisjoint
    · exact h.told
    · exact h.updatesDisjoint
  · exact hdrop ▸ h.remove uid
  · obtain ⟨fsource, hfget⟩ := (OrderedMap.mem_values_iff _ f).mp hf
    rw [hdrop] at hstored hkept ⊢
    have hfstored : s.stored uid fsource = some f ∧ fsource ≠ source := by
      rw [OrderedMap.get?_erase] at hfget
      by_cases hsource : fsource = source
      · rw [if_pos hsource] at hfget
        cases hfget
      · rw [if_neg hsource] at hfget
        exact ⟨by rw [stored_eq_of_sources hsources, hfget], hsource⟩
    obtain ⟨hfuid, hfsource⟩ := h.keyed uid fsource f hfstored.1
    constructor
    · exact fun uid' source' c hc => h.keyed uid' source' c (hkept uid' source' c hc)
    · intro uid' c hc
      rw [hstored]
      simp only [OrderedMap.get?_set] at hc
      by_cases huid : uid' = uid
      · rw [if_pos huid, Option.some.injEq] at hc
        rw [if_neg fun hentry => hfstored.2 (by rw [← hfsource, hc]; exact hentry.2), huid, ← hc, hfsource]
        exact hfstored.1
      · rw [if_neg huid] at hc
        rw [if_neg fun hentry => huid hentry.1]
        exact h.shown uid' c hc
    · intro uid' hne
      simp only [OrderedMap.get?_set] at hne ⊢
      by_cases huid : uid' = uid
      · rw [if_pos huid]
        exact Option.some_ne_none _
      · rw [if_neg huid] at hne ⊢
        exact h.visible uid' hne
    · intro uid' c source' c' hc hc'
      simp only [OrderedMap.get?_set] at hc
      by_cases huid : uid' = uid
      · rw [if_pos huid, Option.some.injEq] at hc
        rw [hstored, huid] at hc'
        by_cases hsource : source' = source
        · rw [if_pos ⟨rfl, hsource⟩] at hc'
          cases hc'
        · rw [if_neg fun hentry => hsource hentry.2, stored_eq_of_sources hsources] at hc'
          have hget : (sources.erase source).get? source' = some c' := by
            rw [OrderedMap.get?_erase, if_neg hsource, hc']
          exact hc ▸ hmax c' ((OrderedMap.mem_values_iff _ _).mpr ⟨source', hget⟩)
      · rw [if_neg huid] at hc
        exact h.newest uid' c source' c' hc (hkept uid' source' c' hc')
    · intro uid' c hc
      simp only [Delta.put, OrderedMap.get?_set] at hc
      by_cases huid : uid' = uid
      · rw [if_pos huid, Option.some.injEq] at hc
        exact hc ▸ hfuid.trans huid.symm
      · rw [if_neg huid] at hc
        exact h.pendingKeyed uid' c hc
    · exact h.pendingDisjoint.put uid f
    · intro uid'
      rw [Delta.onto_put, h.told]
      exact (OrderedMap.get?_set _ _ _ _).symm
    · exact h.updatesDisjoint

end TakContactCache

end MeshClient.Tak
