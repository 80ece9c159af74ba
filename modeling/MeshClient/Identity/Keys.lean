import MeshClient.Identity.Switch

namespace MeshClient.Identity

open Program

section

variable (osError : String) (crates : Crates) {A : Bytes} {s : Sidecar}

theorem Ensured.of_view {s' t : Sidecar} (h : Ensured A s s') (hview : t.view = s'.view)
    (hnames : t.names = s'.names) : Ensured A s t := by
  simp only [Sidecar.view, View.mk.injEq] at hview
  obtain ⟨hkey, hworking, hactive, htemp⟩ := hview
  exact ⟨hworking.trans h.working, hactive.trans h.active, fun id => (congrFun hkey id).trans (h.key id),
    htemp ▸ h.temp, hnames.trans h.names⟩

theorem Ensured.default_mem {s' : Sidecar} (h : Ensured A s s') : DEFAULT_SLOT_ID ∈ s'.names := by
  rw [h.names]
  simp

theorem Ensured.active_mem {s' : Sidecar} (h : Ensured A s s') : s.active ∈ s'.names := by
  rw [h.names]
  simp

-- A second `ensure_slot_layout` finds nothing to do.
theorem Ensured.again {s' t : Sidecar} (h : Ensured A s s') (h' : Ensured A s' t) : Ensured A s t := by
  refine ⟨h'.working, h'.active.trans h.active, fun id => ?_, ?_, ?_⟩
  · rw [h'.key, h.active, h.key, h.key]
    by_cases hactive : id = s.active
    · simp [hactive]
    · by_cases hdefault : id = DEFAULT_SLOT_ID
      · subst hdefault
        simp [hactive]
      · simp [hactive, hdefault]
  · rcases h'.temp with htemp | htemp
    · exact htemp ▸ h.temp
    · exact .inr htemp
  · rw [h'.names, addName_of_mem h.default_mem, h.active, addName_of_mem h.active_mem, h.names]

theorem Ensured.matched {s' : Sidecar} (h : Ensured A s s') : Matched s' := by
  have hactive : s'.key s'.active = some A := by rw [h.active, h.key, if_pos rfl]
  exact ⟨by simp [h.working], hactive.trans h.working.symm⟩

theorem Ensured.kept {s' : Sidecar} (h : Ensured A s s') (hmatched : s.key s.active = some A) (id : String)
    (k : Bytes) (hk : s.key id = some k) : s'.key id = some k := by
  rcases h.view_key hmatched id with hid | ⟨hnone, _⟩
  · exact hid.trans hk
  · cases hnone.symm.trans hk

theorem run_copyWorkingTo (h : s.working = some A) (what id : String) :
    ∃ s', run (fileWorld osError) (copyWorkingTo what id) s = (.ok (), s') ∧
      s'.view = s.view.put (some A) (.slotIdentity id) ∧ s'.names = addName s.names id := by
  have hmade : id ∈ (s.createSlotDir id).names := by simp
  obtain ⟨s', hrun, hfiles, hnames⟩ := run_copyToSlot osError (k := A) (by simpa using h) hmade what
  exact ⟨s', by simpa [copyWorkingTo] using hrun, by simpa using view_of_update hfiles, by simpa using hnames⟩

theorem run_writeSlotMeta {id : String} (hid : isSafeSlotId id = true)
    (displayName identityHash lxmfHash : Option String) :
    ∃ s', run (fileWorld osError) (writeSlotMeta crates id displayName identityHash lxmfHash) s = (.ok (), s') ∧
      s'.view = s.view ∧ s'.names = addName s.names id := by
  have hmade : id ∈ (s.createSlotDir id).names := by simp
  obtain ⟨s', hput⟩ := putFile_isSome (s := s.createSlotDir id) (.slotMeta id) (by rintro _ ⟨⟩)
    (by rintro _ ⟨⟩; exact hmade)
    (some (crates.toJson ⟨id, nonEmpty displayName, nonEmpty identityHash, nonEmpty lxmfHash⟩))
  obtain ⟨hfiles, hnames⟩ := putFile_spec hput
  refine ⟨s', ?_, ?_, by simpa using hnames⟩
  · unfold writeSlotMeta
    rw [if_pos hid, run_bind, run_createSlotDir]
    exact run_changeOrErr osError hput
  · rw [view_of_update hfiles, View.put, view_createSlotDir]

theorem run_stash (h : s.working = some A) (identity : StackIdentity) :
    ∃ s', run (fileWorld osError) (stashWorkingIntoActiveSlot crates identity) s = (.ok (), s') ∧
      Ensured A s s' := by
  obtain ⟨s1, hrun1, h1⟩ := run_ensureSlotLayout osError h
  have hactive : s1.active = s.active := h1.active
  have hkey : s1.view.key s.active = some A := (h1.key s.active).trans (if_pos rfl)
  obtain ⟨s2, hrun2, hview2, hnames2⟩ := run_copyWorkingTo osError h1.working "stash identity" s.active
  rw [put_self hkey] at hview2
  rw [addName_of_mem h1.active_mem] at hnames2
  have h2 := h1.of_view hview2 hnames2
  have hstash : run (fileWorld osError) (stashKey s.active) s1 = (.ok (), s2) := by
    have hworking : s1.config.read .identity = some A := h1.working
    simpa [stashKey, hworking] using hrun2
  simp only [stashWorkingIntoActiveSlot, run_bind, hrun1, run_readActiveId, hactive, hstash]
  unfold stashMeta
  split_ifs
  · have hsafe : isSafeSlotId s.active = true := isSafeSlotId_activeIdIn _
    obtain ⟨s3, hrun3, hview3, hnames3⟩ := run_writeSlotMeta (s := s2) osError crates hsafe
      identity.displayName (some identity.identityHash) (some identity.lxmfHash)
    rw [addName_of_mem h2.active_mem] at hnames3
    exact ⟨s3, hrun3, h2.of_view hview3 hnames3⟩
  · exact ⟨s2, rfl, h2⟩

theorem run_countDirs {ids : List String} (h : ∀ id ∈ ids, id ∈ s.names) :
    run (fileWorld osError) (countDirs ids) s = (.ok (ids.filter isSafeSlotId).length, s) := by
  induction ids with
  | nil => rfl
  | cons id rest ih =>
      have hid : s.config.hasSlot id = true := (ConfigDir.hasSlot_iff _ _).mpr (h id (by simp))
      have hrest := ih fun id hid => h id (by simp [hid])
      unfold countDirs
      split_ifs with hsafe
      · simp [hrest, hid, hsafe]
      · simp [hrest, hsafe]

theorem run_countSlotDirs :
    run (fileWorld osError) countSlotDirs s = (.ok (s.names.filter isSafeSlotId).length, s) := by
  simp only [countSlotDirs, run_bind, run_readIdentitiesDir, Except.toOption, Option.getD_some]
  exact run_countDirs osError fun _ h => h

-- The loop ends at a name that is not taken.
theorem run_newSlotId {clock : List (Fin (2 ^ 128))} (h : ∃ ms ∈ clock, slotIdAt ms ∉ s.names) :
    ∃ ms, run (fileWorld osError) (newSlotId clock) s = (.ok (slotIdAt ms), s) ∧ slotIdAt ms ∉ s.names := by
  induction clock with
  | nil => simp at h
  | cons ms later ih =>
      by_cases htaken : slotIdAt ms ∈ s.names
      · have hslot : s.config.hasSlot (slotIdAt ms) = true := (ConfigDir.hasSlot_iff _ _).mpr htaken
        obtain ⟨ms', hms', hfree⟩ := h
        have hlater : ms' ∈ later := by
          rcases List.mem_cons.mp hms' with rfl | hlater
          · exact absurd htaken hfree
          · exact hlater
        simpa [newSlotId, hslot] using ih ⟨ms', hlater, hfree⟩
      · have hslot : s.config.hasSlot (slotIdAt ms) = false := by
          rw [← Bool.not_eq_true, ConfigDir.hasSlot_iff]
          exact htaken
        exact ⟨ms, by simp [newSlotId, hslot], htaken⟩

theorem slotIdAt_ne_default (ms : Fin (2 ^ 128)) : slotIdAt ms ≠ DEFAULT_SLOT_ID := by
  intro h
  have hchars := congrArg String.toList h
  simp [slotIdAt, DEFAULT_SLOT_ID] at hchars

-- The slot directories that count once the layout has been ensured.
def slotCount (s : Sidecar) : Nat := ((addName s.names DEFAULT_SLOT_ID).filter isSafeSlotId).length

theorem Ensured.count {s' : Sidecar} (h : Ensured A s s') (hactive : s.active ∈ s.names) :
    (s'.names.filter isSafeSlotId).length = slotCount s := by
  rw [h.names, addName_of_mem (by simp [hactive]), slotCount]

theorem run_createEmptySlot_full (h : s.working = some A) (hactive : s.active ∈ s.names)
    (hfull : MAX_IDENTITY_SLOTS ≤ slotCount s) (clock : List (Fin (2 ^ 128))) (displayName : Option String) :
    ∃ s', run (fileWorld osError) (createEmptySlot crates clock displayName) s =
      (.error "identity_slot_limit_reached", s') ∧ Ensured A s s' := by
  obtain ⟨s1, hrun1, h1⟩ := run_ensureSlotLayout osError h
  refine ⟨s1, ?_, h1⟩
  simp [createEmptySlot, hrun1, run_countSlotDirs, h1.count hactive, hfull]

theorem run_createEmptySlot_room (h : s.working = some A) (hactive : s.active ∈ s.names)
    (hroom : slotCount s < MAX_IDENTITY_SLOTS) {clock : List (Fin (2 ^ 128))}
    (hclock : ∃ ms ∈ clock, slotIdAt ms ∉ s.names) (displayName : Option String) :
    ∃ ms s1 s', run (fileWorld osError) (createEmptySlot crates clock displayName) s = (.ok (slotIdAt ms), s') ∧
      Ensured A s s1 ∧ slotIdAt ms ∉ s1.names ∧ s'.view = s1.view ∧
      s'.names = addName s1.names (slotIdAt ms) := by
  obtain ⟨s1, hrun1, h1⟩ := run_ensureSlotLayout osError h
  have hclock1 : ∃ ms ∈ clock, slotIdAt ms ∉ s1.names := by
    obtain ⟨ms, hms, hfree⟩ := hclock
    refine ⟨ms, hms, fun hmem => ?_⟩
    rw [h1.names, mem_addName, mem_addName] at hmem
    rcases hmem with (hmem | hmem) | hmem
    · exact hfree hmem
    · exact slotIdAt_ne_default ms hmem
    · exact hfree (hmem ▸ hactive)
  obtain ⟨ms, hnew, hfree⟩ := run_newSlotId osError hclock1
  obtain ⟨s2, hrun2, hview2, hnames2⟩ := run_writeSlotMeta (s := s1.createSlotDir (slotIdAt ms)) osError crates
    (isSafeSlotId_slotIdAt ms) displayName none none
  refine ⟨ms, s1, s2, ?_, h1, hfree, by simpa using hview2, ?_⟩
  · simp [createEmptySlot, hrun1, run_countSlotDirs, h1.count hactive, Nat.not_le.mpr hroom, hnew, hrun2]
  · rw [hnames2, names_createSlotDir, addName_of_mem (by simp)]

-- A slot that is not the active one gets the working key, and so does the active one.
theorem run_syncSlotFromWorking {id : String} (hid : isSafeSlotId id = true) (h : s.working = some A)
    (hdefault : s.key DEFAULT_SLOT_ID ≠ none) (displayName identityHash lxmfHash : Option String) :
    ∃ s', run (fileWorld osError) (syncSlotFromWorking crates id displayName identityHash lxmfHash) s =
        (.ok (), s') ∧ s'.working = some A ∧ s'.active = s.active ∧
      (∀ other, s'.key other = if other = id ∨ other = s.active then some A else s.key other) := by
  obtain ⟨s1, hrun1, h1⟩ := run_ensureSlotLayout osError h
  obtain ⟨s2, hrun2, hview2, _⟩ := run_copyWorkingTo osError h1.working "copy to slot" id
  obtain ⟨s3, hrun3, hview3, _⟩ := run_writeSlotMeta (s := s2) osError crates hid displayName identityHash lxmfHash
  have hworking1 : s1.config.read .identity = some A := h1.working
  have hview : s3.view = s1.view.put (some A) (.slotIdentity id) := hview3.trans hview2
  have hcopy : run (fileWorld osError) (copyToSlot crates id displayName identityHash lxmfHash) s1 = (.ok (), s3) := by
    simpa [copyToSlot, hworking1, hrun2] using hrun3
  refine ⟨s3, ?_, ?_, ?_, fun other => ?_⟩
  · unfold syncSlotFromWorking
    rw [if_pos hid, run_bind, hrun1]
    exact hcopy
  · exact (congrArg View.working hview).trans h1.working
  · exact (congrArg View.active hview).trans h1.active
  · have hkey : s3.key other = Function.update s1.key id (some A) other :=
      congrFun (congrArg View.key hview) other
    rw [hkey, Function.update_apply, h1.key]
    obtain ⟨d, hd⟩ := Option.ne_none_iff_exists'.mp hdefault
    by_cases hother : other = DEFAULT_SLOT_ID
    · subst hother
      split_ifs <;> simp_all
    · split_ifs <;> simp_all

theorem Ensured.key_same {s' : Sidecar} (h : Ensured A s s') (hmatched : s.key s.active = some A)
    (hdefault : s.key DEFAULT_SLOT_ID ≠ none) (id : String) : s'.key id = s.key id := by
  obtain ⟨d, hd⟩ := Option.ne_none_iff_exists'.mp hdefault
  rw [h.key]
  split_ifs with hactive hid
  · exact hactive ▸ hmatched.symm
  · subst hid
    simp [hd]
  · rfl

theorem run_setActiveSlotPointer {id : String} (hid : isSafeSlotId id = true) (h : s.working = some A)
    (hmatched : s.key s.active = some A) (hdefault : s.key DEFAULT_SLOT_ID ≠ none) (hkey : s.key id ≠ none) :
    ∃ s', run (fileWorld osError) (setActiveSlotPointer id) s = (.ok (), s') ∧ s'.working = some A ∧
      s'.active = id ∧ s'.key = s.key := by
  obtain ⟨s1, hrun1, h1⟩ := run_ensureSlotLayout osError h
  obtain ⟨k, hk⟩ := Option.ne_none_iff_exists'.mp hkey
  have hslot : s1.config.hasSlot id = true :=
    ConfigDir.hasSlot_of_read ((h1.key_same hmatched hdefault id).trans hk)
  obtain ⟨s2, hrun2, hfiles2, _⟩ := run_writeActiveId osError hid s1
  refine ⟨s2, ?_, ?_, ?_, funext fun other => ?_⟩
  · simp [setActiveSlotPointer, hid, hrun1, hslot, hrun2]
  · rw [Sidecar.working, hfiles2]
    exact h1.working
  · rw [Sidecar.active, hfiles2, Function.update_self, activeIdIn_of_safe hid]
  · rw [Sidecar.key, hfiles2]
    exact h1.key_same hmatched hdefault other

-- The new key goes to the working file first, so the old active slot gets it too.
theorem run_applyGenerated {id : String} (hid : isSafeSlotId id = true)
    (hdefault : s.key DEFAULT_SLOT_ID ≠ none) (g : Generated) (displayName : Option String) :
    ∃ made s', run (fileWorld osError) (applyGenerated crates displayName (.ok g) id) s = (.ok made, s') ∧
      s'.working = some g.identity.privateKey ∧ s'.active = id ∧
      ∀ other, s'.key other =
        if other = id ∨ other = s.active then some g.identity.privateKey else s.key other := by
  obtain ⟨applied, happlied⟩ : ∃ applied, applied = stackIdentityFromRns g.identity displayName (some g.mnemonic) :=
    ⟨_, rfl⟩
  obtain ⟨s1, hput⟩ := putFile_isSome (s := s) .identity (by rintro _ ⟨⟩) (by rintro _ ⟨⟩)
    (some g.identity.privateKey)
  have hview1 : s1.view = s.view.put (some g.identity.privateKey) .identity := view_of_update (putFile_spec hput).1
  let s2 : Sidecar := { s1 with identity := applied, saved := { applied with mnemonic := none } }
  have hkey2 : s2.key = s.key := congrArg View.key hview1
  have hactive2 : s2.active = s.active := congrArg View.active hview1
  have hworking2 : s2.working = some g.identity.privateKey := congrArg View.working hview1
  obtain ⟨s3, hrun3, hworking3, hactive3, hkey3⟩ := run_syncSlotFromWorking (s := s2) osError crates hid hworking2
    (by rw [hkey2]; exact hdefault) applied.displayName (some applied.identityHash) (some applied.lxmfHash)
  rw [hkey2, hactive2] at hkey3
  have hdefault3 : s3.key DEFAULT_SLOT_ID ≠ none := by
    rw [hkey3]
    split_ifs
    · simp
    · exact hdefault
  obtain ⟨s4, hrun4, hworking4, hactive4, hkey4⟩ := run_setActiveSlotPointer osError hid hworking3
    (by rw [hactive3, hactive2, hkey3]; simp) hdefault3 (by rw [hkey3]; simp)
  refine ⟨applied, s4, ?_, hworking4, hactive4, fun other => (congrFun hkey4 other).trans (hkey3 other)⟩
  have hwrite : FileChange.apply s (.write .identity g.identity.privateKey) = some s1 := hput
  have happly : run (fileWorld osError) (applyUnifiedIdentityToSlot crates g.identity displayName
      (some g.mnemonic) (some id)) s = (.ok applied, s3) := by
    simp only [applyUnifiedIdentityToSlot, run_bind, run_changeOrErr osError hwrite, run_setStackIdentity,
      run_saveState, run_attempt, syncAppliedSlot, ← happlied]
    rw [hrun3]
    rfl
  simp [applyGenerated, happly, hrun4]

-- A failure after the slot directory was made leaves everything else as it was.
theorem run_rollbackCreate {id : String} (hid : isSafeSlotId id = true) (hmem : id ∈ s.names) (A : Bytes) :
    ∃ s', run (fileWorld osError) (rollbackCreate crates s.active id (some A)) s = (.ok (), s') ∧
      s'.working = some A ∧ s'.active = s.active ∧
      ∀ other, s'.key other = if other = id then none else s.key other := by
  have hsafe : isSafeSlotId s.active = true := isSafeSlotId_activeIdIn _
  obtain ⟨s1, hrun1, hfiles1, hnames1⟩ := run_writeActiveId osError hsafe s
  obtain ⟨s2, hput⟩ := putFile_isSome (s := s1) .identity (by rintro _ ⟨⟩) (by rintro _ ⟨⟩) (some A)
  obtain ⟨hfiles2, hnames2⟩ := putFile_spec hput
  have hslot : s2.config.hasSlot id = true := by
    rw [ConfigDir.hasSlot_iff, show s2.config.slots.keys = s.names from hnames2.trans hnames1]
    exact hmem
  let s3 : Sidecar := { s2 with config := s2.config.removeSlotDir id }
  have hremove : FileChange.apply s2 (.removeSlotDir id) = some s3 := if_pos hslot
  have hrestore : run (fileWorld osError) (restoreWorking (some A)) s1 = (.ok (), s2) := by
    have hwrite : FileChange.apply s1 (.write .identity A) = some s2 := hput
    simp [restoreWorking, hwrite]
  have hforce : run (fileWorld osError) (removeSlotDirForce id) s2 = (.ok (), s3) := by
    simp [removeSlotDirForce, hid, hslot, run_changeOrErr osError hremove]
  let s4 := (run (fileWorld osError) (reconcilePersistedIdentityFromFile crates) s3).2
  have hfixed : Keeps (fileWorld osError) (fun s => s.view = s3.view)
      (reconcilePersistedIdentityFromFile crates) := fixed_reconcile s3.view
  have hview : s4.view = s3.view := hfixed.run rfl
  have hworking : s4.working = some A := (congrArg View.working hview).trans (by
    change s2.config.read .identity = some A
    rw [hfiles2, Function.update_self])
  have hactive : s4.active = s.active := (congrArg View.active hview).trans (by
    change activeIdIn (s2.config.read .activeIdentity) = s.active
    rw [hfiles2, hfiles1]
    simpa using activeIdIn_of_safe hsafe)
  have hkey : ∀ other, s4.key other = if other = id then none else s.key other := fun other =>
    (congrFun (congrArg View.key hview) other).trans (by
      change s3.config.read (.slotIdentity other) = _
      rw [ConfigDir.read_removeSlotDir, hfiles2, hfiles1]
      simp [Sidecar.key])
  refine ⟨s4, ?_, hworking, hactive, hkey⟩
  simp [rollbackCreate, hrun1, hrestore, hforce, s4]

theorem Ensured.slotCount_eq {s' : Sidecar} (h : Ensured A s s') (hactive : s.active ∈ s.names) :
    slotCount s' = slotCount s := by
  rw [slotCount, addName_of_mem h.default_mem, h.count hactive]

theorem run_createSlot_full (h : s.working = some A) (hmatched : s.key s.active = some A)
    (hfull : MAX_IDENTITY_SLOTS ≤ slotCount s) (clock : List (Fin (2 ^ 128)))
    (generated : Except String Generated) (displayName : Option String) :
    ∃ s', run (fileWorld osError) (createSlot crates clock generated displayName) s =
      (.error "identity_slot_limit_reached", s') ∧ Ensured A s s' := by
  obtain ⟨s1, hstash, h1⟩ := run_stash osError crates h s.identity
  have hactive : s.active ∈ s.names := mem_names_of_key hmatched
  obtain ⟨s2, hcreate, h2⟩ := run_createEmptySlot_full osError crates h1.working
    (by rw [h1.active]; exact h1.active_mem) (by rw [h1.slotCount_eq hactive]; exact hfull) clock displayName
  exact ⟨s2, by simp [createSlot, hstash, hcreate], h1.again h2⟩

-- With room for one more slot, the new directory is made before a key is generated.
theorem run_createSlot_room (h : s.working = some A) (hmatched : s.key s.active = some A)
    (hroom : slotCount s < MAX_IDENTITY_SLOTS) {clock : List (Fin (2 ^ 128))}
    (hclock : ∃ ms ∈ clock, slotIdAt ms ∉ s.names) (displayName : Option String) :
    ∃ ms s1 s2, Ensured A s s1 ∧ s2.view = s1.view ∧ slotIdAt ms ∉ s1.names ∧ slotIdAt ms ∈ s2.names ∧
      ∀ generated, run (fileWorld osError) (createSlot crates clock generated displayName) s =
        match run (fileWorld osError) (applyGenerated crates displayName generated (slotIdAt ms)) s2 with
        | (.ok identity, s') => (.ok ⟨slotIdAt ms, identity⟩, s')
        | (.error e, s') => run (fileWorld osError) (do
            rollbackCreate crates s.active (slotIdAt ms) (some A)
            .err e) s' := by
  obtain ⟨s1, hstash, h1⟩ := run_stash osError crates h s.identity
  have hactive : s.active ∈ s.names := mem_names_of_key hmatched
  have hworking : s.config.read .identity = some A := h
  have hclock1 : ∃ ms ∈ clock, slotIdAt ms ∉ s1.names := by
    obtain ⟨ms, hms, hfree⟩ := hclock
    refine ⟨ms, hms, fun hmem => ?_⟩
    rw [h1.names, addName_of_mem (by simp [hactive]), mem_addName] at hmem
    exact hmem.elim hfree (slotIdAt_ne_default ms)
  obtain ⟨ms, s2, s3, hcreate, h2, hfree, hview, hnames⟩ := run_createEmptySlot_room osError crates h1.working
    (by rw [h1.active]; exact h1.active_mem) (by rw [h1.slotCount_eq hactive]; exact hroom) hclock1 displayName
  refine ⟨ms, s2, s3, h1.again h2, hview, hfree, by simp [hnames], fun generated => ?_⟩
  simp only [createSlot, run_bind, run_readActiveId, run_readFile, hworking, orNotFound, run_stackIdentity,
    hstash, hcreate, run_attempt, Except.toOption]
  rcases run (fileWorld osError) (applyGenerated crates displayName generated (slotIdAt ms)) s3 with ⟨_ | _, s'⟩
  · exact run_bind ..
  · rfl

end

-- The runs of the operations on identity slots, each with what it gets from outside: the
-- readings of the clock and what the generator of identities returns.
inductive SlotOp where
  | create (displayName : Option String) (clock : List (Fin (2 ^ 128))) (generated : Except String Generated)
  | switch (identityId : String)
  | delete (identityId : String)
  | list

-- The result names the slot that was made active.
def SlotOp.program (crates : Crates) : SlotOp → FileProgram (Option String)
  | .create displayName clock generated => do
      let made ← createIdentitySlot crates clock generated displayName
      pure (some made.id)
  | .switch identityId => do
      switchIdentity crates identityId
      pure (some identityId)
  | .delete identityId => do
      deleteIdentitySlot identityId
      pure none
  | .list => do
      let _ ← listIdentities crates
      pure none

section

variable (crates : Crates) (osError : String)

def perform (s : Sidecar) (op : SlotOp) : Sidecar := (run (fileWorld osError) (op.program crates) s).2

def result (s : Sidecar) (op : SlotOp) : Except String (Option String) :=
  (run (fileWorld osError) (op.program crates) s).1

-- What an operation owes to the keys.
structure KeepsKeys (s : Sidecar) (op : SlotOp) : Prop where
  kept : ∀ id k, s.key id = some k →
    (perform crates osError s op).key id = some k ∨ op = .delete id ∧ result crates osError s op = .ok none
  created : ∀ displayName clock generated id, op = .create displayName clock generated →
    result crates osError s op = .ok (some id) →
    ∃ g, generated = .ok g ∧ (perform crates osError s op).key id = some g.identity.privateKey
  active : ∀ id, result crates osError s op = .ok (some id) → (perform crates osError s op).active = id
  matched : Matched (perform crates osError s op)

end

-- The loop that looks for a new slot id ends.
def clockAdvances (s : Sidecar) : SlotOp → Bool
  | .create _ clock _ => clock.any fun ms => slotIdAt ms ∉ s.names
  | _ => true

-- No slot is created, or one with the key that is in use already.
def spares (s : Sidecar) : SlotOp → Bool
  | .create displayName _ generated => match sanitizeOptional displayName, generated with
      | .ok _, .ok g => MAX_IDENTITY_SLOTS ≤ slotCount s || s.working = some g.identity.privateKey
      | _, _ => true
  | _ => true

section

variable {crates : Crates} {osError : String} {s : Sidecar}

theorem Matched.key_active (h : Matched s) : ∃ A, s.working = some A ∧ s.key s.active = some A := by
  obtain ⟨A, hA⟩ := Option.ne_none_iff_exists'.mp h.1
  exact ⟨A, hA, h.2.trans hA⟩

theorem run_map {α β : Type} (p : FileProgram α) (f : α → β) :
    run (fileWorld osError) (do let a ← p; pure (f a)) s =
      ((run (fileWorld osError) p s).1.map f, (run (fileWorld osError) p s).2) := by
  rw [run_bind]
  rcases run (fileWorld osError) p s with ⟨_ | _, s'⟩ <;> rfl

theorem map_eq_ok {α β : Type} {r : Except String α} {f : α → β} {b : β} (h : r.map f = .ok b) :
    ∃ a, r = .ok a ∧ f a = b := by
  cases r with
  | error e => cases h
  | ok a => exact ⟨a, rfl, Except.ok.inj h⟩

-- An operation that makes no slot active, and none that held a key disappear.
theorem keepsKeys_of_kept {op : SlotOp} (hresult : ∀ id, result crates osError s op ≠ .ok (some id))
    (hkept : ∀ id k, s.key id = some k → (perform crates osError s op).key id = some k)
    (hmatched : Matched (perform crates osError s op)) : KeepsKeys crates osError s op :=
  ⟨fun id k hk => .inl (hkept id k hk), fun _ _ _ id _ hr => absurd hr (hresult id),
    fun id hr => absurd hr (hresult id), hmatched⟩

theorem list_keepsKeys (h : Matched s) : KeepsKeys crates osError s .list := by
  obtain ⟨A, hworking, hkey⟩ := h.key_active
  obtain ⟨s1, hrun, he⟩ := run_ensureSlotLayout osError hworking
  have hperform : perform crates osError s .list = s1 := by
    simp only [perform, SlotOp.program, run_map, run_listIdentities, hrun]
  refine keepsKeys_of_kept (fun id hr => ?_) (hperform ▸ he.kept hkey) (hperform ▸ he.matched)
  simp only [result, SlotOp.program, run_map] at hr
  obtain ⟨_, _, hnone⟩ := map_eq_ok hr
  cases hnone

theorem switch_keepsKeys (h : Matched s) (target : String) : KeepsKeys crates osError s (.switch target) := by
  obtain ⟨A, hworking, hkey⟩ := h.key_active
  have hsafe : Safe (switching crates osError target) (fun x => Present s.key x.view)
      (fun r x f _ => Outcome s.key target r x f) (switchIdentity crates target) s false 0 :=
    switchIdentity_safe ⟨fun _ => .inl rfl, hworking, hkey⟩
  obtain ⟨_, houtcome⟩ := hsafe.run
  have hperform : perform crates osError s (.switch target) =
      (run (fileWorld osError) (switchIdentity crates target) s).2 := by
    simp only [perform, SlotOp.program, run_map]
  refine ⟨fun id k hk => .inl (hperform ▸ houtcome.kept id k hk), fun _ _ _ _ hop => (by cases hop),
    fun id hr => ?_, hperform ▸ houtcome.matched⟩
  simp only [result, SlotOp.program, run_map] at hr
  obtain ⟨_, hok, hid⟩ := map_eq_ok hr
  rw [hperform, ← Option.some.inj hid]
  exact houtcome.active hok rfl

theorem run_countConfigured (ids : List String) :
    ∃ count, run (fileWorld osError) (countConfigured ids) s = (.ok count, s) := by
  induction ids with
  | nil => exact ⟨0, rfl⟩
  | cons id rest ih =>
      obtain ⟨count, hrest⟩ := ih
      unfold countConfigured
      split_ifs
      · exact ⟨_, by simp only [run_bind, run_fileExists, hrest]; rfl⟩
      · exact ⟨count, hrest⟩

-- Either nothing but the layout has changed, or the slot was not the active one and is gone.
theorem run_deleteSlot {A : Bytes} (h : s.working = some A) (id : String) :
    ∃ r s', run (fileWorld osError) (deleteSlot id) s = (r, s') ∧
      (s' = s ∨ Ensured A s s' ∨ r = .ok () ∧ id ≠ s.active ∧ ∃ s1, Ensured A s s1 ∧
        s' = { s1 with config := s1.config.removeSlotDir id }) := by
  obtain ⟨s1, hrun, he⟩ := run_ensureSlotLayout osError h
  obtain ⟨count, hcount⟩ : ∃ count, run (fileWorld osError) (countConfigured s1.names) s1 = (.ok count, s1) :=
    run_countConfigured s1.names
  have hconfigured : run (fileWorld osError) countConfiguredSlots s1 = (.ok count, s1) := by
    simpa [countConfiguredSlots, Except.toOption] using hcount
  unfold deleteSlot
  split_ifs with hsafe
  · simp only [run_bind, hrun, run_readActiveId, he.active]
    split_ifs with hactive
    · exact ⟨_, s1, rfl, .inr (.inl he)⟩
    · simp only [run_bind, hconfigured, run_fileExists]
      split_ifs with hlast
      · exact ⟨_, s1, rfl, .inr (.inl he)⟩
      · simp only [run_bind, run_slotDirExists]
        cases hslot : s1.config.hasSlot id with
        | false => exact ⟨_, s1, rfl, .inr (.inl he)⟩
        | true =>
            have hremove : FileChange.apply s1 (.removeSlotDir id) =
                some { s1 with config := s1.config.removeSlotDir id } := if_pos hslot
            exact ⟨_, _, run_changeOrErr osError hremove, .inr (.inr ⟨rfl, hactive, s1, he, rfl⟩)⟩
  · exact ⟨_, s, rfl, .inl rfl⟩

theorem delete_keepsKeys (h : Matched s) (id : String) : KeepsKeys crates osError s (.delete id) := by
  obtain ⟨A, hworking, hkey⟩ := h.key_active
  obtain ⟨r, s', hrun, hcases⟩ : ∃ r s', run (fileWorld osError) (deleteSlot id) s = (r, s') ∧
      (s' = s ∨ Ensured A s s' ∨ r = .ok () ∧ id ≠ s.active ∧ ∃ s1, Ensured A s s1 ∧
        s' = { s1 with config := s1.config.removeSlotDir id }) := run_deleteSlot hworking id
  have hperform : perform crates osError s (.delete id) = s' := by
    simp only [perform, SlotOp.program, deleteIdentitySlot, run_map, hrun]
  have hresult : result crates osError s (.delete id) = r.map fun _ => none := by
    simp only [result, SlotOp.program, deleteIdentitySlot, run_map, hrun]
  have hnone : ∀ other, result crates osError s (.delete id) ≠ .ok (some other) := by
    intro other hr
    obtain ⟨_, _, hother⟩ := map_eq_ok (hresult.symm.trans hr)
    cases hother
  rcases hcases with rfl | he | ⟨rfl, hactive, s1, he, rfl⟩
  · exact keepsKeys_of_kept hnone (fun _ _ hk => hperform.symm ▸ hk) (hperform.symm ▸ h)
  · exact keepsKeys_of_kept hnone (hperform ▸ he.kept hkey) (hperform ▸ he.matched)
  · have hremoved : ∀ other, other ≠ id → (perform crates osError s (.delete id)).key other = s1.key other := by
      intro other hother
      rw [hperform]
      exact (ConfigDir.read_removeSlotDir s1.config id other).trans (if_neg hother)
    refine ⟨fun other k hk => ?_, fun _ _ _ _ hop => (by cases hop), fun other hr => absurd hr (hnone other), ?_⟩
    · by_cases hother : other = id
      · subst hother
        exact .inr ⟨rfl, hresult⟩
      · exact .inl ((hremoved other hother).trans (he.kept hkey other k hk))
    · have hsame : (perform crates osError s (.delete id)).active = s1.active := by rw [hperform]; rfl
      have hwork : (perform crates osError s (.delete id)).working = s1.working := by rw [hperform]; rfl
      rw [Matched, hsame, hwork, hremoved _ (by rw [he.active]; exact fun h => hactive h.symm)]
      exact he.matched

-- A creation that is refused changes only what it also changes elsewhere.
theorem create_failed {displayName : Option String} {clock : List (Fin (2 ^ 128))}
    {generated : Except String Generated} {e : String} {s' : Sidecar}
    (hrun : run (fileWorld osError) (createIdentitySlot crates clock generated displayName) s = (.error e, s'))
    (hkept : ∀ id k, s.key id = some k → s'.key id = some k) (hmatched : Matched s') :
    KeepsKeys crates osError s (.create displayName clock generated) := by
  have hperform : perform crates osError s (.create displayName clock generated) = s' := by
    simp only [perform, SlotOp.program, run_map, hrun]
  refine keepsKeys_of_kept (fun id hr => ?_) (hperform ▸ hkept) (hperform ▸ hmatched)
  simp only [result, SlotOp.program, run_map, hrun] at hr
  cases hr

-- A creation that goes through puts the new key into the old active slot as well.
theorem create_done {A : Bytes} {displayName : Option String} {clock : List (Fin (2 ^ 128))} {g : Generated}
    {made : CreatedSlot} {s' : Sidecar}
    (hrun : run (fileWorld osError) (createIdentitySlot crates clock (.ok g) displayName) s = (.ok made, s'))
    (hkey : s.key s.active = some A) (hnew : s.key made.id = none)
    (hkept : ∀ id k, s.key id = some k → s'.key id = some k ∨ id = s.active ∨ id = made.id)
    (hcopied : ∀ id, id = made.id ∨ id = s.active → s'.key id = some g.identity.privateKey)
    (hactive : s'.active = made.id) (hworking : s'.working = some g.identity.privateKey) :
    KeepsKeys crates osError s (.create displayName clock (.ok g)) ↔ A = g.identity.privateKey := by
  have hperform : perform crates osError s (.create displayName clock (.ok g)) = s' := by
    simp only [perform, SlotOp.program, run_map, hrun]
  have hresult : result crates osError s (.create displayName clock (.ok g)) = .ok (some made.id) := by
    simp only [result, SlotOp.program, run_map, hrun]
    rfl
  constructor
  · intro h
    rcases h.kept s.active A hkey with hsame | ⟨hop, _⟩
    · rw [hperform, hcopied _ (.inr rfl)] at hsame
      exact (Option.some.inj hsame).symm
    · cases hop
  · rintro rfl
    refine ⟨fun id k hk => .inl ?_, fun _ _ _ id hop hr => ?_, fun id hr => ?_, ?_⟩
    · rw [hperform]
      rcases hkept id k hk with hid | rfl | rfl
      · exact hid
      · exact (hcopied _ (.inr rfl)).trans (hkey.symm.trans hk)
      · cases hnew.symm.trans hk
    · cases hop
      obtain rfl : made.id = id := Option.some.inj (Except.ok.inj (hresult.symm.trans hr))
      exact ⟨g, rfl, hperform ▸ hcopied _ (.inl rfl)⟩
    · obtain rfl : made.id = id := Option.some.inj (Except.ok.inj (hresult.symm.trans hr))
      exact hperform ▸ hactive
    · rw [hperform]
      exact ⟨by simp [hworking], by rw [hactive, hcopied _ (.inl rfl), hworking]⟩

theorem create_keepsKeys_iff (h : Matched s) (displayName : Option String) {clock : List (Fin (2 ^ 128))}
    (generated : Except String Generated) (hclock : ∃ ms ∈ clock, slotIdAt ms ∉ s.names) :
    KeepsKeys crates osError s (.create displayName clock generated) ↔
      spares s (.create displayName clock generated) = true := by
  obtain ⟨A, hworking, hkey⟩ := h.key_active
  cases hname : sanitizeOptional displayName with
  | error e =>
      have hrun : run (fileWorld osError) (createIdentitySlot crates clock generated displayName) s = (.error e, s) := by
        simp [createIdentitySlot, hname]
      simpa [spares, hname] using create_failed hrun (fun _ _ hk => hk) h
  | ok name =>
      have hcreate : createIdentitySlot crates clock generated displayName = createSlot crates clock generated name := by
        simp [createIdentitySlot, hname]
      rcases Nat.lt_or_ge (slotCount s) MAX_IDENTITY_SLOTS with hroom | hfull
      · obtain ⟨ms, s1, s2, he, hview, hfree, hmem, hrun⟩ := run_createSlot_room osError crates hworking hkey hroom
          hclock name
        specialize hrun generated
        rw [← hcreate] at hrun
        have hkey2 : s2.key = s1.key := congrArg View.key hview
        have hactive2 : s2.active = s.active := (congrArg View.active hview).trans he.active
        have hnone : s1.key (slotIdAt ms) = none :=
          Option.eq_none_iff_forall_ne_some.mpr fun k hk => hfree (mem_names_of_key hk)
        cases generated with
        | error e =>
            obtain ⟨s3, hback, hworking3, hactive3, hkey3⟩ := run_rollbackCreate (s := s2) osError crates
              (isSafeSlotId_slotIdAt ms) hmem A
            rw [hactive2] at hback
            simp only [applyGenerated, run_err, run_bind, hback] at hrun
            have hkept : ∀ id k, s1.key id = some k → s3.key id = some k := by
              intro id k hk
              rw [hkey3, hkey2, if_neg (by rintro rfl; cases hnone.symm.trans hk)]
              exact hk
            have hmatched : Matched s3 := by
              refine ⟨by simp [hworking3], ?_⟩
              rw [hactive3, hactive2, hworking3]
              exact hkept _ _ ((he.key _).trans (if_pos rfl))
            simpa [spares, hname] using create_failed hrun (fun id k hk => hkept id k (he.kept hkey id k hk)) hmatched
        | ok g =>
            have hdefault : s2.key DEFAULT_SLOT_ID ≠ none := by
              rw [hkey2, he.key, if_pos rfl]
              split_ifs <;> simp
            obtain ⟨made, s3, hdone, hworking3, hactive3, hkey3⟩ := run_applyGenerated osError crates
              (isSafeSlotId_slotIdAt ms) hdefault g name
            rw [hdone] at hrun
            rw [hkey2, hactive2] at hkey3
            have hnew : s.key (slotIdAt ms) = none := Option.eq_none_iff_forall_ne_some.mpr fun k hk => by
              cases hnone.symm.trans (he.kept hkey _ k hk)
            have hiff := create_done hrun hkey hnew (fun id k hk => by
                by_cases hid : id = slotIdAt ms ∨ id = s.active
                · exact .inr hid.symm
                · rw [hkey3, if_neg hid]
                  exact .inl (he.kept hkey id k hk))
              (fun id hid => by rw [hkey3, if_pos hid]) hactive3 hworking3
            simpa [spares, hname, hworking, Nat.not_le.mpr hroom] using hiff
      · obtain ⟨s1, hrun, he⟩ := run_createSlot_full osError crates hworking hkey hfull clock generated name
        rw [← hcreate] at hrun
        have hkeeps := create_failed hrun (he.kept hkey) he.matched
        cases generated <;> simpa [spares, hname, hfull] using hkeeps

theorem keepsKeys_iff (h : Matched s) {op : SlotOp} (hclock : clockAdvances s op = true) :
    KeepsKeys crates osError s op ↔ spares s op = true := by
  cases op with
  | create displayName clock generated =>
      refine create_keepsKeys_iff h displayName generated ?_
      simpa [clockAdvances] using hclock
  | switch target => exact ⟨fun _ => rfl, fun _ => switch_keepsKeys h target⟩
  | delete id => exact ⟨fun _ => rfl, fun _ => delete_keepsKeys h id⟩
  | list => exact ⟨fun _ => rfl, fun _ => list_keepsKeys h⟩

-- With no working identity to begin with, `ensure_slot_layout` takes it from the active slot.
theorem matched_of_ensured {s₀ : Sidecar} (h : run (fileWorld osError) ensureSlotLayout s₀ = (.ok (), s))
    (hworking : s.working ≠ none) : Matched s := by
  cases hw : s₀.working with
  | some A =>
      obtain ⟨s1, hrun, he⟩ := run_ensureSlotLayout osError hw
      obtain rfl : s1 = s := (Prod.ext_iff.mp (hrun.symm.trans h)).2
      exact he.matched
  | none =>
      have hnone : s₀.config.read .identity = none := hw
      obtain ⟨s1, hrun1, hworking1, hactive1, _⟩ := run_ensureActiveIdentity osError s₀
      have hnone1 : s1.config.read .identity = none := hworking1.trans hw
      have hroot : FileChange.apply s₀ .createIdentitiesDir = some s₀ := rfl
      have hmigrate : run (fileWorld osError) migrateIdentity s₀ = (.ok (), s₀) := by
        simp [migrateIdentity, hnone]
      simp only [ensureSlotLayout, run_bind, run_changeOrErr osError hroot, hmigrate, hrun1, run_readActiveId,
        syncActiveSlot, run_fileExists, hnone1, Option.isSome_none, Bool.false_eq_true, if_false] at h
      cases hkey : s1.config.read (.slotIdentity s1.active) with
      | none =>
          simp only [hkey, Option.isSome_none, Bool.false_eq_true, if_false, run_pure, Prod.mk.injEq,
            true_and] at h
          exact absurd (h ▸ hnone1) hworking
      | some k =>
          obtain ⟨s2, hput⟩ := putFile_isSome (s := s1) .identity (by rintro _ ⟨⟩) (by rintro _ ⟨⟩) (some k)
          have hcopy : FileChange.apply s1 (.copy (.slotIdentity s1.active) .identity) = some s2 := by
            simp only [FileChange.apply, hkey, Option.bind_some, hput]
          rw [hkey, Option.isSome_some, if_pos rfl, run_changeOrErr osError hcopy] at h
          obtain rfl : s2 = s := (Prod.ext_iff.mp h).2
          have hview := view_of_update (putFile_spec hput).1
          have hactive : s2.active = s1.active := congrArg View.active hview
          have hkey2 : s2.key s1.active = some k := (congrFun (congrArg View.key hview) _).trans hkey
          have hworking2 : s2.working = some k := congrArg View.working hview
          exact ⟨hworking, by rw [hactive, hkey2, hworking2]⟩

-- Along a run, the keys are kept exactly where every creation is refused or brings the key that
-- is in use already.
theorem keepsKeys_run_iff (crates : Crates) (osError : String) {s₀ s : Sidecar} {ops : List SlotOp}
    (hensured : run (fileWorld osError) ensureSlotLayout s₀ = (.ok (), s)) (hworking : s.working ≠ none)
    (hclock : Run.Each (perform crates osError) (fun s op => clockAdvances s op = true) s ops) :
    Run.Each (perform crates osError) (KeepsKeys crates osError) s ops ↔
      Run.Each (perform crates osError) (fun s op => spares s op = true) s ops :=
  Run.each_congr (I := Matched) (fun _ _ h hadvances => keepsKeys_iff h hadvances)
    (fun _ _ h => KeepsKeys.matched h) hclock
    (matched_of_ensured hensured hworking)

end

def generatedKey : Generated := ⟨rnsIdentityOf (markedKey 3), "twelve words"⟩

theorem keepsKeys_run_refused :
    Run.Each (perform sampleCrates "Input/output error (os error 5)")
      (KeepsKeys sampleCrates "Input/output error (os error 5)") twoSlots
      [.list, .switch "alt", .create (some "\x07") [1700000000000] (.ok generatedKey), .delete "default", .list] :=
  (@keepsKeys_run_iff sampleCrates "Input/output error (os error 5)" twoSlots twoSlots _ (by decide)
    (by decide) (by decide)).mpr (by decide)

-- One slot is created, and the slot that was active holds the new key instead of its own.
theorem create_overwrites_active_slot :
    let op := SlotOp.create (some "Second") [1700000000000] (.ok generatedKey)
    let after := perform sampleCrates "Input/output error (os error 5)" twoSlots op
    result sampleCrates "Input/output error (os error 5)" twoSlots op = .ok (some "id-1700000000000") ∧
      twoSlots.active = "default" ∧ twoSlots.key "default" = some (markedKey 1) ∧
      after.key "default" = some (markedKey 3) ∧
      ¬KeepsKeys sampleCrates "Input/output error (os error 5)" twoSlots op := by
  intro op after
  have hbefore : twoSlots.key "default" = some (markedKey 1) := by decide
  have hafter : after.key "default" = some (markedKey 3) := by decide
  refine ⟨by decide, by decide, hbefore, hafter, fun h => ?_⟩
  rcases h.kept "default" (markedKey 1) hbefore with hkept | ⟨hop, _⟩
  · have hne : some (markedKey 1) ≠ some (markedKey 3) := by decide
    exact hne (hkept.symm.trans hafter)
  · exact absurd hop (by simp [op])

end MeshClient.Identity
