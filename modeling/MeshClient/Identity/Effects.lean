import MeshClient.Identity.Operations

namespace MeshClient.Identity

open Program

def Sidecar.working (s : Sidecar) : Option Bytes := s.config.read .identity

def Sidecar.key (s : Sidecar) (id : String) : Option Bytes := s.config.read (.slotIdentity id)

def Sidecar.active (s : Sidecar) : String := activeIdIn (s.config.read .activeIdentity)

def Sidecar.names (s : Sidecar) : List String := s.config.slots.keys

-- The working identity exists and is the key of the slot that the active pointer names.
def Matched (s : Sidecar) : Prop := s.working ≠ none ∧ s.key s.active = s.working

instance (s : Sidecar) : Decidable (Matched s) := inferInstanceAs (Decidable (_ ∧ _))

def addName (names : List String) (id : String) : List String :=
  if id ∈ names then names else names ++ [id]

theorem addName_of_mem {names : List String} {id : String} (h : id ∈ names) : addName names id = names :=
  if_pos h

@[simp] theorem mem_addName (names : List String) (id other : String) :
    other ∈ addName names id ↔ other ∈ names ∨ other = id := by
  unfold addName
  split_ifs with hid
  · constructor
    · exact .inl
    · rintro (h | rfl)
      · exact h
      · exact hid
  · simp

theorem mem_names_of_key {s : Sidecar} {id : String} {k : Bytes} (h : s.key id = some k) :
    id ∈ s.names :=
  (ConfigDir.hasSlot_iff s.config id).mp (ConfigDir.hasSlot_of_read h)

section

variable {s s' : Sidecar} {contents : Option Bytes}

theorem key_of_update {path : FilePath} (h : s'.config.read = Function.update s.config.read path contents)
    (id : String) : s'.key id = if path = .slotIdentity id then contents else s.key id := by
  rw [Sidecar.key, h, Function.update_apply]
  simp only [eq_comm, Sidecar.key]

theorem working_of_update {path : FilePath}
    (h : s'.config.read = Function.update s.config.read path contents) :
    s'.working = if path = .identity then contents else s.working := by
  rw [Sidecar.working, h, Function.update_apply]
  simp only [eq_comm, Sidecar.working]

theorem active_of_update {path : FilePath}
    (h : s'.config.read = Function.update s.config.read path contents) :
    s'.active = if path = .activeIdentity then activeIdIn contents else s.active := by
  rw [Sidecar.active, h, Function.update_apply, apply_ite activeIdIn]
  simp only [eq_comm, Sidecar.active]

theorem putFile_spec {path : FilePath} (h : s.putFile path contents = some s') :
    s'.config.read = Function.update s.config.read path contents ∧ s'.names = s.names := by
  obtain ⟨config, hconfig, rfl⟩ := Option.map_eq_some_iff.mp h
  refine ⟨?_, ConfigDir.keys_put hconfig⟩
  funext other
  rw [ConfigDir.read_put hconfig, Function.update_apply]

theorem copy_spec {source target : FilePath}
    (h : FileChange.apply s (.copy source target) = some s') :
    ∃ k, s.config.read source = some k ∧
      s'.config.read = Function.update s.config.read target (some k) ∧ s'.names = s.names := by
  obtain ⟨k, hk, hput⟩ := Option.bind_eq_some_iff.mp h
  exact ⟨k, hk, putFile_spec hput⟩

theorem putFile_isSome (path : FilePath) (hkey : ∀ id, path = .slotIdentity id → id ∈ s.names)
    (hmeta : ∀ id, path = .slotMeta id → id ∈ s.names) (contents : Option Bytes) :
    ∃ s', s.putFile path contents = some s' := by
  have hslot : ∀ {id : String}, id ∈ s.names → ∃ slot, s.config.slots.get? id = some slot :=
    fun h => (OrderedMap.mem_keys_iff _ _).mp h
  cases path with
  | slotIdentity id =>
      obtain ⟨slot, h⟩ := hslot (hkey id rfl)
      exact ⟨_, by rw [Sidecar.putFile, ConfigDir.put, h]; rfl⟩
  | slotMeta id =>
      obtain ⟨slot, h⟩ := hslot (hmeta id rfl)
      exact ⟨_, by rw [Sidecar.putFile, ConfigDir.put, h]; rfl⟩
  | _ => exact ⟨_, rfl⟩

end

@[simp] theorem files_createSlotDir (s : Sidecar) (id : String) :
    (s.createSlotDir id).config.read = s.config.read :=
  funext fun path => ConfigDir.read_createSlotDir s.config id path

@[simp] theorem names_createSlotDir (s : Sidecar) (id : String) :
    (s.createSlotDir id).names = addName s.names id :=
  ConfigDir.keys_createSlotDir s.config id

@[simp] theorem working_createSlotDir (s : Sidecar) (id : String) :
    (s.createSlotDir id).working = s.working := by
  simp [Sidecar.working]

section

variable (osError : String)

@[simp] theorem run_fileExists (path : FilePath) (s : Sidecar) :
    run (fileWorld osError) (fileExists path) s = (.ok (s.config.read path).isSome, s) := rfl

@[simp] theorem run_slotDirExists (id : String) (s : Sidecar) :
    run (fileWorld osError) (slotDirExists id) s = (.ok (s.config.hasSlot id), s) := rfl

@[simp] theorem run_readIdentitiesDir (s : Sidecar) :
    run (fileWorld osError) readIdentitiesDir s = (.ok (.ok s.names), s) := rfl

@[simp] theorem run_stackIdentity (s : Sidecar) :
    run (fileWorld osError) stackIdentity s = (.ok s.identity, s) := rfl

@[simp] theorem run_setStackIdentity (identity : StackIdentity) (s : Sidecar) :
    run (fileWorld osError) (setStackIdentity identity) s = (.ok (), { s with identity }) := rfl

@[simp] theorem run_saveState (s : Sidecar) :
    run (fileWorld osError) saveState s =
      (.ok (), { s with saved := { s.identity with mnemonic := none } }) := rfl

@[simp] theorem run_readFile (path : FilePath) (s : Sidecar) :
    run (fileWorld osError) (readFile path) s = (.ok (orNotFound (s.config.read path)), s) := rfl

@[simp] theorem run_change (w : FileChange) (s : Sidecar) :
    run (fileWorld osError) (change w) s =
      (.ok (orNotFound ((w.apply s).map fun _ => ())), (w.apply s).getD s) := rfl

theorem run_changeOrErr {s s' : Sidecar} {what : String} {w : FileChange} (h : w.apply s = some s') :
    run (fileWorld osError) (changeOrErr what w) s = (.ok (), s') := by
  simp [changeOrErr, h, orNotFound]

@[simp] theorem run_createSlotDir (what id : String) (s : Sidecar) :
    run (fileWorld osError) (changeOrErr what (.createSlotDir id)) s = (.ok (), s.createSlotDir id) :=
  run_changeOrErr osError rfl

@[simp] theorem run_readActiveId (s : Sidecar) :
    run (fileWorld osError) readActiveId s = (.ok s.active, s) := by
  unfold readActiveId Sidecar.active
  cases h : s.config.read .activeIdentity <;> simp [h, orNotFound, Except.toOption]

theorem run_writeActiveId {id : String} (h : isSafeSlotId id = true) (s : Sidecar) :
    ∃ s', run (fileWorld osError) (writeActiveId id) s = (.ok (), s') ∧
      s'.config.read = Function.update (Function.update s.config.read .activeIdentityTemp none)
        .activeIdentity (some id.toUTF8) ∧ s'.names = s.names := by
  unfold writeActiveId
  rw [if_pos h]
  refine ⟨_, rfl, ?_, rfl⟩
  funext path
  cases path <;> rfl

theorem run_copyToSlot {s : Sidecar} {k : Bytes} (h : s.working = some k) {id : String}
    (hid : id ∈ s.names) (what : String) :
    ∃ s', run (fileWorld osError) (changeOrErr what (.copy .identity (.slotIdentity id))) s = (.ok (), s') ∧
      s'.config.read = Function.update s.config.read (.slotIdentity id) (some k) ∧
      s'.names = s.names := by
  obtain ⟨s', hput⟩ := putFile_isSome (s := s) (.slotIdentity id)
    (by rintro _ ⟨⟩; exact hid) (by rintro _ ⟨⟩) (some k)
  have hcopy : FileChange.apply s (.copy .identity (.slotIdentity id)) = some s' := by
    simp only [FileChange.apply, show s.config.read .identity = some k from h, Option.bind_some, hput]
  exact ⟨s', run_changeOrErr osError hcopy, putFile_spec hput⟩

theorem run_migrateIdentity {s : Sidecar} {k : Bytes} (h : s.working = some k) :
    ∃ s', run (fileWorld osError) migrateIdentity s = (.ok (), s') ∧
      s'.config.read = Function.update s.config.read (.slotIdentity DEFAULT_SLOT_ID)
        (some ((s.key DEFAULT_SLOT_ID).getD k)) ∧
      s'.names = addName s.names DEFAULT_SLOT_ID := by
  have hworking : s.config.read .identity = some k := h
  unfold migrateIdentity
  cases hdefault : s.key DEFAULT_SLOT_ID with
  | some key =>
      have hread : s.config.read (.slotIdentity DEFAULT_SLOT_ID) = some key := hdefault
      refine ⟨s, by simp [hworking, hread], ?_, (addName_of_mem (mem_names_of_key hdefault)).symm⟩
      rw [Option.getD_some, ← hread, Function.update_eq_self]
  | none =>
      have hread : s.config.read (.slotIdentity DEFAULT_SLOT_ID) = none := hdefault
      have hmade : DEFAULT_SLOT_ID ∈ (s.createSlotDir DEFAULT_SLOT_ID).names := by simp
      obtain ⟨s', hrun, hfiles, hnames⟩ := run_copyToSlot osError (k := k) (by simpa using h) hmade
        "migrate identity"
      exact ⟨s', by simp [hworking, hread, hrun], by simpa using hfiles, by simpa using hnames⟩

theorem run_ensureActiveIdentity (s : Sidecar) :
    ∃ s', run (fileWorld osError) ensureActiveIdentity s = (.ok (), s') ∧
      s'.working = s.working ∧ s'.active = s.active ∧ s'.key = s.key ∧
      (s'.config.read .activeIdentityTemp = s.config.read .activeIdentityTemp ∨
        s'.config.read .activeIdentityTemp = none) ∧
      s'.names = s.names := by
  unfold ensureActiveIdentity
  simp only [run_bind, run_fileExists]
  cases hpointer : s.config.read .activeIdentity with
  | some contents => exact ⟨s, rfl, rfl, rfl, rfl, .inl rfl, rfl⟩
  | none =>
      have hsafe : isSafeSlotId DEFAULT_SLOT_ID = true := by decide
      obtain ⟨s', hrun, hfiles, hnames⟩ := run_writeActiveId osError hsafe s
      refine ⟨s', by simpa using hrun, ?_, ?_, ?_, .inr (by simp [hfiles]), hnames⟩
      · simp [Sidecar.working, hfiles]
      · rw [Sidecar.active, Sidecar.active, hpointer, hfiles, Function.update_self,
          activeIdIn_of_safe hsafe]
        rfl
      · funext id
        simp [Sidecar.key, hfiles]

theorem run_filesDiffer {s : Sidecar} {a b : FilePath} {x y : Bytes} (hx : s.config.read a = some x)
    (hy : s.config.read b = some y) :
    run (fileWorld osError) (filesDiffer a b) s = (.ok (decide (x ≠ y)), s) := by
  simp [filesDiffer, hx, hy, orNotFound]

-- Whichever branch is taken, the slot ends up with the working key.
theorem run_syncActiveSlot {s : Sidecar} {k : Bytes} (h : s.working = some k) (active : String) :
    ∃ s', run (fileWorld osError) (syncActiveSlot active) s = (.ok (), s') ∧
      s'.config.read = Function.update s.config.read (.slotIdentity active) (some k) ∧
      s'.names = addName s.names active := by
  have hworking : s.config.read .identity = some k := h
  have hmade : active ∈ (s.createSlotDir active).names := by simp
  obtain ⟨s', hcopy, hfiles, hnames⟩ := run_copyToSlot osError (k := k) (by simpa using h) hmade
    "sync active slot"
  simp only [files_createSlotDir, names_createSlotDir] at hfiles hnames
  unfold syncActiveSlot
  simp only [run_bind, run_fileExists, hworking, Option.isSome_some, if_true, run_createSlotDir,
    files_createSlotDir]
  cases hkey : s.config.read (.slotIdentity active) with
  | none => exact ⟨s', by simpa using hcopy, hfiles, hnames⟩
  | some key =>
      have hdiffer := run_filesDiffer osError (s := s.createSlotDir active) (a := .identity)
        (b := .slotIdentity active) (by simpa using hworking) (by simpa using hkey)
      simp only [Option.isSome_some, if_true, run_bind, hdiffer]
      by_cases hsame : k = key
      · subst hsame
        refine ⟨s.createSlotDir active, by simp, ?_, names_createSlotDir s active⟩
        rw [files_createSlotDir, ← hkey, Function.update_eq_self]
      · exact ⟨s', by simpa [hsame] using hcopy, hfiles, hnames⟩

-- What `ensure_slot_layout` makes of a layout with a working identity.
structure Ensured (k : Bytes) (s s' : Sidecar) : Prop where
  working : s'.working = some k
  active : s'.active = s.active
  key : ∀ id, s'.key id = if id = s.active then some k
    else if id = DEFAULT_SLOT_ID then some ((s.key DEFAULT_SLOT_ID).getD k) else s.key id
  temp : s'.config.read .activeIdentityTemp = s.config.read .activeIdentityTemp ∨
    s'.config.read .activeIdentityTemp = none
  names : s'.names = addName (addName s.names DEFAULT_SLOT_ID) s.active

theorem run_ensureSlotLayout {s : Sidecar} {k : Bytes} (h : s.working = some k) :
    ∃ s', run (fileWorld osError) ensureSlotLayout s = (.ok (), s') ∧ Ensured k s s' := by
  obtain ⟨s1, hrun1, hfiles1, hnames1⟩ := run_migrateIdentity osError h
  obtain ⟨s2, hrun2, hworking2, hactive2, hkey2, htemp2, hnames2⟩ := run_ensureActiveIdentity osError s1
  have hworking : s2.working = some k := by rw [hworking2, working_of_update hfiles1]; simpa using h
  have hactive : s2.active = s.active := by rw [hactive2, active_of_update hfiles1]; simp
  obtain ⟨s3, hrun3, hfiles3, hnames3⟩ := run_syncActiveSlot osError hworking s.active
  refine ⟨s3, ?_, ?_, ?_, fun id => ?_, ?_, by rw [hnames3, hnames2, hnames1]⟩
  · have hroot : FileChange.apply s .createIdentitiesDir = some s := rfl
    simp only [ensureSlotLayout, run_bind, run_changeOrErr osError hroot, hrun1, hrun2,
      run_readActiveId, hactive, hrun3]
  · rw [working_of_update hfiles3]
    simpa using hworking
  · rw [active_of_update hfiles3]
    simpa using hactive
  · rw [key_of_update hfiles3, hkey2, key_of_update hfiles1]
    simp only [FilePath.slotIdentity.injEq, eq_comm]
  · simpa [hfiles3, hfiles1] using htemp2

end

-- What the files of a layout say about keys.
structure View where
  key : String → Option Bytes
  working : Option Bytes
  active : String
  temp : Option Bytes

def Sidecar.view (s : Sidecar) : View :=
  ⟨s.key, s.working, s.active, s.config.read .activeIdentityTemp⟩

def View.put (v : View) (contents : Option Bytes) : FilePath → View
  | .identity => { v with working := contents }
  | .activeIdentity => { v with active := activeIdIn contents }
  | .activeIdentityTemp => { v with temp := contents }
  | .slotIdentity id => { v with key := Function.update v.key id contents }
  | .slotMeta _ => v

theorem view_of_update {s s' : Sidecar} {path : FilePath} {contents : Option Bytes}
    (h : s'.config.read = Function.update s.config.read path contents) :
    s'.view = s.view.put contents path := by
  have hkey : s'.key = fun id => if path = .slotIdentity id then contents else s.key id :=
    funext (key_of_update h)
  have htemp : s'.config.read .activeIdentityTemp =
      if path = .activeIdentityTemp then contents else s.config.read .activeIdentityTemp := by
    rw [h, Function.update_apply]
    simp only [eq_comm]
  rw [Sidecar.view, hkey, working_of_update h, active_of_update h, htemp]
  cases path with
  | slotIdentity id =>
      simp only [Sidecar.view, View.put, reduceCtorEq, if_false, FilePath.slotIdentity.injEq, View.mk.injEq,
        and_true]
      funext other
      rw [Function.update_apply]
      simp only [eq_comm]
  | _ => simp [Sidecar.view, View.put]

theorem view_copy {s s' : Sidecar} {source target : FilePath}
    (h : FileChange.apply s (.copy source target) = some s') :
    ∃ k, s.config.read source = some k ∧ s'.view = s.view.put (some k) target := by
  obtain ⟨k, hk, hfiles, _⟩ := copy_spec h
  exact ⟨k, hk, view_of_update hfiles⟩

theorem view_rename {s s' : Sidecar} {source target : FilePath}
    (h : FileChange.apply s (.rename source target) = some s') :
    ∃ k, s.config.read source = some k ∧ s'.view = (s.view.put (some k) target).put none source := by
  obtain ⟨k, hk, hrest⟩ := Option.bind_eq_some_iff.mp h
  obtain ⟨mid, hfirst, hsecond⟩ := Option.bind_eq_some_iff.mp hrest
  exact ⟨k, hk, by rw [view_of_update (putFile_spec hsecond).1, view_of_update (putFile_spec hfirst).1]⟩

theorem view_write {s s' : Sidecar} {path : FilePath} {contents : Bytes}
    (h : FileChange.apply s (.write path contents) = some s') :
    s'.view = s.view.put (some contents) path :=
  view_of_update (putFile_spec h).1

@[simp] theorem view_createSlotDir (s : Sidecar) (id : String) : (s.createSlotDir id).view = s.view := by
  simp [Sidecar.view, Sidecar.key, Sidecar.working, Sidecar.active, funext_iff]

theorem view_removeFile {s s' : Sidecar} {path : FilePath}
    (h : FileChange.apply s (.removeFile path) = some s') : s'.view = s.view.put none path := by
  obtain ⟨_, _, hput⟩ := Option.bind_eq_some_iff.mp h
  exact view_of_update (putFile_spec hput).1

-- Calls that touch no key, no pointer and no working identity.
theorem view_fixed {s s' : Sidecar} {w : FileChange} (h : w.apply s = some s')
    (hw : w = .createIdentitiesDir ∨ (∃ id, w = .createSlotDir id) ∨
      (∃ id contents, w = .write (.slotMeta id) contents) ∨ w = .saveState) : s'.view = s.view := by
  rcases hw with rfl | ⟨id, rfl⟩ | ⟨id, contents, rfl⟩ | rfl
  · cases h; rfl
  · cases h; exact view_createSlotDir s id
  · exact view_write h
  · cases h; rfl

section

variable {osError : String} {P : Sidecar → Prop}

theorem keeps_change {w : FileChange} (h : ∀ s s', w.apply s = some s' → P s → P s') :
    Keeps (fileWorld osError) P (change w) := by
  refine ⟨fun s hs => ?_, fun _ => trivial⟩
  change P ((w.apply s).getD s)
  cases happly : w.apply s with
  | none => exact hs
  | some s' => exact h s s' happly hs

theorem keeps_changeOrErr {what : String} {w : FileChange} (h : ∀ s s', w.apply s = some s' → P s → P s') :
    Keeps (fileWorld osError) P (changeOrErr what w) :=
  (keeps_change h).bind fun r => by cases r <;> trivial

theorem keeps_readFile (path : FilePath) : Keeps (fileWorld osError) P (readFile path) :=
  ⟨fun _ h => h, fun _ => trivial⟩

theorem keeps_fileExists (path : FilePath) : Keeps (fileWorld osError) P (fileExists path) :=
  ⟨fun _ h => h, fun _ => trivial⟩

theorem keeps_slotDirExists (id : String) : Keeps (fileWorld osError) P (slotDirExists id) :=
  ⟨fun _ h => h, fun _ => trivial⟩

theorem keeps_readIdentitiesDir : Keeps (fileWorld osError) P readIdentitiesDir :=
  ⟨fun _ h => h, fun _ => trivial⟩

theorem keeps_stackIdentity : Keeps (fileWorld osError) P stackIdentity :=
  ⟨fun _ h => h, fun _ => trivial⟩

theorem keeps_readActiveId : Keeps (fileWorld osError) P readActiveId :=
  (keeps_readFile _).bind fun _ => trivial

theorem keeps_slotRow (crates : Crates) (activeIdentity : StackIdentity) (activeId id : String) :
    Keeps (fileWorld osError) P (slotRow crates activeIdentity activeId id) := by
  have hmeta : Keeps (fileWorld osError) P (readSlotMeta crates id) :=
    (keeps_readFile _).bind fun _ => trivial
  exact hmeta.bind fun _ => (keeps_fileExists _).bind fun _ => trivial

theorem keeps_slotRows (crates : Crates) (activeIdentity : StackIdentity) (activeId : String)
    (ids : List String) : Keeps (fileWorld osError) P (slotRows crates activeIdentity activeId ids) := by
  induction ids with
  | nil => trivial
  | cons id rest ih =>
      unfold slotRows
      split_ifs
      · refine (keeps_slotDirExists id).bind fun isDir => ?_
        cases isDir with
        | false => exact ih
        | true => exact (keeps_slotRow ..).bind fun _ => ih.bind fun _ => trivial
      · exact ih

-- `list_identities` changes what `ensure_slot_layout` changes.
theorem run_listIdentities (crates : Crates) (s : Sidecar) :
    (run (fileWorld osError) (listIdentities crates) s).2 =
      (run (fileWorld osError) ensureSlotLayout s).2 := by
  have hrest : ∀ s', Keeps (fileWorld osError) (fun s => s = s') (do
      let activeId ← readActiveId
      let entries ← readIdentitiesDir
      let rows ← slotRows crates s.identity activeId (entries.toOption.getD [])
      pure ((if rows = [] then [defaultRow s.identity] else rows).insertionSort fun a b => a.id ≤ b.id)) :=
    fun s' => keeps_readActiveId.bind fun _ => keeps_readIdentitiesDir.bind fun _ =>
      (keeps_slotRows ..).bind fun _ => trivial
  have hrun := (hrest (run (fileWorld osError) ensureSlotLayout s).2).run rfl
  simpa only [listIdentities, listSlotRows, run_bind, run_stackIdentity, run_attempt] using hrun

end

end MeshClient.Identity
