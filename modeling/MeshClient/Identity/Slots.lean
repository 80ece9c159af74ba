import MeshClient.Identity.Files

namespace MeshClient.Identity

def DEFAULT_SLOT_ID : String := "default"
def MAX_IDENTITY_SLOTS : Nat := 16

-- Characters that `str::trim` removes.
def isWhitespace (c : Char) : Bool :=
  (0x9 ≤ c.toNat && c.toNat ≤ 0xD) || (0x2000 ≤ c.toNat && c.toNat ≤ 0x200A) ||
    c.toNat ∈ [0x20, 0x85, 0xA0, 0x1680, 0x2028, 0x2029, 0x202F, 0x205F, 0x3000]

def trim (s : String) : String :=
  String.ofList ((s.toList.dropWhile isWhitespace).reverse.dropWhile isWhitespace).reverse

def isSafeSlotChar (c : Char) : Bool := c.isAlphanum || c == '-' || c == '_'

def isSafeSlotId (id : String) : Bool :=
  id != "" && id.utf8ByteSize ≤ 64 && id.toList.all isSafeSlotChar

structure IdentitySlotMeta where
  id : String
  displayName : Option String
  identityHash : Option String
  lxmfHash : Option String
deriving DecidableEq

structure RnsIdentity where
  privateKey : Bytes
  identityHash : String
  lxmfHash : String
deriving DecidableEq

-- What comes from other crates: the JSON text of slot metadata, and how key material is turned
-- into an identity and its hashes (`fromFile` gets the contents of the file it reads).
structure Crates where
  toJson : IdentitySlotMeta → Bytes
  fromJson : Bytes → Option IdentitySlotMeta
  fromPrivateKey : Bytes → Except String RnsIdentity
  fromFile : Bytes → Except String RnsIdentity

def slotIdIn (text : String) : String := if isSafeSlotId (trim text) then trim text else DEFAULT_SLOT_ID

def activeIdIn (contents : Option Bytes) : String :=
  ((contents.bind String.fromUTF8?).map slotIdIn).getD DEFAULT_SLOT_ID

theorem range_of_safe {c : Char} (h : isSafeSlotChar c = true) : 0x2D ≤ c.toNat ∧ c.toNat ≤ 0x7A := by
  simp only [isSafeSlotChar, Char.isAlphanum, Char.isAlpha, Char.isUpper, Char.isLower, Char.isDigit,
    Bool.or_eq_true, Bool.and_eq_true, decide_eq_true_eq, beq_iff_eq, ge_iff_le, UInt32.le_iff_toNat_le] at h
  rcases h with ((((h | h) | h) | rfl) | rfl)
  · have hupper : 65 ≤ c.toNat ∧ c.toNat ≤ 90 := h
    omega
  · have hlower : 97 ≤ c.toNat ∧ c.toNat ≤ 122 := h
    omega
  · have hdigit : 48 ≤ c.toNat ∧ c.toNat ≤ 57 := h
    omega
  · decide
  · decide

theorem isWhitespace_of_safe {c : Char} (h : isSafeSlotChar c = true) : isWhitespace c = false := by
  have hrange := range_of_safe h
  simp only [isWhitespace, List.mem_cons, List.not_mem_nil, or_false, Bool.or_eq_false_iff,
    Bool.and_eq_false_iff, decide_eq_false_iff_not]
  omega

theorem dropWhile_eq_self {cs : List Char} (h : ∀ c ∈ cs, isWhitespace c = false) :
    cs.dropWhile isWhitespace = cs := by
  cases cs with
  | nil => rfl
  | cons c rest => simp [h c (by simp)]

theorem slotIdIn_of_safe {id : String} (h : isSafeSlotId id = true) : slotIdIn id = id := by
  have hchars : ∀ c ∈ id.toList, isWhitespace c = false := by
    intro c hc
    simp only [isSafeSlotId, Bool.and_eq_true, List.all_eq_true] at h
    exact isWhitespace_of_safe (h.2 c hc)
  have htrim : trim id = id := by
    unfold trim
    rw [dropWhile_eq_self hchars, dropWhile_eq_self (by simpa using hchars), List.reverse_reverse,
      String.ofList_toList]
  rw [slotIdIn, htrim, if_pos h]

theorem activeIdIn_of_safe {id : String} (h : isSafeSlotId id = true) :
    activeIdIn (some id.toUTF8) = id := by
  have hdecode : String.fromUTF8? id.toUTF8 = some id := dif_pos id.isValidUTF8
  simp only [activeIdIn, Option.bind_some, hdecode, Option.map_some, Option.getD_some, slotIdIn_of_safe h]

theorem isSafeSlotId_activeIdIn (contents : Option Bytes) : isSafeSlotId (activeIdIn contents) = true := by
  have hdefault : isSafeSlotId DEFAULT_SLOT_ID = true := by decide
  unfold activeIdIn
  cases contents.bind String.fromUTF8? with
  | none => exact hdefault
  | some text =>
      simp only [Option.map_some, Option.getD_some, slotIdIn]
      split_ifs with hsafe
      · exact hsafe
      · exact hdefault

def readActiveId : FileProgram String := do
  let contents ← readFile .activeIdentity
  pure (activeIdIn contents.toOption)

def writeActiveId (id : String) : FileProgram Unit :=
  if isSafeSlotId id then do
    changeOrErr "write active_identity temp" (.write .activeIdentityTemp id.toUTF8)
    match ← change (.rename .activeIdentityTemp .activeIdentity) with
    | .ok _ => pure ()
    | .error e => do
        let _ ← change (.removeFile .activeIdentityTemp)
        .err ("write active_identity: " ++ e)
  else .err "invalid identity_id"

-- Both files are read, and any error counts as a difference.
def filesDiffer (a b : FilePath) : FileProgram Bool := do
  let x ← readFile a
  let y ← readFile b
  match x, y with
  | .ok x, .ok y => pure (decide (x ≠ y))
  | _, _ => pure true

def readSlotMeta (crates : Crates) (id : String) : FileProgram (Option IdentitySlotMeta) := do
  let bytes ← readFile (.slotMeta id)
  pure (bytes.toOption.bind crates.fromJson)

def nonEmpty (text : Option String) : Option String := text.filter fun s => s != ""

def writeSlotMeta (crates : Crates) (id : String) (displayName identityHash lxmfHash : Option String) :
    FileProgram Unit :=
  if isSafeSlotId id then do
    changeOrErr "create slot dir" (.createSlotDir id)
    changeOrErr "write slot meta" (.write (.slotMeta id)
      (crates.toJson ⟨id, nonEmpty displayName, nonEmpty identityHash, nonEmpty lxmfHash⟩))
  else .err "invalid identity_id"

-- The first part of `ensure_slot_layout`: the default slot gets the working key.
def migrateIdentity : FileProgram Unit := do
  if ← fileExists .identity then
    if ← fileExists (.slotIdentity DEFAULT_SLOT_ID) then
      pure ()
    else do
      changeOrErr "create default slot" (.createSlotDir DEFAULT_SLOT_ID)
      changeOrErr "migrate identity" (.copy .identity (.slotIdentity DEFAULT_SLOT_ID))
  else pure ()

def ensureActiveIdentity : FileProgram Unit := do
  if ← fileExists .activeIdentity then
    pure ()
  else writeActiveId DEFAULT_SLOT_ID

-- Its last part: the working key goes to the active slot, or comes from it when missing.
def syncActiveSlot (active : String) : FileProgram Unit := do
  if ← fileExists .identity then do
    changeOrErr "create active slot" (.createSlotDir active)
    if ← fileExists (.slotIdentity active) then
      if ← filesDiffer .identity (.slotIdentity active) then
        changeOrErr "sync active slot" (.copy .identity (.slotIdentity active))
      else pure ()
    else changeOrErr "sync active slot" (.copy .identity (.slotIdentity active))
  else if ← fileExists (.slotIdentity active) then
    changeOrErr "restore working identity" (.copy (.slotIdentity active) .identity)
  else pure ()

def ensureSlotLayout : FileProgram Unit := do
  changeOrErr "create identities dir" .createIdentitiesDir
  migrateIdentity
  ensureActiveIdentity
  let active ← readActiveId
  syncActiveSlot active

def copyWorkingTo (what slotId : String) : FileProgram Unit := do
  changeOrErr "create slot" (.createSlotDir slotId)
  changeOrErr what (.copy .identity (.slotIdentity slotId))

def copyToSlot (crates : Crates) (slotId : String) (displayName identityHash lxmfHash : Option String) :
    FileProgram Unit := do
  if ← fileExists .identity then do
    copyWorkingTo "copy to slot" slotId
    writeSlotMeta crates slotId displayName identityHash lxmfHash
  else pure ()

def syncSlotFromWorking (crates : Crates) (slotId : String)
    (displayName identityHash lxmfHash : Option String) : FileProgram Unit :=
  if isSafeSlotId slotId then do
    ensureSlotLayout
    copyToSlot crates slotId displayName identityHash lxmfHash
  else .err "invalid identity_id"

def syncActiveSlotFromWorking (crates : Crates) (displayName identityHash lxmfHash : Option String) :
    FileProgram Unit := do
  let active ← readActiveId
  syncSlotFromWorking crates active displayName identityHash lxmfHash

def slotIdAt (ms : Fin (2 ^ 128)) : String := "id-" ++ toString ms.val

theorem utf8ByteSize_of_safe {cs : List Char} (h : ∀ c ∈ cs, isSafeSlotChar c = true) :
    (String.ofList cs).utf8ByteSize = cs.length := by
  rw [String.utf8ByteSize_ofList]
  induction cs with
  | nil => rfl
  | cons c rest ih =>
      have hsize : c.utf8Size = 1 := by
        have hle : c.val.toNat ≤ 0x7A := (range_of_safe (h c (by simp))).2
        rw [Char.utf8Size_eq_one_iff, UInt32.le_iff_toNat_le]
        exact hle.trans (by decide)
      rw [String.utf8Len_cons, ih fun d hd => h d (by simp [hd]), hsize, List.length_cons]

theorem isSafeSlotId_slotIdAt (ms : Fin (2 ^ 128)) : isSafeSlotId (slotIdAt ms) = true := by
  have hrepr : slotIdAt ms = String.ofList (['i', 'd', '-'] ++ Nat.toDigits 10 ms.val) := by
    rw [← String.toList_inj]
    simp [slotIdAt]
  have hsafe : ∀ c ∈ ['i', 'd', '-'] ++ Nat.toDigits 10 ms.val, isSafeSlotChar c = true := by
    intro c hc
    rcases List.mem_append.mp hc with hc | hc
    · simp only [List.mem_cons, List.not_mem_nil, or_false] at hc
      rcases hc with rfl | rfl | rfl <;> rfl
    · have hdigit : c.isDigit = true := Nat.isDigit_of_mem_toDigits (by omega) (by omega) hc
      simp [isSafeSlotChar, Char.isAlphanum, hdigit]
  have hlength : (Nat.toDigits 10 ms.val).length ≤ 39 :=
    (Nat.length_toDigits_le_iff (by omega) (by omega)).mpr (ms.isLt.trans (by decide))
  simp only [isSafeSlotId, Bool.and_eq_true, bne_iff_ne, decide_eq_true_eq, List.all_eq_true, hrepr,
    utf8ByteSize_of_safe hsafe, String.toList_ofList, List.length_append]
  refine ⟨⟨fun hempty => ?_, ?_⟩, hsafe⟩
  · have hnil := congrArg String.toList hempty
    simp at hnil
  · simp only [List.length_cons, List.length_nil]
    omega

-- `while slot_dir(id).exists()` over the readings of the clock, in order. Where they run out
-- the loop is still waiting for a new millisecond.
def newSlotId : List (Fin (2 ^ 128)) → FileProgram String
  | [] => .err ""
  | ms :: later => do
      if ← slotDirExists (slotIdAt ms) then newSlotId later else pure (slotIdAt ms)

structure IdentityRow where
  id : String
  displayName : Option String
  identityHash : Option String
  lxmfHash : Option String
  active : Bool
  configured : Bool
deriving DecidableEq

def slotRow (crates : Crates) (activeIdentity : StackIdentity) (activeId id : String) :
    FileProgram IdentityRow := do
  let slotMeta ← readSlotMeta crates id
  let configured ← fileExists (.slotIdentity id)
  let isActive := id == activeId
  let hashes := isActive && activeIdentity.configured
  pure {
    id
    displayName := (slotMeta.bind fun m => m.displayName).orElse fun _ =>
      if isActive then activeIdentity.displayName else none
    identityHash := (slotMeta.bind fun m => m.identityHash).orElse fun _ =>
      if hashes then some activeIdentity.identityHash else none
    lxmfHash := (slotMeta.bind fun m => m.lxmfHash).orElse fun _ =>
      if hashes then some activeIdentity.lxmfHash else none
    active := isActive
    configured }

def slotRows (crates : Crates) (activeIdentity : StackIdentity) (activeId : String) :
    List String → FileProgram (List IdentityRow)
  | [] => pure []
  | id :: rest =>
      if isSafeSlotId id then do
        if ← slotDirExists id then do
          let row ← slotRow crates activeIdentity activeId id
          let rows ← slotRows crates activeIdentity activeId rest
          pure (row :: rows)
        else slotRows crates activeIdentity activeId rest
      else slotRows crates activeIdentity activeId rest

def defaultRow (activeIdentity : StackIdentity) : IdentityRow where
  id := DEFAULT_SLOT_ID
  displayName := activeIdentity.displayName
  identityHash := if activeIdentity.configured then some activeIdentity.identityHash else none
  lxmfHash := if activeIdentity.configured then some activeIdentity.lxmfHash else none
  active := true
  configured := activeIdentity.configured

def listSlotRows (crates : Crates) (activeIdentity : StackIdentity) :
    FileProgram (List IdentityRow) := do
  let _ ← ensureSlotLayout.attempt
  let activeId ← readActiveId
  let entries ← readIdentitiesDir
  let rows ← slotRows crates activeIdentity activeId (entries.toOption.getD [])
  pure ((if rows = [] then [defaultRow activeIdentity] else rows).insertionSort fun a b => a.id ≤ b.id)

def countDirs : List String → FileProgram Nat
  | [] => pure 0
  | id :: rest =>
      if isSafeSlotId id then do
        let isDir ← slotDirExists id
        let count ← countDirs rest
        pure (if isDir then count + 1 else count)
      else countDirs rest

def countSlotDirs : FileProgram Nat := do
  let entries ← readIdentitiesDir
  countDirs (entries.toOption.getD [])

def createEmptySlot (crates : Crates) (clock : List (Fin (2 ^ 128))) (displayName : Option String) :
    FileProgram String := do
  ensureSlotLayout
  let count ← countSlotDirs
  if MAX_IDENTITY_SLOTS ≤ count then .err "identity_slot_limit_reached"
  else do
    let id ← newSlotId clock
    changeOrErr "create slot" (.createSlotDir id)
    writeSlotMeta crates id displayName none none
    pure id

def stashKey (active : String) : FileProgram Unit := do
  if ← fileExists .identity then copyWorkingTo "stash identity" active else pure ()

def stashMeta (crates : Crates) (active : String) (identity : StackIdentity) : FileProgram Unit :=
  if identity.configured then
    writeSlotMeta crates active identity.displayName (some identity.identityHash)
      (some identity.lxmfHash)
  else pure ()

def stashWorkingIntoActiveSlot (crates : Crates) (identity : StackIdentity) : FileProgram Unit := do
  ensureSlotLayout
  let active ← readActiveId
  stashKey active
  stashMeta crates active identity

def installSlotToWorking (identityId : String) : FileProgram Unit :=
  if isSafeSlotId identityId then do
    ensureSlotLayout
    if ← fileExists (.slotIdentity identityId) then
      changeOrErr "activate identity" (.copy (.slotIdentity identityId) .identity)
    else .err "identity_slot_not_configured"
  else .err "invalid identity_id"

def removeSlotDirForce (identityId : String) : FileProgram Unit :=
  if isSafeSlotId identityId then do
    if ← slotDirExists identityId then
      changeOrErr "delete identity" (.removeSlotDir identityId)
    else pure ()
  else .err "invalid identity_id"

def setActiveSlotPointer (identityId : String) : FileProgram Unit :=
  if isSafeSlotId identityId then do
    ensureSlotLayout
    if ← slotDirExists identityId then writeActiveId identityId else .err "identity_not_found"
  else .err "invalid identity_id"

def countConfigured : List String → FileProgram Nat
  | [] => pure 0
  | id :: rest =>
      if isSafeSlotId id then do
        let configured ← fileExists (.slotIdentity id)
        let count ← countConfigured rest
        pure (if configured then count + 1 else count)
      else countConfigured rest

-- The length of `list_configured_slot_ids`.
def countConfiguredSlots : FileProgram Nat := do
  let entries ← readIdentitiesDir
  countConfigured (entries.toOption.getD [])

def deleteSlot (identityId : String) : FileProgram Unit :=
  if isSafeSlotId identityId then do
    ensureSlotLayout
    let active ← readActiveId
    if identityId = active then .err "cannot_delete_active_identity"
    else do
      let configuredCount ← countConfiguredSlots
      let targetConfigured ← fileExists (.slotIdentity identityId)
      if targetConfigured ∧ configuredCount ≤ 1 then .err "cannot_delete_last_identity"
      else if ← slotDirExists identityId then
        changeOrErr "delete identity" (.removeSlotDir identityId)
      else .err "identity_not_found"
  else .err "invalid identity_id"

end MeshClient.Identity
