import MeshClient.Identity.Slots

namespace MeshClient.Identity

def NOMAD_DISPLAY_NAME_MAX_CHARS : Nat := 128

def isControl (c : Char) : Bool := c.toNat < 0x20 || (0x7F ≤ c.toNat && c.toNat ≤ 0x9F)

def sanitizeNomadDisplayName (name : String) : Except String String :=
  let trimmed := trim name
  if trimmed.toList.any isControl then .error "display_name_invalid"
  else if NOMAD_DISPLAY_NAME_MAX_CHARS < trimmed.length then .error "display_name_too_long"
  else .ok trimmed

def stackIdentityFromRns (identity : RnsIdentity) (displayName mnemonic : Option String) :
    StackIdentity :=
  ⟨true, identity.identityHash, identity.lxmfHash, displayName, mnemonic⟩

-- `from_file` reads the file once more.
def loadFromFile (crates : Crates) : FileProgram RnsIdentity := do
  match ← readFile .identity with
  | .error e => .err ("load identity: " ++ e)
  | .ok data => match crates.fromFile data with
      | .ok identity => pure identity
      | .error e => .err ("load identity: " ++ e)

def loadIdentity (crates : Crates) : FileProgram RnsIdentity := do
  if ← fileExists .identity then
    match ← readFile .identity with
    | .error e => .err ("load identity: " ++ e)
    | .ok data =>
        if data.size = 64 then
          match crates.fromPrivateKey data with
          | .ok identity => pure identity
          | .error e => .err ("load identity: " ++ e)
        else loadFromFile crates
  else .err "identity file missing; re-import or generate identity"

def saveState : FileProgram Unit := do
  match ← change .saveState with
  | .ok _ => pure ()
  | .error e => .err e

def adoptIdentity (fromFile : StackIdentity) (current : StackIdentity) :
    FileProgram (Option StackIdentity) :=
  if current.configured ∧ current.identityHash = fromFile.identityHash ∧
      current.lxmfHash = fromFile.lxmfHash then pure none
  else do
    setStackIdentity fromFile
    saveState
    pure (some fromFile)

def reconcilePersistedIdentityFromFile (crates : Crates) : FileProgram (Option StackIdentity) := do
  if ← fileExists .identity then do
    let identity ← loadIdentity crates
    let current ← stackIdentity
    adoptIdentity (stackIdentityFromRns identity current.displayName current.mnemonic) current
  else pure none

-- A missing `slotId` stands for the active slot.
def syncAppliedSlot (crates : Crates) (slotId : Option String) (applied : StackIdentity) :
    FileProgram Unit :=
  match slotId with
  | some id => syncSlotFromWorking crates id applied.displayName (some applied.identityHash)
      (some applied.lxmfHash)
  | none => syncActiveSlotFromWorking crates applied.displayName (some applied.identityHash)
      (some applied.lxmfHash)

def applyUnifiedIdentityToSlot (crates : Crates) (identity : RnsIdentity)
    (displayName mnemonic slotId : Option String) : FileProgram StackIdentity := do
  let applied := stackIdentityFromRns identity displayName mnemonic
  changeOrErr "save identity" (.write .identity identity.privateKey)
  setStackIdentity applied
  saveState
  match ← (syncAppliedSlot crates slotId applied).attempt with
  | .ok _ => pure applied
  | .error e => .err ("identity slot sync after apply failed: " ++ e)

structure Generated where
  identity : RnsIdentity
  mnemonic : String
deriving DecidableEq

structure CreatedSlot where
  id : String
  identity : StackIdentity
deriving DecidableEq

-- `generated` is what `generate_identity_with_mnemonic` returns.
def applyGenerated (crates : Crates) (displayName : Option String)
    (generated : Except String Generated) (newId : String) : FileProgram StackIdentity :=
  match generated with
  | .error e => .err e
  | .ok g => do
      let identity ← applyUnifiedIdentityToSlot crates g.identity displayName (some g.mnemonic) (some newId)
      setActiveSlotPointer newId
      pure identity

def restoreWorking (previousWorking : Option Bytes) : FileProgram Unit :=
  match previousWorking with
  | some bytes => do
      let _ ← change (.write .identity bytes)
      pure ()
  | none => do
      let _ ← change (.removeFile .identity)
      pure ()

def rollbackCreate (crates : Crates) (previousActive newId : String) (previousWorking : Option Bytes) :
    FileProgram Unit := do
  let _ ← (writeActiveId previousActive).attempt
  restoreWorking previousWorking
  let _ ← (removeSlotDirForce newId).attempt
  let _ ← (reconcilePersistedIdentityFromFile crates).attempt
  pure ()

def createSlot (crates : Crates) (clock : List (Fin (2 ^ 128))) (generated : Except String Generated)
    (displayName : Option String) : FileProgram CreatedSlot := do
  let previousActive ← readActiveId
  let previousWorking ← readFile .identity
  let identity ← stackIdentity
  stashWorkingIntoActiveSlot crates identity
  let newId ← createEmptySlot crates clock displayName
  match ← (applyGenerated crates displayName generated newId).attempt with
  | .ok identity => pure ⟨newId, identity⟩
  | .error e => do
      rollbackCreate crates previousActive newId previousWorking.toOption
      .err e

def sanitizeOptional : Option String → Except String (Option String)
  | some name => (sanitizeNomadDisplayName name).map some
  | none => .ok none

def createIdentitySlot (crates : Crates) (clock : List (Fin (2 ^ 128))) (generated : Except String Generated)
    (displayName : Option String) : FileProgram CreatedSlot :=
  match sanitizeOptional displayName with
  | .error e => .err e
  | .ok displayName => createSlot crates clock generated displayName

-- The working key is put back only where it could be read before.
def rollbackSwitch (crates : Crates) (previousWorking : Option Bytes) : FileProgram Unit := do
  match previousWorking with
  | some bytes => do
      let _ ← change (.write .identity bytes)
      let _ ← (reconcilePersistedIdentityFromFile crates).attempt
      pure ()
  | none => do
      let _ ← (reconcilePersistedIdentityFromFile crates).attempt
      pure ()

def commitSwitch (crates : Crates) (identityId : String) (previousWorking : Option Bytes) :
    Except String (Option StackIdentity) → FileProgram Unit
  | .ok _ => writeActiveId identityId
  | .error e => do
      rollbackSwitch crates previousWorking
      .err e

def switchIdentity (crates : Crates) (identityId : String) : FileProgram Unit := do
  let previousActive ← readActiveId
  if previousActive = identityId then pure ()
  else do
    let previousWorking ← readFile .identity
    let identity ← stackIdentity
    stashWorkingIntoActiveSlot crates identity
    installSlotToWorking identityId
    let reconciled ← (reconcilePersistedIdentityFromFile crates).attempt
    commitSwitch crates identityId previousWorking.toOption reconciled

def deleteIdentitySlot (identityId : String) : FileProgram Unit := deleteSlot identityId

def listIdentities (crates : Crates) : FileProgram (List IdentityRow) := do
  let identity ← stackIdentity
  listSlotRows crates identity

-- What a start of the sidecar does with the slots once it has loaded the saved state.
def syncAtStart (crates : Crates) : FileProgram Unit := do
  let _ ← (reconcilePersistedIdentityFromFile crates).attempt
  let identity ← stackIdentity
  if identity.configured then do
    let _ ← (syncActiveSlotFromWorking crates identity.displayName (some identity.identityHash)
      (some identity.lxmfHash)).attempt
    pure ()
  else pure ()

def bootstrapIdentity (crates : Crates) : FileProgram Unit := do
  let _ ← ensureSlotLayout.attempt
  syncAtStart crates

def restart (crates : Crates) (osError : String) (s : Sidecar) : Sidecar :=
  (Program.run (fileWorld osError) (bootstrapIdentity crates) { s with identity := s.saved }).2

end MeshClient.Identity
