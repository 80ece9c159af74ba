import MeshClient.Lib.OrderedMap
import MeshClient.Lib.Program

namespace MeshClient.Identity

abbrev Bytes := ByteArray

-- The files of the config directory that hold identities, each by what it is for. The
-- temporary file carries the process id in its name, so a process has only one.
inductive FilePath where
  | identity
  | activeIdentity
  | activeIdentityTemp
  | slotIdentity (id : String)
  | slotMeta (id : String)
deriving DecidableEq

-- The directory of one slot.
structure Slot where
  identity : Option Bytes
  slotMeta : Option Bytes
deriving DecidableEq

-- `slots` are the directories under `identities`; a file can only be in one that exists.
-- Nothing depends on whether `identities` itself is missing or empty.
structure ConfigDir where
  identity : Option Bytes
  activeIdentity : Option Bytes
  activeIdentityTemp : Option Bytes
  slots : OrderedMap String Slot
deriving DecidableEq

namespace ConfigDir

def read (d : ConfigDir) : FilePath → Option Bytes
  | .identity => d.identity
  | .activeIdentity => d.activeIdentity
  | .activeIdentityTemp => d.activeIdentityTemp
  | .slotIdentity id => (d.slots.get? id).bind fun slot => slot.identity
  | .slotMeta id => (d.slots.get? id).bind fun slot => slot.slotMeta

-- Fails where the directory of the file is missing.
def put (d : ConfigDir) (path : FilePath) (contents : Option Bytes) : Option ConfigDir :=
  match path with
  | .identity => some { d with identity := contents }
  | .activeIdentity => some { d with activeIdentity := contents }
  | .activeIdentityTemp => some { d with activeIdentityTemp := contents }
  | .slotIdentity id => (d.slots.get? id).map fun slot =>
      { d with slots := d.slots.set id { slot with identity := contents } }
  | .slotMeta id => (d.slots.get? id).map fun slot =>
      { d with slots := d.slots.set id { slot with slotMeta := contents } }

def hasSlot (d : ConfigDir) (id : String) : Bool := (d.slots.get? id).isSome

def createSlotDir (d : ConfigDir) (id : String) : ConfigDir :=
  if d.hasSlot id then d else { d with slots := d.slots.set id ⟨none, none⟩ }

def removeSlotDir (d : ConfigDir) (id : String) : ConfigDir := { d with slots := d.slots.erase id }

theorem read_put {d d' : ConfigDir} {path : FilePath} {contents : Option Bytes}
    (h : d.put path contents = some d') (other : FilePath) :
    d'.read other = if other = path then contents else d.read other := by
  cases path with
  | identity => cases h; cases other <;> rfl
  | activeIdentity => cases h; cases other <;> rfl
  | activeIdentityTemp => cases h; cases other <;> rfl
  | slotIdentity id =>
      obtain ⟨slot, hslot, rfl⟩ := Option.map_eq_some_iff.mp h
      cases other with
      | slotIdentity id' => by_cases hid : id' = id <;> simp [read, OrderedMap.get?_set, hid]
      | slotMeta id' => by_cases hid : id' = id <;> simp [read, OrderedMap.get?_set, hid, hslot]
      | _ => rfl
  | slotMeta id =>
      obtain ⟨slot, hslot, rfl⟩ := Option.map_eq_some_iff.mp h
      cases other with
      | slotIdentity id' => by_cases hid : id' = id <;> simp [read, OrderedMap.get?_set, hid, hslot]
      | slotMeta id' => by_cases hid : id' = id <;> simp [read, OrderedMap.get?_set, hid]
      | _ => rfl

theorem keys_put {d d' : ConfigDir} {path : FilePath} {contents : Option Bytes}
    (h : d.put path contents = some d') : d'.slots.keys = d.slots.keys := by
  have hset : ∀ {id : String} {slot slot' : Slot}, d.slots.get? id = some slot →
      (d.slots.set id slot').keys = d.slots.keys := fun hslot => by
    rw [OrderedMap.keys_set, if_pos ((OrderedMap.mem_keys_iff d.slots _).mpr ⟨_, hslot⟩)]
  cases path with
  | slotIdentity id => obtain ⟨slot, hslot, rfl⟩ := Option.map_eq_some_iff.mp h; exact hset hslot
  | slotMeta id => obtain ⟨slot, hslot, rfl⟩ := Option.map_eq_some_iff.mp h; exact hset hslot
  | _ => cases h; rfl

theorem hasSlot_iff (d : ConfigDir) (id : String) : d.hasSlot id = true ↔ id ∈ d.slots.keys := by
  rw [hasSlot, Option.isSome_iff_exists, OrderedMap.mem_keys_iff]

theorem put_isSome {d : ConfigDir} {id : String} (h : d.hasSlot id = true) (contents : Option Bytes) :
    ∃ d', d.put (.slotIdentity id) contents = some d' := by
  obtain ⟨slot, hslot⟩ := Option.isSome_iff_exists.mp h
  exact ⟨_, by rw [put, hslot]; rfl⟩

theorem hasSlot_of_read {d : ConfigDir} {id : String} {contents : Bytes}
    (h : d.read (.slotIdentity id) = some contents) : d.hasSlot id = true := by
  obtain ⟨slot, hslot, _⟩ := Option.bind_eq_some_iff.mp h
  exact Option.isSome_iff_exists.mpr ⟨slot, hslot⟩

@[simp] theorem read_createSlotDir (d : ConfigDir) (id : String) (path : FilePath) :
    (d.createSlotDir id).read path = d.read path := by
  unfold createSlotDir
  split_ifs with hslot
  · rfl
  · have hnone : d.slots.get? id = none := by simpa [hasSlot] using hslot
    cases path with
    | slotIdentity id' => by_cases hid : id' = id <;> simp [read, OrderedMap.get?_set, hid, hnone]
    | slotMeta id' => by_cases hid : id' = id <;> simp [read, OrderedMap.get?_set, hid, hnone]
    | _ => rfl

theorem keys_createSlotDir (d : ConfigDir) (id : String) :
    (d.createSlotDir id).slots.keys =
      if id ∈ d.slots.keys then d.slots.keys else d.slots.keys ++ [id] := by
  unfold createSlotDir
  by_cases hslot : d.hasSlot id = true
  · rw [if_pos hslot, if_pos ((hasSlot_iff d id).mp hslot)]
  · rw [if_neg hslot, if_neg (fun h => hslot ((hasSlot_iff d id).mpr h))]
    exact (OrderedMap.keys_set _ _ _).trans (if_neg fun h => hslot ((hasSlot_iff d id).mpr h))

theorem read_removeSlotDir (d : ConfigDir) (id id' : String) :
    (d.removeSlotDir id).read (.slotIdentity id') =
      if id' = id then none else d.read (.slotIdentity id') := by
  by_cases hid : id' = id <;> simp [read, removeSlotDir, OrderedMap.get?_erase, hid]

end ConfigDir

structure StackIdentity where
  configured : Bool
  identityHash : String
  lxmfHash : String
  displayName : Option String
  mnemonic : Option String
deriving DecidableEq

-- `identity` is the identity in memory and `saved` the one in the state file.
structure Sidecar where
  config : ConfigDir
  identity : StackIdentity
  saved : StackIdentity
deriving DecidableEq

-- The calls that answer with nothing but success or an error text.
inductive FileChange where
  | createIdentitiesDir
  | createSlotDir (id : String)
  | write (path : FilePath) (contents : Bytes)
  | copy (source target : FilePath)
  | rename (source target : FilePath)
  | removeFile (path : FilePath)
  | removeSlotDir (id : String)
  | saveState
deriving DecidableEq

inductive FileCall where
  | fileExists (path : FilePath)
  | slotDirExists (id : String)
  | read (path : FilePath)
  | readIdentitiesDir
  | change (w : FileChange)
  | stackIdentity
  | setStackIdentity (identity : StackIdentity)
deriving DecidableEq

def FileCall.Reply : FileCall → Type
  | .fileExists _ => Bool
  | .slotDirExists _ => Bool
  | .read _ => Except String Bytes
  | .readIdentitiesDir => Except String (List String)
  | .change _ => Except String Unit
  | .stackIdentity => StackIdentity
  | .setStackIdentity _ => Unit

def fileInterface : Interface := ⟨FileCall, FileCall.Reply⟩

abbrev FileProgram (α : Type) := Program fileInterface String α

def NOT_FOUND : String := "No such file or directory (os error 2)"

def Sidecar.putFile (s : Sidecar) (path : FilePath) (contents : Option Bytes) : Option Sidecar :=
  (s.config.put path contents).map fun config => { s with config }

def Sidecar.createSlotDir (s : Sidecar) (id : String) : Sidecar :=
  { s with config := s.config.createSlotDir id }

-- The state file does not hold the mnemonic.
def FileChange.apply (s : Sidecar) : FileChange → Option Sidecar
  | .createIdentitiesDir => some s
  | .createSlotDir id => some (s.createSlotDir id)
  | .write path contents => s.putFile path (some contents)
  | .copy source target => (s.config.read source).bind fun contents => s.putFile target (some contents)
  | .rename source target => (s.config.read source).bind fun contents =>
      (s.putFile target (some contents)).bind fun s => s.putFile source none
  | .removeFile path => (s.config.read path).bind fun _ => s.putFile path none
  | .removeSlotDir id =>
      if s.config.hasSlot id then some { s with config := s.config.removeSlotDir id } else none
  | .saveState => some { s with saved := { s.identity with mnemonic := none } }

def orNotFound {α : Type} : Option α → Except String α
  | some a => .ok a
  | none => .error NOT_FOUND

def runCall (s : Sidecar) : (c : FileCall) → c.Reply × Sidecar
  | .fileExists path => ((s.config.read path).isSome, s)
  | .slotDirExists id => (s.config.hasSlot id, s)
  | .read path => (orNotFound (s.config.read path), s)
  | .readIdentitiesDir => (.ok s.config.slots.keys, s)
  | .change w => (orNotFound ((w.apply s).map fun _ => ()), (w.apply s).getD s)
  | .stackIdentity => (s.identity, s)
  | .setStackIdentity identity => ((), { s with identity })

-- `exists` and `is_dir` answer false where they cannot tell.
def failedReply (osError : String) : (c : FileCall) → Option c.Reply
  | .fileExists _ => some false
  | .slotDirExists _ => some false
  | .read _ => some (.error osError)
  | .readIdentitiesDir => some (.error osError)
  | .change _ => some (.error osError)
  | .stackIdentity => none
  | .setStackIdentity _ => none

def fileWorld (osError : String) : World fileInterface Sidecar where
  run c s := runCall s c
  failed := failedReply osError

def fileExists (path : FilePath) : FileProgram Bool := .call (.fileExists path) .ok

def slotDirExists (id : String) : FileProgram Bool := .call (.slotDirExists id) .ok

def readFile (path : FilePath) : FileProgram (Except String Bytes) := .call (.read path) .ok

def readIdentitiesDir : FileProgram (Except String (List String)) := .call .readIdentitiesDir .ok

def change (w : FileChange) : FileProgram (Except String Unit) := .call (.change w) .ok

def stackIdentity : FileProgram StackIdentity := .call .stackIdentity .ok

def setStackIdentity (identity : StackIdentity) : FileProgram Unit :=
  .call (.setStackIdentity identity) .ok

-- `f(..).map_err(|e| format!("{what}: {e}"))?`
def changeOrErr (what : String) (w : FileChange) : FileProgram Unit := do
  match ← change w with
  | .ok _ => pure ()
  | .error e => .err (what ++ ": " ++ e)

end MeshClient.Identity
