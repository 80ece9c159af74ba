import MeshClient.Js.Text

namespace MeshClient.Secrets

open Js

-- What JSON text is read as. A number that overflows is not finite.
inductive Json where
  | null
  | bool (value : Bool)
  | number (value : Option ℚ)
  | string (value : String)
  | array (items : List Json)
  | object (fields : List (String × Json))

-- The text readers of the platform.
structure Platform where
  parseJson : String → Option Json
  decodeBase64 : String → List UInt8
  encodeBase64 : List UInt8 → String

def MAX_SECRET_BYTES : Nat := 64 * 1024

def validSecret (value : String) : Bool := value ≠ "" && value.utf8ByteSize ≤ MAX_SECRET_BYTES

inductive LegacyBackupProtocol where
  | meshcore
  | meshtastic
deriving DecidableEq, Repr

def LegacyBackupProtocol.text : LegacyBackupProtocol → String
  | .meshcore => "meshcore"
  | .meshtastic => "meshtastic"

inductive LegacyBackupFormat where
  | perNode
  | meshtasticSingle
deriving DecidableEq, Repr

-- What is migrated, with the key it goes to.
inductive Legacy where
  | identity
  | backup (protocol : LegacyBackupProtocol) (id : Nat) (format : LegacyBackupFormat)
deriving DecidableEq, Repr

def invalidLegacy (kind : String) : String := "secureSecrets: invalid legacy " ++ kind

def isByte : Json → Bool
  | .number (some q) => q.den = 1 && 0 ≤ q && q ≤ 255
  | _ => false

def assertByteArray (value : Json) (lengths : List Nat) (kind : String) : Except String Unit :=
  match value with
  | .array items =>
      if items.length ∈ lengths ∧ items.all isByte then .ok () else .error (invalidLegacy kind)
  | _ => .error (invalidLegacy kind)

def isBase64Char (c : Char) : Bool := c.isAlphanum || c = '+' || c = '/'

-- ^[A-Za-z0-9+/]+={0,2}$
def isBase64Text (text : String) : Bool :=
  let padding := text.toList.dropWhile isBase64Char
  text.toList.takeWhile isBase64Char ≠ [] && padding.all (· = '=') && padding.length ≤ 2

def assertBase64Key (platform : Platform) (value : Option Json) (lengths : List Nat) (kind : String) :
    Except String String :=
  match value with
  | some (.string text) =>
      let normalized := trim text
      let bytes := platform.decodeBase64 normalized
      if text = "" then .error (invalidLegacy kind)
      else if !isBase64Text normalized || normalized.length % 4 ≠ 0 then .error (invalidLegacy kind)
      else if bytes.length ∉ lengths ∨ platform.encodeBase64 bytes ≠ normalized then .error (invalidLegacy kind)
      else .ok text
  | _ => .error (invalidLegacy kind)

def parseLegacyObject (platform : Platform) (plaintext kind : String) : Except String (List (String × Json)) :=
  match platform.parseJson plaintext with
  | some (.object fields) => .ok fields
  | _ => .error (invalidLegacy kind)

def isString (value : String) : Option Json → Bool
  | some (.string text) => text = value
  | _ => false

def isNumber (value : Nat) : Option Json → Bool
  | some (.number (some q)) => q = value
  | _ => false

def isFinite : Option Json → Bool
  | some (.number (some _)) => true
  | _ => false

def isLabel : Option Json → Bool
  | none | some .null | some (.string _) => true
  | _ => false

-- The public and the private key of a backup.
def assertLegacyBackupPayload (platform : Platform) (plaintext : String) (protocol : LegacyBackupProtocol) (id : Nat)
    (format : LegacyBackupFormat) : Except String (String × String) := do
  let parsed ← parseLegacyObject platform plaintext "backup"
  let field (name : String) := parsed.lookup name
  let privateLengths := if protocol = .meshcore then [32, 64] else [32]
  let publicKey ← assertBase64Key platform (field "publicKey") [32] "backup public key"
  let privateKey ← assertBase64Key platform (field "privateKey") privateLengths "backup private key"
  match format with
  | .meshtasticSingle =>
      if protocol ≠ .meshtastic then .error "secureSecrets: invalid legacy backup format"
      else .ok (publicKey, privateKey)
  | .perNode =>
      let idField := if protocol = .meshcore then "nodeId" else "nodeNum"
      if isString protocol.text (field "protocol") && isNumber id (field idField) && isFinite (field "backedUpAt") &&
          isLabel (field "nodeLabel") then .ok (publicKey, privateKey)
      else .error "secureSecrets: invalid legacy backup metadata"

-- The checks on what the legacy ciphertext decrypts to.
def Legacy.check (platform : Platform) (legacy : Legacy) (plaintext : String) : Except String Unit :=
  match legacy with
  | .identity =>
      match platform.parseJson plaintext with
      | some privateKey => assertByteArray privateKey [32, 64] "identity"
      | none => .error (invalidLegacy "identity")
  | .backup protocol id format => (assertLegacyBackupPayload platform plaintext protocol id format).map fun _ => ()

-- What is there already must be a backup of the same keys.
def Legacy.agrees (platform : Platform) (legacy : Legacy) (plaintext existing : String) : Except String Unit :=
  match legacy with
  | .identity => .ok ()
  | .backup protocol id format => do
      let legacyKeys ← assertLegacyBackupPayload platform plaintext protocol id format
      let existingKeys ← match assertLegacyBackupPayload platform existing protocol id .perNode with
        | .ok keys => .ok keys
        | .error error =>
            if format ≠ .meshtasticSingle then .error error
            else assertLegacyBackupPayload platform existing protocol id .meshtasticSingle
      if existingKeys ≠ legacyKeys then .error "secureSecrets: conflicting legacy backup" else .ok ()

-- A migration under way: the call, what it found as the key's symbol, and its plaintext.
structure Migration where
  id : Nat
  legacy : Legacy
  mutation : Option Nat
  plaintext : String := ""
deriving DecidableEq

-- Who waits for a read.
inductive Caller where
  | get (id : Nat)
  | migrate (m : Migration)
deriving DecidableEq

-- Who waits for a write.
inductive Writer where
  | set (id : Nat)
  | reEncrypt (caller : Caller)
  | migrate (m : Migration)
deriving DecidableEq

structure Write where
  writer : Writer
  value : String
  requirePersistent : Bool
  retireLegacy : Bool
  mutation : Option Nat
deriving DecidableEq

-- Where a call waits for the keyring.
inductive Await where
  | available (w : Write)
  | encrypted (w : Write)
  | verified (w : Write)
  | readable (caller : Caller) (mutation : Option Nat)
  | decrypted (caller : Caller) (mutation : Option Nat) (value : String)
  | legacyAvailable (m : Migration)
  | legacyDecrypted (m : Migration)
  | found (m : Migration) (existing : Option String)
  | status (m : Migration) (verified : Bool)
deriving DecidableEq

inductive Answer where
  | available (yes : Bool)
  | encrypted
  | decrypted (result : String) (shouldReEncrypt : Bool)
  | failed
  | returned
deriving DecidableEq, Repr

-- A call, by the number it was started with, and the value of a set.
inductive Owner where
  | set (id : Nat) (value : String)
  | get (id : Nat)
  | migrate (id : Nat)
deriving DecidableEq, Repr

inductive Outcome where
  | written (persistent verified : Bool)
  | value (value : Option String)
  | rejected (error : String)
deriving DecidableEq, Repr

def SUPERSEDED : String := "secureSecrets: superseded write"

-- One key of the store: its value in the session and in the database (as the text its ciphertext
-- decrypts to), whether its legacy copy is retired, and its symbol. Calls and symbols are numbered
-- by one clock.
structure SecretStore where
  session : Option String := none
  stored : Option String := none
  legacyRetired : Bool := false
  mutation : Option Nat := none
  clock : Nat := 0
  pending : List Await := []
deriving DecidableEq

abbrev Settled := Option (Owner × Outcome)

def Caller.owner : Caller → Owner
  | .get id => .get id
  | .migrate m => .migrate m.id

def Write.owner (w : Write) : Owner :=
  match w.writer with
  | .set id => .set id w.value
  | .reEncrypt caller => caller.owner
  | .migrate m => .migrate m.id

def Await.owner : Await → Owner
  | .available w | .encrypted w | .verified w => w.owner
  | .readable caller _ | .decrypted caller _ _ => caller.owner
  | .legacyAvailable m | .legacyDecrypted m | .found m _ | .status m _ => .migrate m.id

def Owner.id : Owner → Nat
  | .set id _ | .get id | .migrate id => id

def SecretStore.await (s : SecretStore) (await : Await) : SecretStore := { s with pending := s.pending ++ [await] }

section Source

variable (platform : Platform)

-- A read is over: a get returns, a migration is told.
def SecretStore.finishRead (s : SecretStore) (caller : Caller) (existing : Option String) : SecretStore × Settled :=
  match caller with
  | .get id => (s, some (.get id, .value existing))
  | .migrate m => (s.await (.found m existing), none)

-- A migration goes on with what it found.
def SecretStore.importFound (s : SecretStore) (m : Migration) (existing : Option String) : SecretStore × Settled :=
  if s.mutation ≠ m.mutation ∨ (existing = none ∧ s.legacyRetired = true) then (s.await (.status m false), none)
  else match existing with
    | some existing =>
        match m.legacy.agrees platform m.plaintext existing with
        | .error error => (s, some (.migrate m.id, .rejected error))
        | .ok () => (s.await (.status m true), none)
    | none =>
        if validSecret m.plaintext then
          ({ s with mutation := some s.clock, clock := s.clock + 1 }.await
            (.available ⟨.migrate m, m.plaintext, false, true, some s.clock⟩), none)
        else (s, some (.migrate m.id, .rejected "secureSecrets: invalid value"))

-- A re-encryption is over either way, and the read with it.
def SecretStore.finishWrite (s : SecretStore) (w : Write) (outcome : Outcome) : SecretStore × Settled :=
  match w.writer with
  | .reEncrypt caller => s.finishRead caller (some w.value)
  | .set _ | .migrate _ => (s, some (w.owner, outcome))

def SecretStore.startRead (s : SecretStore) (caller : Caller) : SecretStore × Settled :=
  match s.session with
  | some value => s.finishRead caller (some value)
  | none => (s.await (.readable caller s.mutation), none)

-- The keyring answers a call, which goes on to its next wait. `commits` tells whether a transaction
-- that the call runs goes through.
def SecretStore.resume (s : SecretStore) (await : Await) (answer : Answer) (commits : Bool) :
    Option (SecretStore × Settled) :=
  match await, answer with
  | .available w, .available yes => some <|
      if yes then (s.await (.encrypted w), none)
      else if s.mutation ≠ w.mutation then s.finishWrite w (.rejected SUPERSEDED)
      else if w.requirePersistent then
        s.finishWrite w (.rejected "secureSecrets: OS key storage unavailable")
      else { s with session := some w.value }.finishWrite w (.written false true)
  | .encrypted w, .encrypted => some (s.await (.verified w), none)
  | .encrypted w, .failed => some (s.finishWrite w (.rejected "encryption failed"))
  | .verified w, .failed => some (s.finishWrite w (.rejected "decryption failed"))
  | .verified w, .decrypted result _ => some <|
      if result ≠ w.value then
        s.finishWrite w (.rejected "secureSecrets: persistence verification failed")
      else if s.mutation ≠ w.mutation then s.finishWrite w (.rejected SUPERSEDED)
      else if commits then
        { s with stored := some w.value, legacyRetired := s.legacyRetired || w.retireLegacy, session := none
          }.finishWrite w (.written true true)
      else s.finishWrite w (.rejected "secureSecrets: persistence verification failed")
  | .readable caller mutation, .available yes => some <|
      match if yes then s.stored else none with
      | none => s.finishRead caller none
      | some value => (s.await (.decrypted caller mutation value), none)
  | .decrypted caller _ _, .failed => some (s.finishRead caller none)
  | .decrypted caller mutation value, .decrypted _ shouldReEncrypt => some <|
      if shouldReEncrypt = true ∧ s.mutation = mutation ∧ validSecret value = true then
        (s.await (.available ⟨.reEncrypt caller, value, false, false, mutation⟩), none)
      else s.finishRead caller (some value)
  | .legacyAvailable m, .available yes => some <|
      if yes then (s.await (.legacyDecrypted m), none)
      else (s, some (.migrate m.id, .rejected "secureSecrets: legacy ciphertext cannot be decrypted"))
  | .legacyDecrypted m, .failed => some (s, some (.migrate m.id, .rejected "decryption failed"))
  | .legacyDecrypted m, .decrypted plaintext _ => some <|
      match m.legacy.check platform plaintext with
      | .error error => (s, some (.migrate m.id, .rejected error))
      | .ok () => s.startRead (.migrate { m with plaintext })
  | .found m existing, .returned => some (s.importFound platform m existing)
  | .status m verified, .available yes => some (s, some (.migrate m.id, .written yes verified))
  | _, _ => none

inductive Event where
  | set (value : String) (requirePersistent : Bool)
  | get
  | remove (commits : Bool)
  | migrate (legacy : Legacy) (ciphertext : String)
  | answered (i : Nat) (answer : Answer) (commits : Bool)
deriving DecidableEq

def SecretStore.set (s : SecretStore) (value : String) (requirePersistent : Bool) : SecretStore × Settled :=
  let s' := { s with clock := s.clock + 1 }
  if validSecret value then
    ({ s' with mutation := some s.clock }.await
      (.available ⟨.set s.clock, value, requirePersistent, true, some s.clock⟩), none)
  else (s', some (.set s.clock value, .rejected "secureSecrets: invalid value"))

def SecretStore.remove (s : SecretStore) (commits : Bool) : SecretStore :=
  let s' := { s with mutation := some s.clock, clock := s.clock + 1 }
  if commits then { s' with stored := none, legacyRetired := true, session := none } else s'

def SecretStore.migrate (s : SecretStore) (legacy : Legacy) (ciphertext : String) : SecretStore × Settled :=
  let s' := { s with clock := s.clock + 1 }
  if ciphertext.length ≤ MAX_SECRET_BYTES * 2 then
    (s'.await (.legacyAvailable { id := s.clock, legacy, mutation := s.mutation }), none)
  else (s', some (.migrate s.clock, .rejected "secureSecrets: invalid legacy ciphertext"))

def SecretStore.step (s : SecretStore) : Event → SecretStore × Settled
  | .set value requirePersistent => s.set value requirePersistent
  | .get => { s with clock := s.clock + 1 }.startRead (.get s.clock)
  | .remove commits => (s.remove commits, none)
  | .migrate legacy ciphertext => s.migrate legacy ciphertext
  | .answered i answer commits =>
      match s.pending[i]? with
      | some await =>
          ({ s with pending := s.pending.eraseIdx i }.resume platform await answer commits).getD (s, none)
      | none => (s, none)

end Source

end MeshClient.Secrets
