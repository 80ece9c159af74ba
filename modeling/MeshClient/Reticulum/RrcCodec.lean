import MeshClient.Lib.OrderedMap

namespace MeshClient.Reticulum

abbrev Bytes := List UInt8

-- A CBOR value; a float is its bits.
inductive Value where
  | integer (n : Int)
  | bytes (bytes : Bytes)
  | float (bits : UInt64)
  | text (text : String)
  | bool (b : Bool)
  | null
  | tag (tag : UInt64) (value : Value)
  | array (values : List Value)
  | map (entries : List (Value × Value))

-- The CBOR library: a writer and a reader, each with its own error text.
structure Cbor where
  into_writer : Value → Except String Bytes
  from_reader : Bytes → Except String Value

def Cbor.RoundTrips (cbor : Cbor) (value : Value) : Prop :=
  ∃ bytes, cbor.into_writer value = .ok bytes ∧ cbor.from_reader bytes = .ok value

inductive RrcCodecError where
  | Encode (message : String)
  | Decode (message : String)
  | MissingField (name : String)
  | BadType (name : String)
deriving DecidableEq, Repr

abbrev FixedBytes (n : Nat) := { bytes : Bytes // bytes.length = n }

def RRC_MSG_ID_LEN : Nat := 8
def RRC_IDENTITY_HASH_LEN : Nat := 16

def REPLY_TO : Nat := 64
def REACT_TO : Nat := 65
def REACT_OP : Nat := 66

def REACT_OP_APPLY : UInt8 := 0
def REACT_OP_RETRACT : UInt8 := 1

structure RrcEnvelope where
  version : UInt8
  msg_type : UInt8
  msg_id : FixedBytes RRC_MSG_ID_LEN
  timestamp : UInt64
  sender_identity : FixedBytes RRC_IDENTITY_HASH_LEN
  room_name : Option String
  body : Option Value
  nickname : Option String
  dst_identity : Option (FixedBytes RRC_IDENTITY_HASH_LEN)
  react_to : Option (FixedBytes RRC_MSG_ID_LEN)
  react_op : Option UInt8

-- An entry that is there when the field is.
def entryOf {α : Type} (key : Nat) (toValue : α → Value) (field : Option α) : List (Nat × Value) :=
  field.toList.map fun a => (key, toValue a)

-- A reaction's operation is only written behind its target.
def reactionEntries (env : RrcEnvelope) : List (Nat × Value) :=
  match env.react_to with
  | none => []
  | some target =>
      (REACT_TO, .bytes target.1) :: entryOf REACT_OP (fun op => .integer op.toNat) env.react_op

def envelopeEntries (env : RrcEnvelope) : List (Nat × Value) :=
  [(0, .integer env.version.toNat), (1, .integer env.msg_type.toNat), (2, .bytes env.msg_id.1),
    (3, .integer env.timestamp.toNat), (4, .bytes env.sender_identity.1)] ++
  entryOf 5 .text env.room_name ++
  entryOf 6 id env.body ++
  entryOf 7 .text env.nickname ++
  entryOf 8 (fun dst => .bytes dst.1) env.dst_identity ++
  reactionEntries env

def wireEntry (entry : Nat × Value) : Value × Value := (.integer entry.1, entry.2)

def envelopeMap (env : RrcEnvelope) : Value := .map ((envelopeEntries env).map wireEntry)

def encode_envelope (cbor : Cbor) (env : RrcEnvelope) : Except RrcCodecError Bytes :=
  match cbor.into_writer (envelopeMap env) with
  | .error message => .error (.Encode message)
  | .ok out => .ok out

def U8_MAX : Nat := 0xff
def U64_MAX : Nat := 0xffffffffffffffff

-- `try_from` into the unsigned type with this largest value.
def tryFrom (max : Nat) (n : Int) : Option Nat := if 0 ≤ n ∧ n ≤ max then some n.toNat else none

def as_u64 : Value → Option Nat
  | .integer n => tryFrom U64_MAX n
  | _ => none

def integer_key (value : Value) : Option Nat := as_u64 value

def as_text : Value → Option String
  | .text text => some text
  | _ => none

abbrev Fields := OrderedMap Nat Value

def take_u8 (fields : Fields) (key : Nat) (name : String) : Except RrcCodecError UInt8 :=
  match fields.get? key with
  | none => .error (.MissingField name)
  | some (.integer n) => (tryFrom U8_MAX n).elim (.error (.BadType name)) fun m => .ok (UInt8.ofNat m)
  | some _ => .error (.BadType name)

def take_u64 (fields : Fields) (key : Nat) (name : String) : Except RrcCodecError UInt64 :=
  match fields.get? key with
  | none => .error (.MissingField name)
  | some (.integer n) => (tryFrom U64_MAX n).elim (.error (.BadType name)) fun m => .ok (UInt64.ofNat m)
  | some _ => .error (.BadType name)

def fixedBytes (n : Nat) : Value → Option (FixedBytes n)
  | .bytes bytes => if h : bytes.length = n then some ⟨bytes, h⟩ else none
  | _ => none

def take_fixed_bytes (n : Nat) (fields : Fields) (key : Nat) (name : String) :
    Except RrcCodecError (FixedBytes n) :=
  match fields.get? key with
  | none => .error (.MissingField name)
  | some value => (fixedBytes n value).elim (.error (.BadType name)) .ok

def fieldEntry (entry : Value × Value) : Option (Nat × Value) :=
  (integer_key entry.1).map fun key => (key, entry.2)

-- A later entry with the same key replaces an earlier one; other keys are passed over.
def collectFields (entries : List (Value × Value)) : Fields :=
  (∅ : Fields).setAll (entries.filterMap fieldEntry)

def readReactTo (fields : Fields) : Option (FixedBytes RRC_MSG_ID_LEN) :=
  if (fields.get? REPLY_TO).isSome then none else (fields.get? REACT_TO).bind (fixedBytes RRC_MSG_ID_LEN)

def readReactOp (fields : Fields) (react_to : Option (FixedBytes RRC_MSG_ID_LEN)) : Option UInt8 :=
  react_to.bind fun _ =>
    (((fields.get? REACT_OP).bind as_u64).bind fun op => (tryFrom U8_MAX op).map UInt8.ofNat).filter fun op =>
      op = REACT_OP_APPLY || op = REACT_OP_RETRACT

def decodeFields (fields : Fields) : Except RrcCodecError RrcEnvelope := do
  let version ← take_u8 fields 0 "version"
  let msg_type ← take_u8 fields 1 "msg_type"
  let msg_id ← take_fixed_bytes RRC_MSG_ID_LEN fields 2 "msg_id"
  let timestamp ← take_u64 fields 3 "timestamp"
  let sender_identity ← take_fixed_bytes RRC_IDENTITY_HASH_LEN fields 4 "sender_identity"
  let react_to := readReactTo fields
  pure {
    version, msg_type, msg_id, timestamp, sender_identity
    room_name := (fields.get? 5).bind as_text
    body := fields.get? 6
    nickname := (fields.get? 7).bind as_text
    dst_identity := (fields.get? 8).bind (fixedBytes RRC_IDENTITY_HASH_LEN)
    react_to
    react_op := readReactOp fields react_to }

def decode_envelope (cbor : Cbor) (bytes : Bytes) : Except RrcCodecError RrcEnvelope :=
  match cbor.from_reader bytes with
  | .error message => .error (.Decode message)
  | .ok (.map entries) => decodeFields (collectFields entries)
  | .ok _ => .error (.Decode "top-level must be a map")

theorem entryOf_keys {α : Type} (key : Nat) (toValue : α → Value) (field : Option α) :
    ((entryOf key toValue field).map Prod.fst).Sublist [key] := by
  cases field with
  | none => simp [entryOf]
  | some a => simp [entryOf]

theorem reactionEntries_keys (env : RrcEnvelope) :
    ((reactionEntries env).map Prod.fst).Sublist [REACT_TO, REACT_OP] := by
  unfold reactionEntries
  cases env.react_to with
  | none => simp
  | some target => exact (entryOf_keys REACT_OP _ _).cons_cons REACT_TO

theorem envelopeEntries_keys (env : RrcEnvelope) :
    ((envelopeEntries env).map Prod.fst).Sublist [0, 1, 2, 3, 4, 5, 6, 7, 8, REACT_TO, REACT_OP] := by
  simp only [envelopeEntries, List.map_append]
  exact (((((List.Sublist.refl _).append (entryOf_keys 5 _ _)).append (entryOf_keys 6 _ _)).append
    (entryOf_keys 7 _ _)).append (entryOf_keys 8 _ _)).append (reactionEntries_keys env)

-- Whatever is left out, the keys are written in increasing order.
theorem envelopeEntries_increasing (env : RrcEnvelope) :
    ((envelopeEntries env).map Prod.fst).Pairwise (· < ·) :=
  List.Pairwise.sublist (envelopeEntries_keys env) (by decide)

theorem envelopeEntries_bounded (env : RrcEnvelope) : ∀ e ∈ envelopeEntries env, e.1 ≤ REACT_OP := by
  intro e he
  have hmem := (envelopeEntries_keys env).subset (List.mem_map_of_mem he)
  simp only [REACT_TO, REACT_OP, List.mem_cons, List.not_mem_nil, or_false] at hmem ⊢
  omega

theorem tryFrom_of_le {max n : Nat} (h : n ≤ max) : tryFrom max n = some n := by
  rw [tryFrom, if_pos (by omega), Int.toNat_natCast]

theorem as_u64_of_le {n : Nat} (h : n ≤ U8_MAX) : as_u64 (.integer n) = some n := by
  rw [as_u64, tryFrom_of_le (h.trans (by decide))]

theorem integer_key_of_le {n : Nat} (h : n ≤ U8_MAX) : integer_key (.integer n) = some n := as_u64_of_le h

theorem collectFields_envelope (env : RrcEnvelope) :
    collectFields ((envelopeEntries env).map wireEntry) = (∅ : Fields).setAll (envelopeEntries env) := by
  rw [collectFields, List.filterMap_map]
  congr 1
  refine (List.filterMap_congr ?_).trans List.filterMap_some
  intro e he
  have hle : e.1 ≤ U8_MAX := (envelopeEntries_bounded env e he).trans (by decide)
  rw [Function.comp_apply, fieldEntry, wireEntry, integer_key_of_le hle, Option.map_some]

-- With distinct keys every field is what its one entry says.
theorem get?_setAll_eq_find {entries : List (Nat × Value)} (h : (entries.map Prod.fst).Nodup) (key : Nat) :
    ((∅ : Fields).setAll entries).get? key = (entries.find? fun e => e.1 = key).map Prod.snd := by
  cases hfind : entries.find? fun e => decide (e.1 = key) with
  | none =>
      rw [OrderedMap.get?_setAll_of_notMem]
      · rfl
      · intro hmem
        obtain ⟨e, he, hkey⟩ := List.mem_map.mp hmem
        exact absurd (decide_eq_true hkey) (List.find?_eq_none.mp hfind e he)
  | some e =>
      have hkey : e.1 = key := by simpa using List.find?_some hfind
      have hmem := List.mem_of_find?_eq_some hfind
      subst hkey
      exact OrderedMap.get?_setAll_of_mem ∅ h hmem

theorem find_entryOf {α : Type} (key k : Nat) (toValue : α → Value) (field : Option α) :
    (entryOf k toValue field).find? (fun e => decide (e.1 = key)) =
      if k = key then field.map fun a => (k, toValue a) else none := by
  cases field with
  | none => simp [entryOf]
  | some a => by_cases h : k = key <;> simp [entryOf, h]

theorem find_reactionEntries (env : RrcEnvelope) (key : Nat) :
    (reactionEntries env).find? (fun e => decide (e.1 = key)) =
      env.react_to.bind fun target =>
        if REACT_TO = key then some (REACT_TO, .bytes target.1)
        else if REACT_OP = key then env.react_op.map fun op => (REACT_OP, .integer op.toNat) else none := by
  unfold reactionEntries
  cases env.react_to with
  | none => rfl
  | some target =>
      by_cases h : REACT_TO = key
      · simp [h]
      · simp only [List.find?_cons, h, decide_false, find_entryOf, Option.bind_some, if_false]

def envelopeFields (env : RrcEnvelope) : Fields := (∅ : Fields).setAll (envelopeEntries env)

theorem get?_envelopeFields (env : RrcEnvelope) (key : Nat) :
    (envelopeFields env).get? key = ((envelopeEntries env).find? fun e => e.1 = key).map Prod.snd :=
  get?_setAll_eq_find ((envelopeEntries_increasing env).imp Nat.ne_of_lt) key

-- What the reader finds under each key.
theorem envelopeFields_get (env : RrcEnvelope) :
    (envelopeFields env).get? 0 = some (.integer env.version.toNat) ∧
    (envelopeFields env).get? 1 = some (.integer env.msg_type.toNat) ∧
    (envelopeFields env).get? 2 = some (.bytes env.msg_id.1) ∧
    (envelopeFields env).get? 3 = some (.integer env.timestamp.toNat) ∧
    (envelopeFields env).get? 4 = some (.bytes env.sender_identity.1) ∧
    (envelopeFields env).get? 5 = env.room_name.map .text ∧
    (envelopeFields env).get? 6 = env.body ∧
    (envelopeFields env).get? 7 = env.nickname.map .text ∧
    (envelopeFields env).get? 8 = env.dst_identity.map (fun dst => .bytes dst.1) ∧
    (envelopeFields env).get? REPLY_TO = none ∧
    (envelopeFields env).get? REACT_TO = env.react_to.map (fun target => .bytes target.1) ∧
    (envelopeFields env).get? REACT_OP =
      env.react_to.bind fun _ => env.react_op.map fun op => .integer op.toNat := by
  simp only [get?_envelopeFields, envelopeEntries, List.find?_append, find_entryOf, find_reactionEntries]
  refine ⟨rfl, rfl, rfl, rfl, rfl, ?_, ?_, ?_, ?_, ?_, ?_, ?_⟩
  · cases env.room_name <;> cases env.react_to <;> rfl
  · cases env.body <;> cases env.react_to <;> rfl
  · cases env.nickname <;> cases env.react_to <;> rfl
  · cases env.dst_identity <;> cases env.react_to <;> rfl
  · cases env.react_to <;> rfl
  · cases env.react_to <;> rfl
  · cases env.react_to <;> cases env.react_op <;> rfl

theorem toNat_le_U8_MAX (n : UInt8) : n.toNat ≤ U8_MAX := Nat.le_of_lt_succ n.toNat_lt

theorem tryFrom_u8 (n : UInt8) : tryFrom U8_MAX n.toNat = some n.toNat := tryFrom_of_le (toNat_le_U8_MAX n)

theorem tryFrom_u64 (n : UInt64) : tryFrom U64_MAX n.toNat = some n.toNat :=
  tryFrom_of_le (Nat.le_of_lt_succ n.toNat_lt)

theorem fixedBytes_of {n : Nat} (bytes : FixedBytes n) : fixedBytes n (.bytes bytes.1) = some bytes := by
  rw [fixedBytes, dif_pos bytes.2]

theorem take_u8_of {fields : Fields} {key : Nat} {n : UInt8} (h : fields.get? key = some (.integer n.toNat))
    (name : String) : take_u8 fields key name = .ok n := by
  rw [take_u8, h]
  simp only [tryFrom_u8, Option.elim_some, UInt8.ofNat_toNat]

theorem take_u64_of {fields : Fields} {key : Nat} {n : UInt64} (h : fields.get? key = some (.integer n.toNat))
    (name : String) : take_u64 fields key name = .ok n := by
  rw [take_u64, h]
  simp only [tryFrom_u64, Option.elim_some, UInt64.ofNat_toNat]

theorem take_fixed_bytes_of {n : Nat} {fields : Fields} {key : Nat} {bytes : FixedBytes n}
    (h : fields.get? key = some (.bytes bytes.1)) (name : String) :
    take_fixed_bytes n fields key name = .ok bytes := by
  rw [take_fixed_bytes, h]
  simp only [fixedBytes_of, Option.elim_some]

-- An operation is one of the two known ones, and only stands behind a target.
def ReactionConsistent (env : RrcEnvelope) : Prop :=
  (∀ op, env.react_op = some op → op = REACT_OP_APPLY ∨ op = REACT_OP_RETRACT) ∧
  (env.react_to = none → env.react_op = none)

theorem readReactTo_envelope (env : RrcEnvelope) : readReactTo (envelopeFields env) = env.react_to := by
  obtain ⟨_, _, _, _, _, _, _, _, _, hreply, htarget, _⟩ := envelopeFields_get env
  rw [readReactTo, hreply, htarget]
  cases env.react_to with
  | none => rfl
  | some target => simp [fixedBytes_of]

theorem readReactOp_envelope {env : RrcEnvelope} (h : ReactionConsistent env) :
    readReactOp (envelopeFields env) env.react_to = env.react_op := by
  obtain ⟨_, _, _, _, _, _, _, _, _, _, _, hop⟩ := envelopeFields_get env
  rw [readReactOp, hop]
  cases htarget : env.react_to with
  | none => simp [h.2 htarget]
  | some target =>
      cases hreact : env.react_op with
      | none => rfl
      | some op =>
          have hknown := h.1 op hreact
          have hfilter : (decide (op = REACT_OP_APPLY) || decide (op = REACT_OP_RETRACT)) = true := by
            simpa using hknown
          have hu64 := as_u64_of_le (toNat_le_U8_MAX op)
          rw [Option.bind_some, Option.map_some, Option.bind_some, Option.bind_some, hu64, Option.bind_some,
            tryFrom_u8, Option.map_some, UInt8.ofNat_toNat, Option.filter_some, if_pos hfilter]

theorem decodeFields_envelope {env : RrcEnvelope} (h : ReactionConsistent env) :
    decodeFields (envelopeFields env) = .ok env := by
  obtain ⟨hversion, htype, hid, htime, hsender, hroom, hbody, hnick, hdst, _⟩ := envelopeFields_get env
  have hoption : ∀ field : Option String, (field.map Value.text).bind as_text = field := by
    intro field
    cases field <;> rfl
  have hfixed : (env.dst_identity.map fun dst => Value.bytes dst.1).bind
      (fixedBytes RRC_IDENTITY_HASH_LEN) = env.dst_identity := by
    cases env.dst_identity with
    | none => rfl
    | some dst => exact fixedBytes_of dst
  rw [decodeFields, take_u8_of hversion, take_u8_of htype, take_fixed_bytes_of hid, take_u64_of htime,
    take_fixed_bytes_of hsender, readReactTo_envelope]
  simp only [bind, Except.bind, pure, Except.pure]
  rw [readReactOp_envelope h, hroom, hbody, hnick, hdst, hoption, hoption, hfixed]

theorem survives_of_roundTrips {cbor : Cbor} {env : RrcEnvelope} (h : ReactionConsistent env)
    (hwire : cbor.RoundTrips (envelopeMap env)) :
    ∃ bytes, encode_envelope cbor env = .ok bytes ∧ decode_envelope cbor bytes = .ok env := by
  obtain ⟨bytes, hwrite, hread⟩ := hwire
  refine ⟨bytes, by rw [encode_envelope, hwrite], ?_⟩
  rw [decode_envelope, hread, envelopeMap]
  exact (congrArg decodeFields (collectFields_envelope env)).trans (decodeFields_envelope h)

-- The reader only builds consistent envelopes.
theorem decode_consistent {cbor : Cbor} {bytes : Bytes} {env : RrcEnvelope}
    (h : decode_envelope cbor bytes = .ok env) : ReactionConsistent env := by
  have hfields : ∃ fields, decodeFields fields = .ok env := by
    rw [decode_envelope] at h
    cases hread : cbor.from_reader bytes with
    | error message => simp [hread] at h
    | ok value =>
        cases value with
        | map entries => exact ⟨_, by simpa [hread] using h⟩
        | _ => simp [hread] at h
  obtain ⟨fields, hfields⟩ := hfields
  have hop : env.react_op = readReactOp fields env.react_to := by
    simp only [decodeFields, bind, Except.bind, pure, Except.pure] at hfields
    split at hfields
    · cases hfields
    split at hfields
    · cases hfields
    split at hfields
    · cases hfields
    split at hfields
    · cases hfields
    split at hfields
    · cases hfields
    · cases hfields
      rfl
  constructor
  · intro op hsome
    rw [hsome] at hop
    cases htarget : env.react_to with
    | none => simp [readReactOp, htarget] at hop
    | some target =>
        rw [htarget, readReactOp, Option.bind_some] at hop
        have hfilter := (Option.filter_eq_some_iff.mp hop.symm).2
        simpa using hfilter
  · intro htarget
    rw [hop, htarget]
    rfl

-- Envelopes survive the wire, the keys are written in increasing order, and what was read once
-- can be written and read again.
theorem envelopes_survive_wire (cbor : Cbor) :
    (∀ env, ReactionConsistent env → cbor.RoundTrips (envelopeMap env) →
      ∃ bytes, encode_envelope cbor env = .ok bytes ∧ decode_envelope cbor bytes = .ok env) ∧
    (∀ env, ((envelopeEntries env).map Prod.fst).Pairwise (· < ·)) ∧
    ∀ received env, decode_envelope cbor received = .ok env → cbor.RoundTrips (envelopeMap env) →
      ∃ bytes, encode_envelope cbor env = .ok bytes ∧ decode_envelope cbor bytes = .ok env :=
  ⟨fun _ => survives_of_roundTrips, envelopeEntries_increasing,
    fun _ _ h => survives_of_roundTrips (decode_consistent h)⟩

-- A flat item as the format writes it, an integer with at most one byte behind its head.
def shortItem : Value → Option Bytes
  | .integer n =>
      if 0 ≤ n ∧ n < 24 then some [UInt8.ofNat n.toNat]
      else if 0 ≤ n ∧ n < 256 then some [0x18, UInt8.ofNat n.toNat]
      else none
  | .bytes bytes => if bytes.length < 24 then some (UInt8.ofNat (0x40 + bytes.length) :: bytes) else none
  | _ => none

def shortEntry (entry : Value × Value) : Option Bytes := do
  let key ← shortItem entry.1
  let value ← shortItem entry.2
  pure (key ++ value)

-- A retracted reaction, with a number for a body.
def retraction : RrcEnvelope where
  version := 1
  msg_type := 20
  msg_id := ⟨[1, 2, 3, 4, 5, 6, 7, 8], rfl⟩
  timestamp := 5
  sender_identity := ⟨List.replicate 16 9, rfl⟩
  room_name := none
  body := some (.integer 7)
  nickname := none
  dst_identity := none
  react_to := some ⟨[8, 7, 6, 5, 4, 3, 2, 1], rfl⟩
  react_op := some REACT_OP_RETRACT

def retractionBytes : Bytes :=
  [0xa8, 0x00, 0x01, 0x01, 0x14, 0x02, 0x48, 1, 2, 3, 4, 5, 6, 7, 8, 0x03, 0x05, 0x04, 0x50] ++
    List.replicate 16 9 ++ [0x06, 0x07, 0x18, 0x41, 0x48, 8, 7, 6, 5, 4, 3, 2, 1, 0x18, 0x42, 0x01]

-- The library on maps of flat items, reading back this one.
def shortCbor : Cbor where
  into_writer
    | .map entries =>
        (entries.mapM shortEntry).elim (.error "unsupported item") fun items =>
          .ok (UInt8.ofNat (0xa0 + entries.length) :: items.flatten)
    | _ => .error "unsupported item"
  from_reader bytes :=
    if bytes = retractionBytes then .ok (envelopeMap retraction) else .error "unsupported item"

theorem shortCbor_reads : shortCbor.from_reader retractionBytes = .ok (envelopeMap retraction) := by
  simp only [shortCbor, if_true]

theorem retraction_consistent : ReactionConsistent retraction := ⟨by simp [retraction], by simp [retraction]⟩

theorem retraction_survives_wire :
    (∃ bytes, encode_envelope shortCbor retraction = .ok bytes ∧
      decode_envelope shortCbor bytes = .ok retraction) ∧
    decode_envelope shortCbor retractionBytes = .ok retraction ∧
    ∃ bytes, encode_envelope shortCbor retraction = .ok bytes ∧
      decode_envelope shortCbor bytes = .ok retraction := by
  have hwire : shortCbor.RoundTrips (envelopeMap retraction) :=
    ⟨retractionBytes, by decide, shortCbor_reads⟩
  have hread : decode_envelope shortCbor retractionBytes = .ok retraction := by
    rw [decode_envelope, shortCbor_reads, envelopeMap]
    exact (congrArg decodeFields (collectFields_envelope retraction)).trans
      (decodeFields_envelope retraction_consistent)
  exact ⟨(envelopes_survive_wire shortCbor).1 retraction retraction_consistent hwire, hread,
    (envelopes_survive_wire shortCbor).2.2 retractionBytes retraction hread hwire⟩

end MeshClient.Reticulum
