import Mathlib

-- The Protocol Buffers wire format: a message is a sequence of tagged fields, and a reader
-- takes every well-formed sequence, whether it knows the fields or not.
namespace Protobuf

abbrev Bytes := List UInt8

inductive WireValue where
  | varint (n : Nat)
  | fixed64 (bytes : Bytes)
  | delimited (bytes : Bytes)
  | fixed32 (bytes : Bytes)
deriving DecidableEq, Repr

structure Field where
  number : Nat
  value : WireValue
deriving DecidableEq, Repr

-- A number in groups of seven bits, the lowest first, over at most so many bytes.
def readVarint : Nat → Bytes → Option (Nat × Bytes)
  | 0, _ => none
  | _ + 1, [] => none
  | room + 1, b :: bs =>
      if b.toNat < 0x80 then some (b.toNat, bs)
      else (readVarint room bs).map fun (n, rest) => (b.toNat % 0x80 + 0x80 * n, rest)

def VARINT_MAX_BYTES : Nat := 10

def takeBytes (n : Nat) (bytes : Bytes) : Option (Bytes × Bytes) :=
  if bytes.length < n then none else some (bytes.take n, bytes.drop n)

inductive Item where
  | field (field : Field)
  | startGroup (number : Nat)
  | endGroup (number : Nat)
deriving DecidableEq, Repr

-- One tag with the value it announces.
def readItem (bytes : Bytes) : Option (Item × Bytes) := do
  let (tag, rest) ← readVarint VARINT_MAX_BYTES bytes
  let number := tag / 8
  if tag ≥ 2 ^ 32 ∨ number = 0 then none
  else match tag % 8 with
    | 0 => do
        let (n, rest) ← readVarint VARINT_MAX_BYTES rest
        some (.field ⟨number, .varint n⟩, rest)
    | 1 => do
        let (value, rest) ← takeBytes 8 rest
        some (.field ⟨number, .fixed64 value⟩, rest)
    | 2 => do
        let (length, rest) ← readVarint VARINT_MAX_BYTES rest
        let (value, rest) ← takeBytes length rest
        some (.field ⟨number, .delimited value⟩, rest)
    | 3 => some (.startGroup number, rest)
    | 4 => some (.endGroup number, rest)
    | 5 => do
        let (value, rest) ← takeBytes 4 rest
        some (.field ⟨number, .fixed32 value⟩, rest)
    | _ => none

-- `groups` are the numbers of the groups that are open, innermost first. Groups belong to no
-- known field, so what is in them is read and dropped.
def readItems : Nat → List Nat → Bytes → Option (List Field)
  | 0, _, _ => none
  | _ + 1, groups, [] => if groups = [] then some [] else none
  | fuel + 1, groups, b :: bs =>
      match readItem (b :: bs) with
      | none => none
      | some (.field field, rest) =>
          (readItems fuel groups rest).map fun fields => if groups = [] then field :: fields else fields
      | some (.startGroup number, rest) => readItems fuel (number :: groups) rest
      | some (.endGroup number, rest) =>
          match groups with
          | [] => none
          | innermost :: outer => if innermost = number then readItems fuel outer rest else none

-- The fields of a message; `none` when the bytes are not a well-formed sequence of fields.
def readFields (bytes : Bytes) : Option (List Field) := readItems (bytes.length + 1) [] bytes

def WellFormed (bytes : Bytes) : Prop := (readFields bytes).isSome = true

instance : DecidablePred WellFormed := fun bytes =>
  inferInstanceAs (Decidable ((readFields bytes).isSome = true))

def encodeVarint : Nat → Nat → Bytes
  | 0, _ => []
  | room + 1, n =>
      if n < 0x80 then [UInt8.ofNat n] else UInt8.ofNat (n % 0x80 + 0x80) :: encodeVarint room (n / 0x80)

def writeVarint (n : Nat) : Bytes := encodeVarint VARINT_MAX_BYTES n

def writeVarintField (number n : Nat) : Bytes := writeVarint (number * 8) ++ writeVarint n

def writeDelimited (number : Nat) (value : Bytes) : Bytes :=
  writeVarint (number * 8 + 2) ++ writeVarint value.length ++ value

theorem toNat_ofNat_of_lt {n : Nat} (h : n < 256) : (UInt8.ofNat n).toNat = n := by
  rw [UInt8.toNat_ofNat']
  omega

theorem readVarint_shorter {room n : Nat} {bytes rest : Bytes} (h : readVarint room bytes = some (n, rest)) :
    rest.length < bytes.length := by
  induction room generalizing n bytes with
  | zero => simp [readVarint] at h
  | succ room ih =>
      cases bytes with
      | nil => simp [readVarint] at h
      | cons b bs =>
          by_cases hb : b.toNat < 0x80
          · simp only [readVarint, if_pos hb, Option.some.injEq, Prod.mk.injEq] at h
            simp [← h.2]
          · simp only [readVarint, if_neg hb, Option.map_eq_some_iff, Prod.mk.injEq, Prod.exists] at h
            obtain ⟨m, rest', hm, _, rfl⟩ := h
            have := ih hm
            rw [List.length_cons]
            omega

theorem readVarint_encodeVarint {room n : Nat} (h : n < 0x80 ^ (room + 1)) (rest : Bytes) :
    readVarint (room + 1) (encodeVarint (room + 1) n ++ rest) = some (n, rest) := by
  induction room generalizing n with
  | zero =>
      have hn : n < 0x80 := by simpa using h
      have hbyte := toNat_ofNat_of_lt (show n < 256 by omega)
      rw [encodeVarint, if_pos hn, List.cons_append, readVarint, hbyte, if_pos hn, List.nil_append]
  | succ room ih =>
      by_cases hn : n < 0x80
      · have hbyte := toNat_ofNat_of_lt (show n < 256 by omega)
        rw [encodeVarint, if_pos hn, List.cons_append, readVarint, hbyte, if_pos hn, List.nil_append]
      · have hbyte := toNat_ofNat_of_lt (show n % 0x80 + 0x80 < 256 by omega)
        have hrest : n / 0x80 < 0x80 ^ (room + 1) := by
          rw [Nat.div_lt_iff_lt_mul (by omega), ← pow_succ]
          exact h
        have hsum : (n % 0x80 + 0x80) % 0x80 + 0x80 * (n / 0x80) = n := by omega
        rw [encodeVarint, if_neg hn, List.cons_append, readVarint, hbyte, if_neg (by omega), ih hrest,
          Option.map_some]
        simp only [hsum]

theorem readVarint_writeVarint {n : Nat} (h : n < 2 ^ 64) (rest : Bytes) :
    readVarint VARINT_MAX_BYTES (writeVarint n ++ rest) = some (n, rest) :=
  @readVarint_encodeVarint 9 n (lt_trans h (by norm_num)) rest

theorem takeBytes_append (value rest : Bytes) : takeBytes value.length (value ++ rest) = some (value, rest) := by
  rw [takeBytes, if_neg (by simp), List.take_left, List.drop_left]

theorem takeBytes_shorter {n : Nat} {bytes value rest : Bytes} (h : takeBytes n bytes = some (value, rest)) :
    rest.length ≤ bytes.length := by
  by_cases hlt : bytes.length < n
  · simp [takeBytes, hlt] at h
  · simp only [takeBytes, if_neg hlt, Option.some.injEq, Prod.mk.injEq] at h
    rw [← h.2, List.length_drop]
    omega

theorem readItem_shorter {bytes rest : Bytes} {item : Item} (h : readItem bytes = some (item, rest)) :
    rest.length < bytes.length := by
  unfold readItem at h
  cases htag : readVarint VARINT_MAX_BYTES bytes with
  | none => simp [htag] at h
  | some pair =>
      obtain ⟨tag, rest₁⟩ := pair
      have h₁ := readVarint_shorter htag
      simp only [htag, Option.bind_eq_bind, Option.bind_some] at h
      by_cases hbad : tag ≥ 2 ^ 32 ∨ tag / 8 = 0
      · rw [if_pos hbad] at h
        cases h
      · rw [if_neg hbad] at h
        split at h
        · simp only [Option.bind_eq_some_iff, Option.some.injEq, Prod.mk.injEq, Prod.exists] at h
          obtain ⟨n, rest₂, hn, _, rfl⟩ := h
          have := readVarint_shorter hn
          omega
        · simp only [Option.bind_eq_some_iff, Option.some.injEq, Prod.mk.injEq, Prod.exists] at h
          obtain ⟨value, rest₂, hv, _, rfl⟩ := h
          have := takeBytes_shorter hv
          omega
        · simp only [Option.bind_eq_some_iff, Option.some.injEq, Prod.mk.injEq, Prod.exists] at h
          obtain ⟨n, rest₂, hn, value, rest₃, hv, _, rfl⟩ := h
          have h₂ := readVarint_shorter hn
          have h₃ := takeBytes_shorter hv
          omega
        · simp only [Option.some.injEq, Prod.mk.injEq] at h
          rw [← h.2]
          exact h₁
        · simp only [Option.some.injEq, Prod.mk.injEq] at h
          rw [← h.2]
          exact h₁
        · simp only [Option.bind_eq_some_iff, Option.some.injEq, Prod.mk.injEq, Prod.exists] at h
          obtain ⟨value, rest₂, hv, _, rfl⟩ := h
          have := takeBytes_shorter hv
          omega
        · cases h

-- Every item takes at least one byte, so more fuel than bytes makes no difference.
theorem readItems_fuel {fuel fuel' : Nat} {groups : List Nat} {bytes : Bytes} (h : bytes.length < fuel)
    (h' : bytes.length < fuel') : readItems fuel groups bytes = readItems fuel' groups bytes := by
  induction fuel generalizing fuel' groups bytes with
  | zero => omega
  | succ fuel ih =>
      obtain ⟨fuel', rfl⟩ : ∃ k, fuel' = k + 1 := ⟨fuel' - 1, by omega⟩
      cases bytes with
      | nil => rfl
      | cons b bs =>
          cases hitem : readItem (b :: bs) with
          | none => simp only [readItems, hitem]
          | some pair =>
              obtain ⟨item, rest⟩ := pair
              have hshort := readItem_shorter hitem
              have hsame : ∀ groups, readItems fuel groups rest = readItems fuel' groups rest :=
                fun groups => ih (by omega) (by omega)
              cases item with
              | field field => simp only [readItems, hitem, hsame]
              | startGroup number => simp only [readItems, hitem, hsame]
              | endGroup number =>
                  cases groups with
                  | nil => simp only [readItems, hitem]
                  | cons innermost outer => simp only [readItems, hitem, hsame]

@[simp] theorem readFields_nil : readFields [] = some [] := rfl

theorem readFields_of_item {bytes rest : Bytes} {field : Field} (h : readItem bytes = some (.field field, rest)) :
    readFields bytes = (readFields rest).map (field :: ·) := by
  have hshort := readItem_shorter h
  cases bytes with
  | nil => simp at hshort
  | cons b bs =>
      have hfuel : readItems (b :: bs).length [] rest = readFields rest :=
        readItems_fuel hshort (Nat.lt_succ_self _)
      rw [readFields, readItems, h]
      simp only [hfuel, if_true]

theorem readItem_writeVarintField {number n : Nat} (hnumber : 0 < number) (hlt : number < 2 ^ 29) (hn : n < 2 ^ 64)
    (rest : Bytes) :
    readItem (writeVarintField number n ++ rest) = some (.field ⟨number, .varint n⟩, rest) := by
  have htag : ¬ (number * 8 ≥ 2 ^ 32 ∨ number * 8 / 8 = 0) := by omega
  have hwire : number * 8 % 8 = 0 := by omega
  have hdiv : number * 8 / 8 = number := by omega
  rw [readItem, writeVarintField, List.append_assoc, readVarint_writeVarint (by omega)]
  simp only [Option.bind_eq_bind, Option.bind_some]
  rw [if_neg htag]
  simp only [hwire, readVarint_writeVarint hn, Option.bind_some, hdiv]

theorem readItem_writeDelimited {number : Nat} {value : Bytes} (hnumber : 0 < number) (hlt : number < 2 ^ 29)
    (hlen : value.length < 2 ^ 64) (rest : Bytes) :
    readItem (writeDelimited number value ++ rest) = some (.field ⟨number, .delimited value⟩, rest) := by
  have htag : ¬ (number * 8 + 2 ≥ 2 ^ 32 ∨ (number * 8 + 2) / 8 = 0) := by omega
  have hwire : (number * 8 + 2) % 8 = 2 := by omega
  have hdiv : (number * 8 + 2) / 8 = number := by omega
  rw [readItem, writeDelimited, List.append_assoc, List.append_assoc, readVarint_writeVarint (by omega)]
  simp only [Option.bind_eq_bind, Option.bind_some]
  rw [if_neg htag]
  simp only [hwire, readVarint_writeVarint hlen, takeBytes_append, Option.bind_some, hdiv]

end Protobuf
