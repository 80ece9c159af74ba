import MeshClient.Js.Text
import MeshClient.Lib.Utf8
import MeshClient.Lib.Protobuf

namespace MeshClient.Meshtastic

open Js

abbrev Bytes := List UInt8

-- Of the variants only the text is read; the others are messages of their own.
inductive StoreForwardVariant where
  | stats
  | history
  | heartbeat
  | text (value : Bytes)
deriving DecidableEq, Repr

structure StoreAndForward where
  rr : Int := 0
  variant : Option StoreForwardVariant := none
deriving DecidableEq, Repr

-- A known number with another wire type than its field has is an unknown field.
def setField (message : StoreAndForward) (field : Protobuf.Field) : Option StoreAndForward :=
  match field.number, field.value with
  | 1, .varint n => some { message with rr := (BitVec.ofNat 32 n).toInt }
  | 2, .delimited value => if Protobuf.WellFormed value then some { message with variant := some .stats } else none
  | 3, .delimited value => if Protobuf.WellFormed value then some { message with variant := some .history } else none
  | 4, .delimited value => if Protobuf.WellFormed value then some { message with variant := some .heartbeat } else none
  | 5, .delimited value => some { message with variant := some (.text value) }
  | _, _ => some message

-- `fromBinary(meshtasticStoreAndForwardSchema, data)`; `none` where it throws.
def fromBinary (data : Bytes) : Option StoreAndForward :=
  (Protobuf.readFields data).bind fun fields => fields.foldlM setField {}

-- `toBinary` of a message with the text variant.
def toBinary (rr : Nat) (value : Bytes) : Bytes :=
  (if rr = 0 then [] else Protobuf.writeVarintField 1 rr) ++ Protobuf.writeDelimited 5 value

def MESHTASTIC_CHAT_CONTROL_BYTE_RATIO_MAX : ℚ := 1 / 4

structure ResolvedMeshtasticTextPayload where
  text : String
  viaStoreForward : Option Bool := none
deriving DecidableEq, Repr

def parseStoreForwardPacket (data : Bytes) : Option StoreAndForward :=
  if data.length = 0 then none else fromBinary data

def isControlByte (b : UInt8) : Bool := b < 0x20 && b ≠ 0x09 && b ≠ 0x0a && b ≠ 0x0d

def isLikelyReadableChatText (bytes : Bytes) : Bool :=
  if bytes.length = 0 then true
  else (bytes.countP isControlByte : ℚ) / bytes.length ≤ MESHTASTIC_CHAT_CONTROL_BYTE_RATIO_MAX

def decodeStoreForwardTextPayload (data : Bytes) : Option String :=
  match parseStoreForwardPacket data with
  | none => none
  | some parsed =>
      match parsed.variant with
      | some (.text textBytes) =>
          if textBytes.length = 0 then none
          else
            let text := trim (Utf8.textDecode textBytes)
            if text = "" then none else some text
      | _ => none

def resolveMeshtasticTextMessagePayload (data : Bytes) : Option ResolvedMeshtasticTextPayload :=
  match parseStoreForwardPacket data with
  | some parsed =>
      match parsed.variant with
      | some (.text _) => (decodeStoreForwardTextPayload data).map fun text => ⟨text, some true⟩
      | _ => none
  | none =>
      if isLikelyReadableChatText data then some ⟨Utf8.textDecode data, none⟩ else none

theorem encode_eq_nil_iff (cs : List Char) : Utf8.encode cs = [] ↔ cs = [] := by
  cases cs with
  | nil => simp
  | cons c cs => simp

-- No byte of a character from U+0020 on is a control byte.
theorem le_of_mem_charBytes {v : Nat} (hv : 0x20 ≤ v) (hmax : v < 0x110000) :
    ∀ b ∈ Utf8.charBytes v, 0x20 ≤ b.toNat := by
  intro b hb
  unfold Utf8.charBytes at hb
  split_ifs at hb <;>
    simp only [List.mem_cons, List.not_mem_nil, or_false] at hb <;>
    rcases hb with rfl | rfl | rfl | rfl <;>
    rw [UInt8.toNat_ofNat'] <;> omega

theorem readable_of_no_control {cs : List Char} (h : ∀ c ∈ cs, 0x20 ≤ c.toNat) :
    isLikelyReadableChatText (Utf8.encode cs) = true := by
  have hcount : (Utf8.encode cs).countP isControlByte = 0 := by
    rw [List.countP_eq_zero]
    intro b hb
    obtain ⟨c, hc, hb⟩ := List.mem_flatMap.mp hb
    rw [Utf8.utf8EncodeChar_eq] at hb
    have hlow := le_of_mem_charBytes (h c hc) (by
      have hvalid : c.toNat < 0xD800 ∨ (0xDFFF < c.toNat ∧ c.toNat < 0x110000) := c.valid
      omega) b hb
    have hnot : ¬ b < 0x20 := by
      rw [UInt8.lt_iff_toNat_lt]
      exact not_lt.mpr hlow
    simp [isControlByte, hnot]
  unfold isLikelyReadableChatText
  by_cases hlen : (Utf8.encode cs).length = 0
  · rw [if_pos hlen]
  · rw [if_neg hlen, hcount]
    simp [MESHTASTIC_CHAT_CONTROL_BYTE_RATIO_MAX]

theorem stripBom_eq_self_iff (cs : List Char) :
    Utf8.stripBom cs = cs ↔ cs.head? ≠ some Utf8.BYTE_ORDER_MARK := by
  cases cs with
  | nil => simp [Utf8.stripBom]
  | cons c cs =>
      by_cases h : c = Utf8.BYTE_ORDER_MARK
      · simp only [Utf8.stripBom, List.head?_cons, h, ne_eq, not_true_eq_false, iff_false]
        intro hcs
        have := congrArg List.length hcs
        simp at this
      · simp [Utf8.stripBom, h]

-- Trimming takes a leading byte order mark with it.
theorem trimChars_stripBom (cs : List Char) : trimChars (Utf8.stripBom cs) = trimChars cs := by
  cases cs with
  | nil => rfl
  | cons c cs =>
      by_cases h : c = Utf8.BYTE_ORDER_MARK
      · have hspace : isSpace Utf8.BYTE_ORDER_MARK = true := by decide
        simp [Utf8.stripBom, h, trimChars, hspace]
      · simp [Utf8.stripBom, h]

theorem trim_textDecode_encode (text : String) :
    trim (Utf8.textDecode (Utf8.encode text.toList)) = trim text := by
  simp only [trim, Utf8.textDecode, Utf8.decode_encode, String.toList_ofList, trimChars_stripBom]

-- Whatever the message around it: a text variant that is not blank is the chat text.
theorem resolve_storeForward {data value : Bytes} {rr : Int}
    (hdata : fromBinary data = some ⟨rr, some (.text value)⟩) (hblank : trim (Utf8.textDecode value) ≠ "") :
    resolveMeshtasticTextMessagePayload data = some ⟨trim (Utf8.textDecode value), some true⟩ := by
  have hne : data.length ≠ 0 := by
    intro hlen
    rw [List.length_eq_zero_iff.mp hlen] at hdata
    simp [fromBinary] at hdata
  have hvalue : value.length ≠ 0 := by
    intro hlen
    rw [List.length_eq_zero_iff.mp hlen] at hblank
    exact hblank rfl
  have hparse : parseStoreForwardPacket data = some ⟨rr, some (.text value)⟩ := by
    rw [parseStoreForwardPacket, if_neg hne, hdata]
  rw [resolveMeshtasticTextMessagePayload, hparse]
  simp only [decodeStoreForwardTextPayload, hparse, if_neg hvalue, if_neg hblank, Option.map_some]

theorem fromBinary_toBinary {rr : Nat} {value : Bytes} (hrr : rr < 2 ^ 31) (hlen : value.length < 2 ^ 64) :
    fromBinary (toBinary rr value) = some ⟨rr, some (.text value)⟩ := by
  have htext : Protobuf.readFields (Protobuf.writeDelimited 5 value) = some [⟨5, .delimited value⟩] := by
    have hitem := @Protobuf.readItem_writeDelimited 5 value (by omega) (by omega) hlen []
    rw [List.append_nil] at hitem
    rw [Protobuf.readFields_of_item hitem]
    rfl
  by_cases hzero : rr = 0
  · rw [toBinary, if_pos hzero, List.nil_append, fromBinary, htext, hzero]
    rfl
  · have hitem := @Protobuf.readItem_writeVarintField 1 rr (by omega) (by omega) (by omega)
      (Protobuf.writeDelimited 5 value)
    have hint : (BitVec.ofNat 32 rr).toInt = rr := by
      rw [BitVec.toInt_ofNat', Int.bmod_eq_of_le] <;> omega
    rw [toBinary, if_neg hzero, fromBinary, Protobuf.readFields_of_item hitem, htext]
    simp only [Option.map_some, Option.bind_some, List.foldlM_cons, List.foldlM_nil, setField, hint,
      Option.bind_eq_bind, Option.pure_def]

end MeshClient.Meshtastic
