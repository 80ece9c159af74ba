import Mathlib

-- UTF-8 with the decoder that never fails: every byte sequence that no character has gives
-- U+FFFD, and reading goes on with the first byte that did not fit.
namespace Utf8

def REPLACEMENT : Char := '\uFFFD'

def BYTE_ORDER_MARK : Char := '\uFEFF'

def encode (cs : List Char) : List UInt8 := cs.flatMap String.utf8EncodeChar

-- Inside a character: how many bytes it still needs, its bits so far, and the range the next
-- byte has to be in.
structure State where
  needed : Nat
  codePoint : Nat
  lower : Nat
  upper : Nat
deriving DecidableEq

def State.start : State := ⟨0, 0, 0x80, 0xBF⟩

def lead (b : Nat) : List Char × State :=
  if b ≤ 0x7F then ([Char.ofNat b], .start)
  else if 0xC2 ≤ b ∧ b ≤ 0xDF then ([], ⟨1, b % 0x20, 0x80, 0xBF⟩)
  else if 0xE0 ≤ b ∧ b ≤ 0xEF then
    ([], ⟨2, b % 0x10, if b = 0xE0 then 0xA0 else 0x80, if b = 0xED then 0x9F else 0xBF⟩)
  else if 0xF0 ≤ b ∧ b ≤ 0xF4 then
    ([], ⟨3, b % 0x08, if b = 0xF0 then 0x90 else 0x80, if b = 0xF4 then 0x8F else 0xBF⟩)
  else ([REPLACEMENT], .start)

def step (s : State) (b : Nat) : List Char × State :=
  if s.needed = 0 then lead b
  else if s.lower ≤ b ∧ b ≤ s.upper then
    if s.needed = 1 then ([Char.ofNat (s.codePoint * 0x40 + b % 0x40)], .start)
    else ([], ⟨s.needed - 1, s.codePoint * 0x40 + b % 0x40, 0x80, 0xBF⟩)
  else (REPLACEMENT :: (lead b).1, (lead b).2)

def decodeFrom (s : State) : List UInt8 → List Char
  | [] => if s.needed = 0 then [] else [REPLACEMENT]
  | b :: bs => (step s b.toNat).1 ++ decodeFrom (step s b.toNat).2 bs

def decode (bytes : List UInt8) : List Char := decodeFrom .start bytes

def stripBom : List Char → List Char
  | [] => []
  | c :: cs => if c = BYTE_ORDER_MARK then cs else c :: cs

-- `new TextDecoder().decode(bytes)`
def textDecode (bytes : List UInt8) : String := String.ofList (stripBom (decode bytes))

@[simp] theorem encode_nil : encode [] = [] := rfl

@[simp] theorem encode_cons (c : Char) (cs : List Char) :
    encode (c :: cs) = String.utf8EncodeChar c ++ encode cs := rfl

theorem encode_append (cs cs' : List Char) : encode (cs ++ cs') = encode cs ++ encode cs' := by
  simp [encode]

theorem decodeFrom_cons (s : State) (n : Nat) (hn : n < 256) (bs : List UInt8) :
    decodeFrom s (UInt8.ofNat n :: bs) = (step s n).1 ++ decodeFrom (step s n).2 bs := by
  have hbyte : (UInt8.ofNat n).toNat = n := by
    rw [UInt8.toNat_ofNat']
    omega
  simp only [decodeFrom, hbyte]

theorem lead_ascii {b : Nat} (h : b ≤ 0x7F) : lead b = ([Char.ofNat b], .start) := by
  simp [lead, h]

theorem lead_two {n : Nat} (h₁ : 2 ≤ n) (h₂ : n < 0x20) :
    lead (n + 0xC0) = ([], ⟨1, n, 0x80, 0xBF⟩) := by
  have h : (n + 0xC0) % 0x20 = n := by omega
  rw [lead, if_neg (by omega), if_pos (by omega), h]

theorem lead_three {n : Nat} (h : n < 0x10) :
    lead (n + 0xE0) =
      ([], ⟨2, n, if n = 0 then 0xA0 else 0x80, if n = 0x0D then 0x9F else 0xBF⟩) := by
  have hmod : (n + 0xE0) % 0x10 = n := by omega
  have hlow : n + 0xE0 = 0xE0 ↔ n = 0 := by omega
  have hhigh : n + 0xE0 = 0xED ↔ n = 0x0D := by omega
  rw [lead, if_neg (by omega), if_neg (by omega), if_pos (by omega), hmod]
  simp only [hlow, hhigh]

theorem lead_four {n : Nat} (h : n ≤ 4) :
    lead (n + 0xF0) =
      ([], ⟨3, n, if n = 0 then 0x90 else 0x80, if n = 4 then 0x8F else 0xBF⟩) := by
  have hmod : (n + 0xF0) % 0x08 = n := by omega
  have hlow : n + 0xF0 = 0xF0 ↔ n = 0 := by omega
  have hhigh : n + 0xF0 = 0xF4 ↔ n = 4 := by omega
  rw [lead, if_neg (by omega), if_neg (by omega), if_neg (by omega), if_pos (by omega), hmod]
  simp only [hlow, hhigh]

-- A continuation byte in range: the last one gives the character.
theorem decodeFrom_last {cp lower upper n : Nat} (hn : n < 0x40) (hlow : lower ≤ n + 0x80)
    (hhigh : n + 0x80 ≤ upper) (bs : List UInt8) :
    decodeFrom ⟨1, cp, lower, upper⟩ (UInt8.ofNat (n + 0x80) :: bs) =
      Char.ofNat (cp * 0x40 + n) :: decode bs := by
  have hmod : (n + 0x80) % 0x40 = n := by omega
  rw [decodeFrom_cons _ _ (by omega), step, if_neg (by simp), if_pos ⟨hlow, hhigh⟩, if_pos rfl, hmod]
  rfl

theorem decodeFrom_more {needed cp lower upper n : Nat} (hneeded : 0 < needed) (hn : n < 0x40)
    (hlow : lower ≤ n + 0x80) (hhigh : n + 0x80 ≤ upper) (bs : List UInt8) :
    decodeFrom ⟨needed + 1, cp, lower, upper⟩ (UInt8.ofNat (n + 0x80) :: bs) =
      decodeFrom ⟨needed, cp * 0x40 + n, 0x80, 0xBF⟩ bs := by
  have hmod : (n + 0x80) % 0x40 = n := by omega
  rw [decodeFrom_cons _ _ (by omega), step, if_neg (by simp), if_pos ⟨hlow, hhigh⟩,
    if_neg (by simp; omega), hmod]
  rfl

def charBytes (v : Nat) : List UInt8 :=
  if v ≤ 0x7F then [UInt8.ofNat v]
  else if v ≤ 0x7FF then [UInt8.ofNat (v / 0x40 % 0x20 + 0xC0), UInt8.ofNat (v % 0x40 + 0x80)]
  else if v ≤ 0xFFFF then
    [UInt8.ofNat (v / 0x1000 % 0x10 + 0xE0), UInt8.ofNat (v / 0x40 % 0x40 + 0x80),
      UInt8.ofNat (v % 0x40 + 0x80)]
  else
    [UInt8.ofNat (v / 0x40000 % 0x08 + 0xF0), UInt8.ofNat (v / 0x1000 % 0x40 + 0x80),
      UInt8.ofNat (v / 0x40 % 0x40 + 0x80), UInt8.ofNat (v % 0x40 + 0x80)]

theorem utf8EncodeChar_eq (c : Char) : String.utf8EncodeChar c = charBytes c.toNat := rfl

-- The bytes of one code point are read back, with the bytes after it still to read.
-- Surrogates have no encoding, and the largest code point is U+10FFFF.
theorem decodeFrom_charBytes {v : Nat} (hv : v < 0xD800 ∨ (0xDFFF < v ∧ v < 0x110000)) (bs : List UInt8) :
    decodeFrom .start (charBytes v ++ bs) = Char.ofNat v :: decode bs := by
  unfold charBytes
  by_cases h₁ : v ≤ 0x7F
  · rw [if_pos h₁, List.cons_append, decodeFrom_cons _ _ (by omega)]
    simp only [step, State.start, if_true, lead_ascii h₁]
    rfl
  by_cases h₂ : v ≤ 0x7FF
  · have hval : v / 0x40 % 0x20 * 0x40 + v % 0x40 = v := by omega
    rw [if_neg h₁, if_pos h₂, List.cons_append, List.cons_append, decodeFrom_cons _ _ (by omega)]
    simp only [step, State.start, if_true, lead_two (n := v / 0x40 % 0x20) (by omega) (by omega)]
    rw [List.nil_append, decodeFrom_last (by omega) (by omega) (by omega), hval]
    rfl
  by_cases h₃ : v ≤ 0xFFFF
  · have hval : (v / 0x1000 % 0x10 * 0x40 + v / 0x40 % 0x40) * 0x40 + v % 0x40 = v := by omega
    rw [if_neg h₁, if_neg h₂, if_pos h₃]
    simp only [List.cons_append]
    rw [decodeFrom_cons _ _ (by omega)]
    simp only [step, State.start, if_true, lead_three (n := v / 0x1000 % 0x10) (by omega)]
    rw [List.nil_append, decodeFrom_more (by omega) (by omega) (by split <;> omega) (by split <;> omega),
      decodeFrom_last (by omega) (by omega) (by omega), hval]
    rfl
  · have hval : ((v / 0x40000 % 0x08 * 0x40 + v / 0x1000 % 0x40) * 0x40 + v / 0x40 % 0x40) * 0x40
        + v % 0x40 = v := by omega
    rw [if_neg h₁, if_neg h₂, if_neg h₃]
    simp only [List.cons_append]
    rw [decodeFrom_cons _ _ (by omega)]
    simp only [step, State.start, if_true, lead_four (n := v / 0x40000 % 0x08) (by omega)]
    rw [List.nil_append, decodeFrom_more (by omega) (by omega) (by split <;> omega) (by split <;> omega),
      decodeFrom_more (by omega) (by omega) (by omega) (by omega),
      decodeFrom_last (by omega) (by omega) (by omega), hval]
    rfl

theorem decodeFrom_encodeChar (c : Char) (bs : List UInt8) :
    decodeFrom .start (String.utf8EncodeChar c ++ bs) = c :: decode bs := by
  have hvalid : c.toNat < 0xD800 ∨ (0xDFFF < c.toNat ∧ c.toNat < 0x110000) := c.valid
  rw [utf8EncodeChar_eq, decodeFrom_charBytes hvalid, Char.ofNat_toNat]

theorem decode_encode (cs : List Char) : decode (encode cs) = cs := by
  induction cs with
  | nil => rfl
  | cons c cs ih => rw [encode_cons, decode, decodeFrom_encodeChar, ih]

theorem encode_injective {cs cs' : List Char} (h : encode cs = encode cs') : cs = cs' := by
  rw [← decode_encode cs, h, decode_encode]

end Utf8
