import MeshClient.Lib.Base64
import MeshClient.Lib.BitGroups
import MeshClient.Lib.Utf8
import MeshClient.Reticulum.ConfigFile

namespace MeshClient.Reticulum.IdentityImport

open BitGroups

def RNS_PRIVATE_KEY_LEN : ℕ := 64

def BASE32_ALPHABET : List Char := "ABCDEFGHIJKLMNOPQRSTUVWXYZ234567".toList

structure PrivateKey where
  bytes : List UInt8
  length_bytes : bytes.length = RNS_PRIVATE_KEY_LEN
deriving DecidableEq

def base32Value (ch : UInt8) : Option ℕ :=
  let n := ch.toNat
  if 'A'.toNat ≤ n ∧ n ≤ 'Z'.toNat then some (n - 'A'.toNat)
  else if 'a'.toNat ≤ n ∧ n ≤ 'z'.toNat then some (n - 'a'.toNat)
  else if '2'.toNat ≤ n ∧ n ≤ '7'.toNat then some (n - '2'.toNat + 26)
  else none

-- `ch.is_ascii_whitespace() || ch == b'-'`
def isSeparator (ch : UInt8) : Bool :=
  ch = 0x20 || ch = 0x09 || ch = 0x0A || ch = 0x0C || ch = 0x0D || ch = 0x2D

structure Decoding where
  packed : Buffer := {}
  sawPadding : Bool := false

def decodeByte (s : Decoding) (ch : UInt8) : Except Text Decoding :=
  if isSeparator ch then .ok s
  else if ch = 0x3D then .ok { s with sawPadding := true }
  else if s.sawPadding then .error "Invalid base32 private key padding".toList
  else
    match base32Value ch with
    | none => .error "Invalid base32 private key data".toList
    | some value => .ok { s with packed := (s.packed.push 5 value).drain 8 }

def decodeBytes (s : Decoding) : List UInt8 → Except Text Decoding
  | [] => .ok s
  | ch :: rest =>
      match decodeByte s ch with
      | .error e => .error e
      | .ok s => decodeBytes s rest

def decodeBase32PrivateKey (text : Text) : Except Text (List UInt8) :=
  match decodeBytes {} (Utf8.encode text) with
  | .error e => .error e
  | .ok s => .ok (s.packed.out.map UInt8.ofNat)

def base32Char (value : ℕ) : Char := BASE32_ALPHABET.getD value '='

-- What is left in the buffer goes out as one group more.
def lastGroup (b : Buffer) : List ℕ := if b.bits > 0 then [(b.buffer <<< (5 - b.bits)) &&& 0x1f] else []

-- `while !out.is_empty() && !out.len().is_multiple_of(8)`
def pad (out : Text) : Text := if out ≠ [] ∧ out.length % 8 ≠ 0 then pad (out ++ ['=']) else out
termination_by (8 - out.length % 8) % 8
decreasing_by
  rw [List.length_append, List.length_singleton]
  omega

def base32Groups (bytes : List UInt8) : List ℕ :=
  let b := ({} : Buffer).regroup 8 5 (bytes.map UInt8.toNat)
  b.out ++ lastGroup b

def encodeBase32Padded (bytes : List UInt8) : Text := pad ((base32Groups bytes).map base32Char)

def bytesToKey (bytes : List UInt8) : Except Text PrivateKey :=
  if h : bytes.length = RNS_PRIVATE_KEY_LEN then .ok ⟨bytes, h⟩
  else .error ("invalid private key length: expected 64, got ".toList ++ (toString bytes.length).toList)

-- What the `hex` and `base64` crates decode.
structure Crates where
  hexDecode : Text → Except Text (List UInt8)
  standard : List UInt8 → Option (List UInt8)
  urlSafe : List UInt8 → Option (List UInt8)
  urlSafeNoPad : List UInt8 → Option (List UInt8)

def Crates.engines (crates : Crates) : List (List UInt8 → Option (List UInt8)) :=
  [crates.standard, crates.urlSafe, crates.urlSafeNoPad]

def isAsciiHexdigit (c : Char) : Bool :=
  ('0' ≤ c && c ≤ '9') || ('A' ≤ c && c ≤ 'F') || ('a' ≤ c && c ≤ 'f')

def keyOf (decoded : Option (List UInt8)) : Option PrivateKey :=
  decoded.bind fun bytes => (bytesToKey bytes).toOption

def decodePrivateKeyInput (crates : Crates) (input : Text) : Except Text PrivateKey :=
  let trimmed := trim input
  if trimmed = [] then .error "private key is empty".toList
  else if (Utf8.encode trimmed).length = RNS_PRIVATE_KEY_LEN * 2 ∧ trimmed.all isAsciiHexdigit then
    match crates.hexDecode trimmed with
    | .error e => .error ("invalid hex private key: ".toList ++ e)
    | .ok bytes => bytesToKey bytes
  else
    match crates.engines.findSome? fun decode => keyOf (decode (Utf8.encode trimmed)) with
    | some key => .ok key
    | none =>
        match keyOf (decodeBase32PrivateKey trimmed).toOption with
        | some key => .ok key
        | none => .error "private key must be 64 bytes as 128-char hex, base64, or base32".toList

theorem pad_eq (out : Text) : pad out = out ++ List.replicate ((8 - out.length % 8) % 8) '=' := by
  induction out using pad.induct with
  | case1 out hmore ih =>
      have hcount : (8 - out.length % 8) % 8 = (8 - (out ++ ['=']).length % 8) % 8 + 1 := by
        rw [List.length_append, List.length_singleton]
        omega
      rw [pad, if_pos hmore, ih, hcount, List.replicate_succ, List.append_assoc, List.singleton_append]
  | case2 out hdone =>
      have hcount : (8 - out.length % 8) % 8 = 0 := by
        by_cases hempty : out = []
        · rw [hempty]
          rfl
        · have hmod : out.length % 8 = 0 := by
            by_contra hmod
            exact hdone ⟨hempty, hmod⟩
          omega
      rw [pad, if_neg hdone, hcount, List.replicate_zero, List.append_nil]

-- Base32 by its bits: groups of five, and zeros that fill the last.
structure IsBase32 (bytes : List UInt8) (groups : List ℕ) : Prop where
  small : ∀ g ∈ groups, g < 32
  bits : ∃ zeros < 5, stream 5 groups = stream 8 (bytes.map UInt8.toNat) ++ List.replicate zeros false

theorem byte_lt {bytes : List UInt8} : ∀ n ∈ bytes.map UInt8.toNat, n < 2 ^ 8 := by
  intro n hn
  obtain ⟨b, -, rfl⟩ := List.mem_map.mp hn
  exact b.toNat_lt

theorem IsBase32.length {bytes : List UInt8} {groups : List ℕ} (h : IsBase32 bytes groups) :
    groups.length = (8 * bytes.length + 4) / 5 := by
  obtain ⟨zeros, hzeros, hstream⟩ := h.bits
  have hlen := congrArg List.length hstream
  rw [List.length_append, length_stream, length_stream, List.length_map, List.length_replicate] at hlen
  omega

theorem base32Groups_isBase32 (bytes : List UInt8) : IsBase32 bytes (base32Groups bytes) := by
  have hcontent := @Buffer.content_regroup 8 5 _ {} _ (@byte_lt bytes)
  have hkept := (Buffer.Kept.start 5).regroup (@byte_lt bytes)
  have hbits := @Buffer.bits_regroup_lt 8 5 _ {} (show 0 < 5 by decide) (bytes.map UInt8.toNat)
  simp only [base32Groups]
  generalize ({} : Buffer).regroup 8 5 (bytes.map UInt8.toNat) = b at *
  change stream 5 b.out ++ bits b.bits b.buffer = stream 8 (bytes.map UInt8.toNat) at hcontent
  by_cases hmore : b.bits > 0
  · rw [lastGroup, if_pos hmore]
    constructor
    · intro g hg
      rw [List.mem_append, List.mem_singleton] at hg
      cases hg with
      | inl hg => exact hkept.out g hg
      | inr hg =>
          rw [hg]
          exact @Nat.and_lt_two_pow _ 0x1f 5 (by decide)
    · refine ⟨5 - b.bits, by omega, ?_⟩
      have hlast := bits_shiftLeft b.bits (5 - b.bits) b.buffer
      rw [Nat.add_sub_cancel' (Nat.le_of_lt hbits)] at hlast
      rw [stream_append, stream_cons, stream_nil, List.append_nil, show 0x1f = 2 ^ 5 - 1 from rfl, bits_mask, hlast,
        ← List.append_assoc, hcontent]
  · rw [lastGroup, if_neg hmore, List.append_nil]
    refine ⟨hkept.out, 0, by decide, ?_⟩
    rw [show b.bits = 0 by omega, bits, List.append_nil] at hcontent
    rw [hcontent, List.replicate_zero, List.append_nil]

-- `d` in either letter case.
def SameLetter (c d : Char) : Prop := c = d ∨ c = d.toLower ∨ c = d.toUpper

instance (c d : Char) : Decidable (SameLetter c d) := inferInstanceAs (Decidable (_ ∨ _ ∨ _))

def isSeparatorChar (c : Char) : Bool :=
  c = ' ' || c = '\t' || c = '\n' || c = '\x0C' || c = '\r' || c = '-'

-- A base32 text of the bytes, with or without its padding, that separators break up anywhere.
def SpellsBase32 (bytes : List UInt8) (text : Text) : Prop :=
  ∃ groups : List ℕ, ∃ padding : ℕ, IsBase32 bytes groups ∧
    (padding = 0 ∨ padding = (8 - groups.length % 8) % 8) ∧
      List.Forall₂ SameLetter (text.filter (!isSeparatorChar ·)) (groups.map base32Char ++ List.replicate padding '=')

-- How the byte of a base32 character is read.
@[mk_iff]
structure ReadsAs (c : Char) (g : ℕ) : Prop where
  ascii : c.toNat < 128
  kept : isSeparator (UInt8.ofNat c.toNat) = false
  blank : isWhitespace c = false
  plain : UInt8.ofNat c.toNat ≠ 0x3D
  value : base32Value (UInt8.ofNat c.toNat) = some g

instance (c : Char) (g : ℕ) : Decidable (ReadsAs c g) := decidable_of_iff _ (readsAs_iff c g).symm

theorem base32Char_read {g : ℕ} (hg : g < 32) {c : Char} (h : SameLetter c (base32Char g)) : ReadsAs c g := by
  have hsame : ∀ g < 32, ReadsAs (base32Char g) g := by decide
  have hlower : ∀ g < 32, ReadsAs (base32Char g).toLower g := by decide
  have hupper : ∀ g < 32, ReadsAs (base32Char g).toUpper g := by decide
  rcases h with rfl | rfl | rfl
  · exact hsame g hg
  · exact hlower g hg
  · exact hupper g hg

theorem separator_read {c : Char} (h : isSeparatorChar c = true) :
    c.toNat < 128 ∧ isSeparator (UInt8.ofNat c.toNat) = true := by
  simp only [isSeparatorChar, Bool.or_eq_true, decide_eq_true_eq] at h
  obtain ((((rfl | rfl) | rfl) | rfl) | rfl) | rfl := h <;> decide

theorem encode_cons_ascii {c : Char} (hc : c.toNat < 128) (text : Text) :
    Utf8.encode (c :: text) = UInt8.ofNat c.toNat :: Utf8.encode text := by
  rw [Utf8.encode_cons, Utf8.utf8EncodeChar_eq, Utf8.charBytes, if_pos (by omega), List.singleton_append]

theorem decodeBytes_spelled {text : Text} {groups : List ℕ} {padding : ℕ} (hsmall : ∀ g ∈ groups, g < 32)
    {s : Decoding} (hs : groups ≠ [] → s.sawPadding = false)
    (h : List.Forall₂ SameLetter (text.filter (!isSeparatorChar ·))
      (groups.map base32Char ++ List.replicate padding '=')) :
    ∃ s', decodeBytes s (Utf8.encode text) = .ok s' ∧ s'.packed = s.packed.regroup 5 8 groups := by
  induction text generalizing groups padding s with
  | nil =>
      rw [List.filter_nil, List.forall₂_nil_left_iff, List.append_eq_nil_iff, List.map_eq_nil_iff] at h
      obtain ⟨rfl, -⟩ := h
      exact ⟨s, rfl, rfl⟩
  | cons c text ih =>
      by_cases hseparator : isSeparatorChar c = true
      · obtain ⟨hascii, hskip⟩ := separator_read hseparator
        rw [List.filter_cons, if_neg (by simp [hseparator])] at h
        obtain ⟨s', hs', hpacked⟩ := ih hsmall hs h
        refine ⟨s', ?_, hpacked⟩
        rw [encode_cons_ascii hascii, decodeBytes, decodeByte, if_pos hskip]
        exact hs'
      · rw [List.filter_cons, if_pos (by simp [hseparator]), List.forall₂_cons_left_iff] at h
        obtain ⟨d, rest, hletter, hrest, htext⟩ := h
        cases groups with
        | nil =>
            cases padding with
            | zero => cases htext
            | succ padding =>
                obtain ⟨rfl, rfl⟩ := List.cons.inj htext
                obtain rfl : c = '=' := by rcases hletter with h | h | h <;> exact h
                obtain ⟨s', hs', hpacked⟩ := @ih [] padding (by simp) { s with sawPadding := true } (by simp) hrest
                refine ⟨s', ?_, hpacked⟩
                rw [encode_cons_ascii (by decide), decodeBytes, decodeByte, if_neg (by decide), if_pos (by decide)]
                exact hs'
        | cons g groups =>
            obtain ⟨rfl, rfl⟩ := List.cons.inj htext
            have hread := base32Char_read (hsmall g (List.mem_cons_self ..)) hletter
            have hopen := hs (List.cons_ne_nil _ _)
            obtain ⟨s', hs', hpacked⟩ := @ih groups padding (fun k hk => hsmall k (List.mem_cons_of_mem _ hk))
              { s with packed := (s.packed.push 5 g).drain 8 } (fun _ => hopen) hrest
            refine ⟨s', ?_, hpacked⟩
            rw [encode_cons_ascii hread.ascii, decodeBytes, decodeByte, if_neg (by simp [hread.kept]), if_neg hread.plain,
              if_neg (by simp [hopen]), hread.value]
            exact hs'

theorem decodeBase32_spelled {bytes : List UInt8} {text : Text} (h : SpellsBase32 bytes text) :
    decodeBase32PrivateKey text = .ok bytes := by
  obtain ⟨groups, padding, hgroups, -, htext⟩ := h
  obtain ⟨s, hs, hpacked⟩ := @decodeBytes_spelled text groups padding hgroups.small {} (fun _ => rfl) htext
  have hcontent := @Buffer.content_regroup 5 8 _ {} groups hgroups.small
  have hkept := @Buffer.Kept.regroup 5 8 _ {} (Buffer.Kept.start 8) groups hgroups.small
  have hbits := @Buffer.bits_regroup_lt 5 8 _ {} (show 0 < 8 by decide) groups
  rw [decodeBase32PrivateKey, hs]
  simp only
  rw [show s.packed = ({} : Buffer).regroup 5 8 groups from hpacked]
  generalize ({} : Buffer).regroup 5 8 groups = b at *
  obtain ⟨zeros, hzeros, hstream⟩ := hgroups.bits
  change stream 8 b.out ++ bits b.bits b.buffer = stream 5 groups at hcontent
  rw [hstream] at hcontent
  have hlength := congrArg List.length hcontent
  rw [List.length_append, List.length_append, length_stream, length_stream, length_bits, List.length_replicate,
    List.length_map] at hlength
  have hcount : b.out.length = (bytes.map UInt8.toNat).length := by
    rw [List.length_map]
    omega
  obtain ⟨hout, -⟩ := List.append_inj hcontent (by rw [length_stream, length_stream, hcount])
  have hback : UInt8.ofNat ∘ UInt8.toNat = id := funext fun b => UInt8.ofNat_toNat
  rw [stream_inj hcount hkept.out byte_lt hout, List.map_map, hback, List.map_id]

theorem sameLetter_refl (text : Text) : List.Forall₂ SameLetter text text :=
  List.forall₂_same.mpr fun _ _ => Or.inl rfl

theorem encodeBase32Padded_spells (bytes : List UInt8) : SpellsBase32 bytes (encodeBase32Padded bytes) := by
  have hgroups := base32Groups_isBase32 bytes
  refine ⟨base32Groups bytes, _, hgroups, Or.inr rfl, ?_⟩
  have hplain : ∀ g < 32, isSeparatorChar (base32Char g) = false := by decide
  have hfilter : (encodeBase32Padded bytes).filter (!isSeparatorChar ·) = encodeBase32Padded bytes := by
    rw [List.filter_eq_self, encodeBase32Padded, pad_eq]
    intro c hc
    rw [List.mem_append] at hc
    cases hc with
    | inl hc =>
        obtain ⟨g, hg, rfl⟩ := List.mem_map.mp hc
        rw [hplain g (hgroups.small g hg)]
        rfl
    | inr hc =>
        rw [List.eq_of_mem_replicate hc]
        rfl
  rw [hfilter, encodeBase32Padded, pad_eq, List.length_map]
  exact sameLetter_refl _

example : encodeBase32Padded [0x66, 0x6F, 0x6F, 0x62] = "MZXW6YQ=".toList := by decide +kernel

example : decodeBase32PrivateKey "mzxw-6yq".toList = .ok [0x66, 0x6F, 0x6F, 0x62] := by decide +kernel

def hexDigit (n : ℕ) : Char := "0123456789abcdef".toList.getD n '0'

def hexEncode (bytes : List UInt8) : Text := bytes.flatMap fun b => [hexDigit (b.toNat / 16), hexDigit (b.toNat % 16)]

def SpellsHex (bytes : List UInt8) (text : Text) : Prop := List.Forall₂ SameLetter text (hexEncode bytes)

-- The crates decode what they encode, and nothing else; `hex` takes its digits in either letter case.
structure Crates.Canonical (crates : Crates) : Prop where
  hexDecode : ∀ text bytes, crates.hexDecode text = .ok bytes ↔ SpellsHex bytes text
  standard : ∀ text bytes, crates.standard text = some bytes ↔ text = Utf8.encode (Base64.encode bytes)
  urlSafe : ∀ text bytes,
    crates.urlSafe text = some bytes ↔ text = Utf8.encode ((Base64.encode bytes).map Base64.urlChar)
  urlSafeNoPad : ∀ text bytes,
    crates.urlSafeNoPad text = some bytes ↔ text = Utf8.encode ((Base64.digits bytes).map Base64.urlChar)

inductive Offered (bytes : List UInt8) : Text → Prop
  | hex {text : Text} (h : SpellsHex bytes text) : Offered bytes text
  | standard : Offered bytes (Base64.encode bytes)
  | urlSafe : Offered bytes ((Base64.encode bytes).map Base64.urlChar)
  | urlSafeNoPad : Offered bytes ((Base64.digits bytes).map Base64.urlChar)
  | base32 {text : Text} (h : SpellsBase32 bytes text) : Offered bytes text

theorem hexDigit_read {n : ℕ} (hn : n < 16) {c : Char} (h : SameLetter c (hexDigit n)) :
    c.toNat < 128 ∧ isAsciiHexdigit c = true ∧ isWhitespace c = false := by
  rcases h with rfl | rfl | rfl <;> interval_cases n <;> decide

theorem length_encode_ascii {text : Text} (h : ∀ c ∈ text, c.toNat < 128) :
    (Utf8.encode text).length = text.length := by
  induction text with
  | nil => rfl
  | cons c text ih =>
      rw [encode_cons_ascii (h c (List.mem_cons_self ..)), List.length_cons, List.length_cons,
        ih fun d hd => h d (List.mem_cons_of_mem _ hd)]

theorem length_hexEncode (bytes : List UInt8) : (hexEncode bytes).length = 2 * bytes.length := by
  induction bytes with
  | nil => rfl
  | cons b bytes ih =>
      rw [hexEncode, List.flatMap_cons, List.length_append, ← hexEncode, ih, List.length_cons]
      simp only [List.length_cons, List.length_nil]
      omega

theorem SpellsHex.read {bytes : List UInt8} {text : Text} (h : SpellsHex bytes text) :
    text.length = 2 * bytes.length ∧
      ∀ c ∈ text, c.toNat < 128 ∧ isAsciiHexdigit c = true ∧ isWhitespace c = false := by
  refine ⟨by rw [h.length_eq, length_hexEncode], fun c hc => ?_⟩
  obtain ⟨i, hi, rfl⟩ := List.getElem_of_mem hc
  have hletter := h.get hi (h.length_eq ▸ hi)
  have hdigit : ∀ d ∈ hexEncode bytes, ∃ n < 16, d = hexDigit n := by
    intro d hd
    obtain ⟨b, -, hb⟩ := List.mem_flatMap.mp hd
    have hbyte : b.toNat < 256 := b.toNat_lt
    rw [List.mem_pair] at hb
    cases hb with
    | inl hb => exact ⟨_, by omega, hb⟩
    | inr hb => exact ⟨_, Nat.mod_lt _ (by decide), hb⟩
  obtain ⟨n, hn, heq⟩ := hdigit _ (List.getElem_mem (h.length_eq ▸ hi))
  rw [List.get_eq_getElem, List.get_eq_getElem, heq] at hletter
  exact hexDigit_read hn hletter

-- A text that one of the base64 engines takes is read by the reader that takes all their alphabets.
theorem decode_of_engine {crates : Crates} (hcrates : crates.Canonical) {text : Text} {bytes : List UInt8}
    {engine : List UInt8 → Option (List UInt8)} (hengine : engine ∈ crates.engines)
    (h : engine (Utf8.encode text) = some bytes) :
    Base64.decode text = bytes ∧ text.length ≤ (Base64.encode bytes).length := by
  simp only [Crates.engines, List.mem_cons, List.not_mem_nil, or_false] at hengine
  obtain rfl | rfl | rfl := hengine
  · rw [Utf8.encode_injective ((hcrates.standard _ _).mp h)]
    exact ⟨Base64.decode_encode bytes, Nat.le_refl _⟩
  · rw [Utf8.encode_injective ((hcrates.urlSafe _ _).mp h), Base64.decode_map_urlChar, List.length_map]
    exact ⟨Base64.decode_encode bytes, Nat.le_refl _⟩
  · rw [Utf8.encode_injective ((hcrates.urlSafeNoPad _ _).mp h), Base64.decode_map_urlChar, List.length_map,
      Base64.length_encode]
    exact ⟨Base64.decode_digits bytes, Nat.le_add_right _ _⟩

theorem length_encode_key (key : PrivateKey) :
    (Base64.digits key.bytes).length = 86 ∧ (Base64.encode key.bytes).length = 88 := by
  have hdigits : (Base64.digits key.bytes).length = 86 := by rw [Base64.digits_length, key.length_bytes]; rfl
  refine ⟨hdigits, ?_⟩
  rw [Base64.length_encode, hdigits]

theorem keyOf_some (key : PrivateKey) : keyOf (some key.bytes) = some key := by
  rw [keyOf, Option.bind_some, bytesToKey, dif_pos key.length_bytes]
  rfl

theorem keyOf_eq_some {decoded : Option (List UInt8)} {key : PrivateKey} (h : keyOf decoded = some key) :
    decoded = some key.bytes := by
  obtain ⟨bytes, hbytes, hkey⟩ := Option.bind_eq_some_iff.mp h
  unfold bytesToKey at hkey
  split_ifs at hkey with hlength
  · rw [hbytes, ← Option.some.inj hkey]
  · cases hkey

-- Whichever engine takes a base64 text of the key, takes it as the key.
theorem engines_find {crates : Crates} (hcrates : crates.Canonical) {key : PrivateKey} {text : Text}
    (htext : Base64.decode text = key.bytes)
    (hsome : ∃ engine ∈ crates.engines, engine (Utf8.encode text) = some key.bytes) :
    (crates.engines.findSome? fun decode => keyOf (decode (Utf8.encode text))) = some key := by
  obtain ⟨engine, hengine, htaken⟩ := hsome
  cases hfind : crates.engines.findSome? fun decode => keyOf (decode (Utf8.encode text)) with
  | none =>
      have hnone := List.findSome?_eq_none_iff.mp hfind engine hengine
      rw [htaken, keyOf_some] at hnone
      cases hnone
  | some found =>
      obtain ⟨other, hother, hfound⟩ := List.exists_of_findSome?_eq_some hfind
      have hsame := (decode_of_engine hcrates hother (keyOf_eq_some hfound)).1
      rw [htext] at hsame
      cases found with
      | mk bytes hlength =>
          cases key with
          | mk bytes' hlength' =>
              obtain rfl : bytes' = bytes := hsame
              rfl

-- No engine takes a text that is longer than the padded base64 of a key.
theorem engines_none {crates : Crates} (hcrates : crates.Canonical) {text : Text} (hlong : 88 < text.length) :
    (crates.engines.findSome? fun decode => keyOf (decode (Utf8.encode text))) = none := by
  rw [List.findSome?_eq_none_iff]
  intro engine hengine
  cases hkey : keyOf (engine (Utf8.encode text)) with
  | none => rfl
  | some key =>
      have hle := (decode_of_engine hcrates hengine (keyOf_eq_some hkey)).2
      rw [(length_encode_key key).2] at hle
      omega

theorem trim_blanks {lead text trail : Text} (hblank : ∀ c ∈ lead ++ trail, isWhitespace c = true) :
    trim (lead ++ text ++ trail) = trim text := by
  have hlead : ∀ c ∈ lead, isWhitespace c = true := fun c hc => hblank c (List.mem_append_left _ hc)
  have htrail : ∀ c ∈ trail, isWhitespace c = true := fun c hc => hblank c (List.mem_append_right _ hc)
  rw [trim, Trim.trim_append_right htrail, Trim.trim_append_left hlead]
  rfl

theorem trim_of_no_blank {text : Text} (h : ∀ c ∈ text, isWhitespace c = false) : trim text = text :=
  Trim.trim_of_neat ⟨fun c hc => h c (List.mem_of_mem_head? hc), fun c hc => h c (List.mem_of_getLast? hc)⟩

theorem decode_hex {crates : Crates} (hcrates : crates.Canonical) {key : PrivateKey} {input text : Text}
    (hinput : trim input = trim text) (h : SpellsHex key.bytes text) :
    decodePrivateKeyInput crates input = .ok key := by
  obtain ⟨hlength, hread⟩ := h.read
  rw [trim_of_no_blank fun c hc => (hread c hc).2.2] at hinput
  rw [key.length_bytes] at hlength
  have hsize : (Utf8.encode text).length = RNS_PRIVATE_KEY_LEN * 2 := by
    rw [length_encode_ascii fun c hc => (hread c hc).1, hlength, Nat.mul_comm]
  have hdigits : text.all isAsciiHexdigit = true := List.all_eq_true.mpr fun c hc => (hread c hc).2.1
  have hne : text ≠ [] := by
    rintro rfl
    cases hlength
  simp only [decodePrivateKeyInput, hinput, if_neg hne]
  rw [if_pos ⟨hsize, hdigits⟩, (hcrates.hexDecode _ _).mpr h]
  simp only [bytesToKey, dif_pos key.length_bytes]

-- The characters of the base64 alphabets and their padding.
theorem base64_read {bytes : List UInt8} {c : Char} (hc : c ∈ Base64.encode bytes) :
    (c.toNat < 128 ∧ isWhitespace c = false) ∧
      (Base64.urlChar c).toNat < 128 ∧ isWhitespace (Base64.urlChar c) = false := by
  rw [Base64.encode, List.mem_append] at hc
  cases hc with
  | inl hc =>
      obtain ⟨n, hn, rfl⟩ := Base64.isDigit_of_mem c hc
      interval_cases n <;> decide
  | inr hc =>
      rw [List.eq_of_mem_replicate hc]
      decide

theorem decode_base64 {crates : Crates} (hcrates : crates.Canonical) {key : PrivateKey} {input text : Text}
    (hinput : trim input = trim text) (hread : ∀ c ∈ text, c.toNat < 128 ∧ isWhitespace c = false)
    (hlength : 0 < text.length ∧ text.length < 128) (htext : Base64.decode text = key.bytes)
    (hsome : ∃ engine ∈ crates.engines, engine (Utf8.encode text) = some key.bytes) :
    decodePrivateKeyInput crates input = .ok key := by
  rw [trim_of_no_blank fun c hc => (hread c hc).2] at hinput
  have hsize : (Utf8.encode text).length ≠ RNS_PRIVATE_KEY_LEN * 2 := by
    rw [length_encode_ascii fun c hc => (hread c hc).1]
    exact Nat.ne_of_lt hlength.2
  simp only [decodePrivateKeyInput, hinput, if_neg (List.ne_nil_of_length_pos hlength.1)]
  rw [if_neg fun h => hsize h.1, engines_find hcrates htext hsome]

theorem SpellsBase32.read {bytes : List UInt8} {text : Text} (h : SpellsBase32 bytes text) :
    ∀ c ∈ text, isSeparatorChar c = true ∨ (c.toNat < 128 ∧ isWhitespace c = false) := by
  intro c hc
  by_cases hseparator : isSeparatorChar c = true
  · exact Or.inl hseparator
  · obtain ⟨groups, padding, hgroups, -, htext⟩ := h
    have hmem : c ∈ text.filter (!isSeparatorChar ·) := List.mem_filter.mpr ⟨hc, by simp [hseparator]⟩
    obtain ⟨i, hi, rfl⟩ := List.getElem_of_mem hmem
    have hletter := htext.get hi (htext.length_eq ▸ hi)
    rw [List.get_eq_getElem, List.get_eq_getElem] at hletter
    right
    cases List.mem_append.mp (List.getElem_mem (htext.length_eq ▸ hi)) with
    | inl hd =>
        obtain ⟨g, hg, heq⟩ := List.mem_map.mp hd
        rw [← heq] at hletter
        have hread := base32Char_read (hgroups.small g hg) hletter
        exact ⟨hread.ascii, hread.blank⟩
    | inr hd =>
        rw [List.eq_of_mem_replicate hd] at hletter
        rcases hletter with h | h | h <;> rw [h] <;> decide

theorem SpellsBase32.trim {bytes : List UInt8} {text : Text} (h : SpellsBase32 bytes text) :
    SpellsBase32 bytes (trim text) := by
  have hread := h.read
  obtain ⟨pre, post, hsplit, hpre, hpost⟩ := @Trim.exists_trim _ isWhitespace text
  have hgone : ∀ part : Text, (∀ c ∈ part, c ∈ text) → (∀ c ∈ part, isWhitespace c = true) →
      part.filter (!isSeparatorChar ·) = [] := by
    intro part hpart hblank
    rw [List.filter_eq_nil_iff]
    intro c hc
    cases hread c (hpart c hc) with
    | inl hseparator => simp [hseparator]
    | inr hplain => exact absurd (hblank c hc) (by simp [hplain.2])
  have hfilter : text.filter (!isSeparatorChar ·) = (Reticulum.trim text).filter (!isSeparatorChar ·) := by
    conv_lhs => rw [hsplit]
    rw [List.filter_append, List.filter_append, hgone pre (fun c hc => ?_) hpre, hgone post (fun c hc => ?_) hpost,
      List.nil_append, List.append_nil]
    · rfl
    · rw [hsplit]
      exact List.mem_append_right _ (List.mem_append_right _ hc)
    · rw [hsplit]
      exact List.mem_append_left _ hc
  obtain ⟨groups, padding, hgroups, hpadding, htext⟩ := h
  exact ⟨groups, padding, hgroups, hpadding, hfilter ▸ htext⟩

-- 64 bytes are 103 groups of five bits: no hex text of a key, and too long for its base64.
theorem SpellsBase32.lengths {key : PrivateKey} {text : Text} (h : SpellsBase32 key.bytes text) :
    88 < text.length ∧ ¬((Utf8.encode text).length = RNS_PRIVATE_KEY_LEN * 2 ∧ text.all isAsciiHexdigit = true) := by
  have hread := h.read
  obtain ⟨groups, padding, hgroups, hpadding, htext⟩ := h
  have hcount := hgroups.length
  have hlength := htext.length_eq
  rw [key.length_bytes, RNS_PRIVATE_KEY_LEN] at hcount
  rw [List.length_append, List.length_map, List.length_replicate, hcount] at hlength
  have hle := List.length_filter_le (!isSeparatorChar ·) text
  refine ⟨by omega, fun hboth => ?_⟩
  obtain ⟨hsize, hdigits⟩ := hboth
  have hhex : ∀ c ∈ text, isSeparatorChar c = false := by
    intro c hc
    by_contra hseparator
    have hdigit := List.all_eq_true.mp hdigits c hc
    rw [Bool.not_eq_false] at hseparator
    simp only [isSeparatorChar, Bool.or_eq_true, decide_eq_true_eq] at hseparator
    obtain ((((rfl | rfl) | rfl) | rfl) | rfl) | rfl := hseparator <;> cases hdigit
  have hwhole : text.filter (!isSeparatorChar ·) = text := List.filter_eq_self.mpr fun c hc => by simp [hhex c hc]
  have hascii : ∀ c ∈ text, c.toNat < 128 := by
    intro c hc
    cases hread c hc with
    | inl hseparator => rw [hhex c hc] at hseparator; cases hseparator
    | inr hplain => exact hplain.1
  rw [hwhole] at hlength
  rw [length_encode_ascii hascii, RNS_PRIVATE_KEY_LEN] at hsize
  omega

theorem decode_base32 {crates : Crates} (hcrates : crates.Canonical) {key : PrivateKey} {input text : Text}
    (hinput : trim input = trim text) (h : SpellsBase32 key.bytes text) :
    decodePrivateKeyInput crates input = .ok key := by
  have htrim := h.trim
  obtain ⟨hlong, hhex⟩ := htrim.lengths
  simp only [decodePrivateKeyInput, hinput, if_neg (List.ne_nil_of_length_pos (Nat.zero_lt_of_lt hlong))]
  rw [if_neg hhex, engines_none hcrates hlong]
  simp only
  rw [decodeBase32_spelled htrim, show (Except.ok key.bytes : Except Text _).toOption = some key.bytes from rfl,
    keyOf_some]

def hexValue (c : Char) : Option ℕ := (List.range 16).find? fun n => decide (SameLetter c (hexDigit n))

def hexBytes : Text → Option (List UInt8)
  | [] => some []
  | [_] => none
  | high :: low :: rest =>
      match hexValue high, hexValue low, hexBytes rest with
      | some high, some low, some bytes => some (UInt8.ofNat (high * 16 + low) :: bytes)
      | _, _, _ => none

theorem hexValue_eq_some_iff (c : Char) (n : ℕ) : hexValue c = some n ↔ n < 16 ∧ SameLetter c (hexDigit n) := by
  constructor
  · intro h
    exact ⟨List.mem_range.mp (List.mem_of_find?_eq_some h), by simpa using List.find?_some h⟩
  · rintro ⟨hn, h⟩
    rcases h with rfl | rfl | rfl <;> interval_cases n <;> decide

theorem hexBytes_cons (high low : Char) (rest : Text) (bytes : List UInt8) :
    hexBytes (high :: low :: rest) = some bytes ↔ ∃ n m tail, hexValue high = some n ∧ hexValue low = some m ∧
      hexBytes rest = some tail ∧ bytes = UInt8.ofNat (n * 16 + m) :: tail := by
  rw [hexBytes]
  cases hhigh : hexValue high with
  | none => simp
  | some n =>
      cases hlow : hexValue low with
      | none => simp
      | some m =>
          cases hrest : hexBytes rest with
          | none => simp
          | some tail => simp [eq_comm]

theorem spellsHex_cons (b : UInt8) (bytes : List UInt8) (text : Text) :
    SpellsHex (b :: bytes) text ↔ ∃ high low rest, text = high :: low :: rest ∧
      SameLetter high (hexDigit (b.toNat / 16)) ∧ SameLetter low (hexDigit (b.toNat % 16)) ∧ SpellsHex bytes rest := by
  rw [SpellsHex, hexEncode, List.flatMap_cons, ← hexEncode, List.cons_append, List.singleton_append,
    List.forall₂_cons_right_iff]
  constructor
  · rintro ⟨high, tail, hhigh, htail, rfl⟩
    obtain ⟨low, rest, hlow, hrest, rfl⟩ := List.forall₂_cons_right_iff.mp htail
    exact ⟨high, low, rest, rfl, hhigh, hlow, hrest⟩
  · rintro ⟨high, low, rest, rfl, hhigh, hlow, hrest⟩
    exact ⟨high, low :: rest, hhigh, List.Forall₂.cons hlow hrest, rfl⟩

theorem hexBytes_eq_some_iff (text : Text) (bytes : List UInt8) : hexBytes text = some bytes ↔ SpellsHex bytes text := by
  induction bytes generalizing text with
  | nil =>
      rw [SpellsHex, hexEncode, List.flatMap_nil, List.forall₂_nil_right_iff]
      constructor
      · intro h
        cases text with
        | nil => rfl
        | cons high text =>
            cases text with
            | nil => cases h
            | cons low rest =>
                obtain ⟨n, m, tail, -, -, -, heq⟩ := (hexBytes_cons high low rest []).mp h
                cases heq
      · rintro rfl
        rfl
  | cons b bytes ih =>
      have hbyte : b.toNat < 256 := b.toNat_lt
      rw [spellsHex_cons]
      constructor
      · intro h
        cases text with
        | nil => cases h
        | cons high text =>
            cases text with
            | nil => cases h
            | cons low rest =>
                obtain ⟨n, m, tail, hhigh, hlow, hrest, heq⟩ := (hexBytes_cons high low rest _).mp h
                obtain ⟨rfl, rfl⟩ := List.cons.inj heq
                obtain ⟨hn, hhigh⟩ := (hexValue_eq_some_iff high n).mp hhigh
                obtain ⟨hm, hlow⟩ := (hexValue_eq_some_iff low m).mp hlow
                have hvalue : (UInt8.ofNat (n * 16 + m)).toNat = n * 16 + m := by
                  rw [UInt8.toNat_ofNat', Nat.mod_eq_of_lt (by omega)]
                refine ⟨high, low, rest, rfl, ?_, ?_, (ih rest).mp hrest⟩
                · rwa [hvalue, show (n * 16 + m) / 16 = n by omega]
                · rwa [hvalue, show (n * 16 + m) % 16 = m by omega]
      · rintro ⟨high, low, rest, rfl, hhigh, hlow, hrest⟩
        refine (hexBytes_cons high low rest _).mpr ⟨b.toNat / 16, b.toNat % 16, bytes, ?_, ?_, (ih rest).mpr hrest, ?_⟩
        · exact (hexValue_eq_some_iff _ _).mpr ⟨by omega, hhigh⟩
        · exact (hexValue_eq_some_iff _ _).mpr ⟨by omega, hlow⟩
        · rw [show b.toNat / 16 * 16 + b.toNat % 16 = b.toNat by omega, UInt8.ofNat_toNat]

-- A decoder that reads the text back and compares.
def readBack (write : List UInt8 → Text) (text : List UInt8) : Option (List UInt8) :=
  let bytes := Base64.decode (Utf8.decode text)
  if Utf8.encode (write bytes) = text then some bytes else none

theorem readBack_eq_some_iff {write : List UInt8 → Text} (hwrite : ∀ bytes, Base64.decode (write bytes) = bytes)
    (text bytes : List UInt8) : readBack write text = some bytes ↔ text = Utf8.encode (write bytes) := by
  constructor
  · intro h
    simp only [readBack] at h
    split_ifs at h with hsame
    rw [← Option.some.inj h, hsame]
  · rintro rfl
    simp only [readBack, Utf8.decode_encode, hwrite, if_true]

def exactCrates : Crates where
  hexDecode text :=
    match hexBytes text with
    | some bytes => .ok bytes
    | none => .error "not a hex string".toList
  standard := readBack Base64.encode
  urlSafe := readBack fun bytes => (Base64.encode bytes).map Base64.urlChar
  urlSafeNoPad := readBack fun bytes => (Base64.digits bytes).map Base64.urlChar

theorem exactCrates_canonical : exactCrates.Canonical where
  hexDecode text bytes := by
    rw [← hexBytes_eq_some_iff]
    simp only [exactCrates]
    cases hexBytes text with
    | none => simp
    | some bytes' => simp
  standard := readBack_eq_some_iff Base64.decode_encode
  urlSafe := @readBack_eq_some_iff (fun bytes => (Base64.encode bytes).map Base64.urlChar) fun bytes => by
    rw [Base64.decode_map_urlChar, Base64.decode_encode]
  urlSafeNoPad := @readBack_eq_some_iff (fun bytes => (Base64.digits bytes).map Base64.urlChar) fun bytes => by
    rw [Base64.decode_map_urlChar, Base64.decode_digits]

theorem imports_as_itself (crates : Crates) (hcrates : crates.Canonical) :
    (∀ (key : PrivateKey) (text lead trail : Text), Offered key.bytes text →
      (∀ c ∈ lead ++ trail, isWhitespace c = true) →
        decodePrivateKeyInput crates (lead ++ text ++ trail) = .ok key) ∧
      ∀ bytes : List UInt8, decodeBase32PrivateKey (encodeBase32Padded bytes) = .ok bytes := by
  refine ⟨fun key text lead trail hoffered hblank => ?_, fun bytes =>
    decodeBase32_spelled (encodeBase32Padded_spells bytes)⟩
  have htrim := @trim_blanks lead text trail hblank
  obtain ⟨hdigits, hencode⟩ := length_encode_key key
  cases hoffered with
  | hex h => exact decode_hex hcrates htrim h
  | standard =>
      apply decode_base64 hcrates htrim
      · exact fun c hc => (base64_read hc).1
      · rw [hencode]
        decide
      · exact Base64.decode_encode _
      · exact ⟨_, List.mem_cons_self .., (hcrates.standard _ _).mpr rfl⟩
  | urlSafe =>
      apply decode_base64 hcrates htrim
      · intro c hc
        obtain ⟨d, hd, rfl⟩ := List.mem_map.mp hc
        exact (base64_read hd).2
      · rw [List.length_map, hencode]
        decide
      · rw [Base64.decode_map_urlChar, Base64.decode_encode]
      · exact ⟨_, List.mem_cons_of_mem _ (List.mem_cons_self ..), (hcrates.urlSafe _ _).mpr rfl⟩
  | urlSafeNoPad =>
      apply decode_base64 hcrates htrim
      · intro c hc
        obtain ⟨d, hd, rfl⟩ := List.mem_map.mp hc
        exact (base64_read (List.mem_append_left _ hd)).2
      · rw [List.length_map, hdigits]
        decide
      · rw [Base64.decode_map_urlChar, Base64.decode_digits]
      · exact ⟨_, List.mem_cons_of_mem _ (List.mem_cons_of_mem _ (List.mem_cons_self ..)),
          (hcrates.urlSafeNoPad _ _).mpr rfl⟩
  | base32 h => exact decode_base32 hcrates htrim h

def sampleKey : PrivateKey := ⟨List.replicate RNS_PRIVATE_KEY_LEN 0x5a, List.length_replicate ..⟩

theorem sample_key_imports :
    decodePrivateKeyInput exactCrates ([' '] ++ encodeBase32Padded sampleKey.bytes ++ ['\n']) = .ok sampleKey :=
  (imports_as_itself exactCrates exactCrates_canonical).1 sampleKey _ _ _
    (Offered.base32 (encodeBase32Padded_spells sampleKey.bytes)) (by simp [isWhitespace])

end MeshClient.Reticulum.IdentityImport
