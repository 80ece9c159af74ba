import Mathlib

-- Base64 with padding, and a reader that also takes the URL alphabet and text without padding.
namespace Base64

def digit (n : Nat) : Char :=
  if n < 26 then Char.ofNat (n + 65)
  else if n < 52 then Char.ofNat (n - 26 + 97)
  else if n < 62 then Char.ofNat (n - 52 + 48)
  else if n = 62 then '+'
  else '/'

-- The digits without the padding.
def digits : List UInt8 → List Char
  | [] => []
  | [a] => [digit (a.toNat / 4), digit (a.toNat % 4 * 16)]
  | [a, b] => [digit (a.toNat / 4), digit (a.toNat % 4 * 16 + b.toNat / 16), digit (b.toNat % 16 * 4)]
  | a :: b :: c :: rest =>
      digit (a.toNat / 4) :: digit (a.toNat % 4 * 16 + b.toNat / 16) ::
        digit (b.toNat % 16 * 4 + c.toNat / 64) :: digit (c.toNat % 64) :: digits rest

def padding (length : Nat) : List Char := List.replicate ((4 - length % 4) % 4) '='

def encode (bytes : List UInt8) : List Char := digits bytes ++ padding (digits bytes).length

def value (c : Char) : Option Nat :=
  let n := c.toNat
  if 65 ≤ n ∧ n ≤ 90 then some (n - 65)
  else if 97 ≤ n ∧ n ≤ 122 then some (n - 97 + 26)
  else if 48 ≤ n ∧ n ≤ 57 then some (n - 48 + 52)
  else if c = '+' ∨ c = '-' then some 62
  else if c = '/' ∨ c = '_' then some 63
  else none

-- Four digits give three bytes; a rest of three or two gives what it holds.
def bytesOf : List Nat → List UInt8
  | a :: b :: c :: d :: rest =>
      UInt8.ofNat (a * 4 + b / 16) :: UInt8.ofNat (b % 16 * 16 + c / 4) :: UInt8.ofNat (c % 4 * 64 + d) ::
        bytesOf rest
  | [a, b, c] => [UInt8.ofNat (a * 4 + b / 16), UInt8.ofNat (b % 16 * 16 + c / 4)]
  | [a, b] => [UInt8.ofNat (a * 4 + b / 16)]
  | _ => []

-- Reading ends at the padding; what is no digit is passed over.
def decode (cs : List Char) : List UInt8 := bytesOf ((cs.takeWhile (· ≠ '=')).filterMap value)

def IsDigit (c : Char) : Prop := ∃ n < 64, c = digit n

theorem toNat_digit {n : Nat} (h : n < 64) :
    (digit n).toNat = if n < 26 then n + 65 else if n < 52 then n + 71 else if n < 62 then n - 4
      else if n = 62 then 43 else 47 := by
  have hsmall : ∀ m, m < 128 → (Char.ofNat m).toNat = m := by
    intro m hm
    rw [Char.toNat_ofNat, if_pos (Or.inl (by omega))]
  unfold digit
  split_ifs
  · exact hsmall _ (by omega)
  · rw [hsmall _ (by omega)]
    omega
  · rw [hsmall _ (by omega)]
    omega
  · rfl
  · rfl

theorem value_digit {n : Nat} (h : n < 64) : value (digit n) = some n := by
  have hnat := toNat_digit h
  unfold value
  simp only [hnat]
  by_cases h₁ : n < 26
  · rw [if_pos h₁, if_pos (by omega)]
    congr 1
  by_cases h₂ : n < 52
  · rw [if_neg h₁, if_pos h₂, if_neg (by omega), if_pos (by omega)]
    congr 1
    omega
  by_cases h₃ : n < 62
  · rw [if_neg h₁, if_neg h₂, if_pos h₃, if_neg (by omega), if_neg (by omega), if_pos (by omega)]
    congr 1
    omega
  · obtain rfl | rfl : n = 62 ∨ n = 63 := by omega
    · decide
    · decide

theorem isDigit_alphanum {c : Char} (h : IsDigit c) : c.isAlphanum = true ∨ c = '+' ∨ c = '/' := by
  obtain ⟨n, hn, rfl⟩ := h
  interval_cases n <;> decide

theorem isDigit_of_mem {bytes : List UInt8} : ∀ c ∈ digits bytes, IsDigit c := by
  have hdigit : ∀ n, n < 64 → IsDigit (digit n) := fun n hn => ⟨n, hn, rfl⟩
  have hbyte : ∀ b : UInt8, b.toNat < 256 := fun b => b.toNat_lt
  induction bytes using digits.induct with
  | case1 => simp [digits]
  | case2 a =>
      have ha := hbyte a
      simp only [digits, List.mem_cons, List.not_mem_nil, or_false, forall_eq_or_imp, forall_eq]
      exact ⟨hdigit _ (by omega), hdigit _ (by omega)⟩
  | case3 a b =>
      have ha := hbyte a
      have hb := hbyte b
      simp only [digits, List.mem_cons, List.not_mem_nil, or_false, forall_eq_or_imp, forall_eq]
      exact ⟨hdigit _ (by omega), hdigit _ (by omega), hdigit _ (by omega)⟩
  | case4 a b c rest ih =>
      have ha := hbyte a
      have hb := hbyte b
      have hc := hbyte c
      simp only [digits, List.mem_cons, forall_eq_or_imp]
      exact ⟨hdigit _ (by omega), hdigit _ (by omega), hdigit _ (by omega), hdigit _ (by omega), ih⟩

theorem digits_length (bytes : List UInt8) : (digits bytes).length = (4 * bytes.length + 2) / 3 := by
  induction bytes using digits.induct with
  | case1 => rfl
  | case2 a => simp [digits]
  | case3 a b => simp [digits]
  | case4 a b c rest ih =>
      simp only [digits, List.length_cons, ih]
      omega

theorem bytesOf_digits (bytes : List UInt8) : bytesOf ((digits bytes).filterMap value) = bytes := by
  have hbyte : ∀ b : UInt8, b.toNat < 256 := fun b => b.toNat_lt
  have hofNat : ∀ (b : UInt8) (n : Nat), n = b.toNat → UInt8.ofNat n = b := by
    rintro b n rfl
    exact UInt8.ofNat_toNat
  induction bytes using digits.induct with
  | case1 => rfl
  | case2 a =>
      have ha := hbyte a
      simp only [digits, List.filterMap_cons, List.filterMap_nil, value_digit (show a.toNat / 4 < 64 by omega),
        value_digit (show a.toNat % 4 * 16 < 64 by omega), bytesOf]
      rw [hofNat a _ (by omega)]
  | case3 a b =>
      have ha := hbyte a
      have hb := hbyte b
      simp only [digits, List.filterMap_cons, List.filterMap_nil, value_digit (show a.toNat / 4 < 64 by omega),
        value_digit (show a.toNat % 4 * 16 + b.toNat / 16 < 64 by omega),
        value_digit (show b.toNat % 16 * 4 < 64 by omega), bytesOf]
      rw [hofNat a _ (by omega), hofNat b _ (by omega)]
  | case4 a b c rest ih =>
      have ha := hbyte a
      have hb := hbyte b
      have hc := hbyte c
      simp only [digits, List.filterMap_cons, value_digit (show a.toNat / 4 < 64 by omega),
        value_digit (show a.toNat % 4 * 16 + b.toNat / 16 < 64 by omega),
        value_digit (show b.toNat % 16 * 4 + c.toNat / 64 < 64 by omega),
        value_digit (show c.toNat % 64 < 64 by omega), bytesOf, ih]
      rw [hofNat a _ (by omega), hofNat b _ (by omega), hofNat c _ (by omega)]

theorem ne_pad_of_isDigit {c : Char} (h : IsDigit c) : c ≠ '=' := by
  rcases isDigit_alphanum h with h | rfl | rfl
  · rintro rfl
    exact absurd h (by decide)
  · decide
  · decide

theorem digits_ne_pad (bytes : List UInt8) : ∀ c ∈ digits bytes, decide (c ≠ '=') = true := fun c hc =>
  decide_eq_true (ne_pad_of_isDigit (isDigit_of_mem c hc))

theorem decode_encode (bytes : List UInt8) : decode (encode bytes) = bytes := by
  have htake : (encode bytes).takeWhile (· ≠ '=') = digits bytes := by
    rw [encode, List.takeWhile_append_of_pos (digits_ne_pad bytes)]
    have hpad : (padding (digits bytes).length).takeWhile (· ≠ '=') = [] := by
      unfold padding
      cases (4 - (digits bytes).length % 4) % 4 with
      | zero => rfl
      | succ n => rfl
    rw [hpad, List.append_nil]
  rw [decode, htake, bytesOf_digits]

theorem decode_digits (bytes : List UInt8) : decode (digits bytes) = bytes := by
  rw [decode, List.takeWhile_eq_self_iff.mpr (digits_ne_pad bytes), bytesOf_digits]

-- The URL alphabet's character in place of the standard one.
def urlChar (c : Char) : Char := if c = '+' then '-' else if c = '/' then '_' else c

theorem urlChar_eq_pad_iff (c : Char) : urlChar c = '=' ↔ c = '=' := by
  unfold urlChar
  split_ifs with hplus hslash
  · rw [hplus]
    decide
  · rw [hslash]
    decide
  · rfl

theorem value_urlChar (c : Char) : value (urlChar c) = value c := by
  unfold urlChar
  split_ifs with hplus hslash
  · rw [hplus]
    decide
  · rw [hslash]
    decide
  · rfl

theorem decode_map_urlChar (cs : List Char) : decode (cs.map urlChar) = decode cs := by
  have htake : (cs.map urlChar).takeWhile (· ≠ '=') = (cs.takeWhile (· ≠ '=')).map urlChar := by
    rw [List.takeWhile_map]
    congr 2
    funext c
    simp only [Function.comp, ne_eq, urlChar_eq_pad_iff]
  rw [decode, decode, htake, List.filterMap_map]
  congr 2
  funext c
  exact value_urlChar c

theorem length_encode (bytes : List UInt8) :
    (encode bytes).length = (digits bytes).length + (4 - (digits bytes).length % 4) % 4 := by
  rw [encode, List.length_append, padding, List.length_replicate]

theorem digits_eq_nil_iff (bytes : List UInt8) : digits bytes = [] ↔ bytes = [] := by
  refine ⟨fun h => ?_, fun h => by rw [h, digits]⟩
  have := bytesOf_digits bytes
  rw [h] at this
  exact this.symm

end Base64
