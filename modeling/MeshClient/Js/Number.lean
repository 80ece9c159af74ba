import MeshClient.Js.Json

namespace MeshClient.Js

-- `Number(digits)`, where it is finite: below 2 to the 1024th.
def finiteNumber (digits : List Char) : Option Nat :=
  let n := roundToDouble (digitsValue digits)
  if n.log2 < 1024 then some n else none

-- The nearest number that reads back as `x` among those with the fewest digits before their zeros.
def shortestFrom (x : Nat) : Nat → Nat
  | 0 => x
  | zeros + 1 =>
      let below := x / 10 ^ (zeros + 1) * 10 ^ (zeros + 1)
      let above := below + 10 ^ (zeros + 1)
      if roundToDouble below = x ∧ (x - below ≤ above - x ∨ roundToDouble above ≠ x) then below
      else if roundToDouble above = x then above
      else shortestFrom x zeros

def shortestText (x : Nat) : Nat := shortestFrom x ((Nat.toDigits 10 x).length - 1)

-- What `${x}` writes for a double that is a natural number.
def numberText (x : Nat) : List Char :=
  let digits := Nat.toDigits 10 (shortestText x)
  if digits.length ≤ 21 then digits
  else
    let significant := (digits.reverse.dropWhile (· = '0')).reverse
    significant.take 1 ++ (if significant.length = 1 then [] else '.' :: significant.drop 1) ++
      ['e', '+'] ++ Nat.toDigits 10 (digits.length - 1)

theorem digitsValue_toDigits (n : Nat) : digitsValue (Nat.toDigits 10 n) = n := by
  rw [digitsValue, ← Nat.ofDigitChars_eq_foldl, Nat.ofDigitChars_ten_toDigits]

theorem isDigit_of_mem_toDigits {n : Nat} {c : Char} (h : c ∈ Nat.toDigits 10 n) : isDigit c = true := by
  have hdigit := Nat.isDigit_of_mem_toDigits (by omega) (by omega) h
  simp only [Char.isDigit, Bool.and_eq_true, decide_eq_true_eq, UInt32.le_iff_toNat_le] at hdigit
  simp only [isDigit, Bool.and_eq_true, decide_eq_true_eq]
  exact hdigit

theorem multiple_le {x low zeros : Nat} (hz : zeros ≤ low) (hlow : 10 ^ low ≤ x) :
    10 ^ low ≤ x / 10 ^ zeros * 10 ^ zeros := by
  have hdvd : (10 : Nat) ^ zeros ∣ 10 ^ low := Nat.pow_dvd_pow 10 hz
  calc
    10 ^ low = 10 ^ low / 10 ^ zeros * 10 ^ zeros := (Nat.div_mul_cancel hdvd).symm
    _ ≤ x / 10 ^ zeros * 10 ^ zeros := Nat.mul_le_mul_right _ (Nat.div_le_div_right hlow)

theorem multiple_above_le {x high zeros : Nat} (hz : zeros ≤ high) (hhigh : x < 10 ^ high) :
    x / 10 ^ zeros * 10 ^ zeros + 10 ^ zeros ≤ 10 ^ high := by
  have hdvd : (10 : Nat) ^ zeros ∣ 10 ^ high := Nat.pow_dvd_pow 10 hz
  have hlt : x / 10 ^ zeros < 10 ^ high / 10 ^ zeros := Nat.div_lt_div_of_lt_of_dvd hdvd hhigh
  calc
    x / 10 ^ zeros * 10 ^ zeros + 10 ^ zeros = (x / 10 ^ zeros + 1) * 10 ^ zeros := by ring
    _ ≤ 10 ^ high / 10 ^ zeros * 10 ^ zeros := Nat.mul_le_mul_right _ hlt
    _ = 10 ^ high := Nat.div_mul_cancel hdvd

theorem shortestFrom_cases (x zeros : Nat) :
    shortestFrom x (zeros + 1) = x / 10 ^ (zeros + 1) * 10 ^ (zeros + 1) ∧
        roundToDouble (shortestFrom x (zeros + 1)) = x ∨
      shortestFrom x (zeros + 1) = x / 10 ^ (zeros + 1) * 10 ^ (zeros + 1) + 10 ^ (zeros + 1) ∧
        roundToDouble (shortestFrom x (zeros + 1)) = x ∨
      shortestFrom x (zeros + 1) = shortestFrom x zeros := by
  rw [shortestFrom]
  split_ifs with hbelow habove
  · exact .inl ⟨rfl, hbelow.1⟩
  · exact .inr (.inl ⟨rfl, habove⟩)
  · exact .inr (.inr rfl)

-- The text reads back as the number and has as many digits.
theorem shortestFrom_spec {x low high zeros : Nat} (hx : roundToDouble x = x)
    (hround : roundToDouble (10 ^ high) = 10 ^ high) (hlow : 10 ^ low ≤ x) (hhigh : x < 10 ^ high)
    (hz : zeros ≤ low) (hz' : zeros ≤ high) :
    roundToDouble (shortestFrom x zeros) = x ∧ 10 ^ low ≤ shortestFrom x zeros ∧
      shortestFrom x zeros < 10 ^ high := by
  induction zeros with
  | zero => exact ⟨hx, hlow, hhigh⟩
  | succ zeros ih =>
      have hbelow := multiple_le hz hlow
      have hle := Nat.div_mul_le_self x (10 ^ (zeros + 1))
      have hmax := multiple_above_le hz' hhigh
      obtain ⟨heq, hread⟩ | ⟨heq, hread⟩ | heq := shortestFrom_cases x zeros
      · exact ⟨hread, by omega, by omega⟩
      · refine ⟨hread, heq ▸ hbelow.trans (Nat.le_add_right _ _), lt_of_le_of_ne (heq ▸ hmax) fun htop => ?_⟩
        rw [htop, hround] at hread
        omega
      · rw [heq]
        exact ih (by omega) (by omega)

theorem lt_length_toDigits {n k : Nat} (h : 10 ^ k ≤ n) : k < (Nat.toDigits 10 n).length := by
  by_cases hk : k = 0
  · rw [hk]
    exact Nat.length_toDigits_pos
  · by_contra hle
    have hlt := (Nat.length_toDigits_le_iff (by omega) (by omega)).mp (Nat.le_of_not_lt hle)
    omega

theorem pow_le_of_lt_length {n k : Nat} (hn : 0 < n) (h : k < (Nat.toDigits 10 n).length) : 10 ^ k ≤ n := by
  by_cases hk : k = 0
  · rw [hk]
    exact hn
  · by_contra hlt
    have hle := (Nat.length_toDigits_le_iff (by omega) (by omega)).mpr (Nat.lt_of_not_le hlt)
    omega

-- A number below ten to the 21st is written with just its digits, and not with fewer than it has.
theorem numberText_spec {x low : Nat} (hx : roundToDouble x = x) (hlow : 10 ^ low ≤ x) (hhigh : x < 10 ^ 21) :
    (∀ c ∈ numberText x, isDigit c = true) ∧ low < (numberText x).length ∧
      finiteNumber (numberText x) = some x := by
  have hlen : (Nat.toDigits 10 x).length ≤ 21 :=
    (Nat.length_toDigits_le_iff (by omega) (by omega)).mpr hhigh
  have hpos : 0 < x := (Nat.pow_pos (by omega)).trans_le hlow
  have hround : roundToDouble (10 ^ 21) = 10 ^ 21 := by decide
  have hdigits := lt_length_toDigits hlow
  have hspec : roundToDouble (shortestText x) = x ∧ 10 ^ ((Nat.toDigits 10 x).length - 1) ≤ shortestText x ∧
      shortestText x < 10 ^ 21 :=
    shortestFrom_spec hx hround (pow_le_of_lt_length hpos (by omega)) hhigh (Nat.le_refl _) (by omega)
  have hlonger := lt_length_toDigits hspec.2.1
  have hshort : (Nat.toDigits 10 (shortestText x)).length ≤ 21 :=
    (Nat.length_toDigits_le_iff (by omega) (by omega)).mpr hspec.2.2
  have htext : numberText x = Nat.toDigits 10 (shortestText x) := if_pos hshort
  rw [htext]
  refine ⟨fun c hc => isDigit_of_mem_toDigits hc, by omega, ?_⟩
  rw [finiteNumber, digitsValue_toDigits, hspec.1]
  apply if_pos
  have hlog : x.log2 < 70 := (Nat.log2_lt hpos.ne').mpr (hhigh.trans (by norm_num))
  omega

end MeshClient.Js
