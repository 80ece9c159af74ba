import Mathlib

-- The bit operators of JavaScript: they read their operands as 32-bit integers and give a signed one.
namespace MeshClient.Js

def toInt32 (n : ℤ) : BitVec 32 := BitVec.ofInt 32 n

def bitAnd (a b : ℤ) : ℤ := (toInt32 a &&& toInt32 b).toInt

def bitOr (a b : ℤ) : ℤ := (toInt32 a ||| toInt32 b).toInt

def bitXor (a b : ℤ) : ℤ := (toInt32 a ^^^ toInt32 b).toInt

def bitNot (a : ℤ) : ℤ := (~~~ toInt32 a).toInt

def shiftLeft (a : ℤ) (s : ℕ) : ℤ := (toInt32 a <<< s).toInt

def shiftRight (a : ℤ) (s : ℕ) : ℤ := ((toInt32 a).sshiftRight s).toInt

-- `new Uint8Array(data)`
def uint8Array (data : List ℤ) : List UInt8 := data.map UInt8.ofInt

@[simp] theorem toInt32_toInt (x : BitVec 32) : toInt32 x.toInt = x := BitVec.ofInt_toInt

@[simp] theorem toInt32_bitAnd (a b : ℤ) : toInt32 (bitAnd a b) = toInt32 a &&& toInt32 b := toInt32_toInt _

@[simp] theorem toInt32_bitOr (a b : ℤ) : toInt32 (bitOr a b) = toInt32 a ||| toInt32 b := toInt32_toInt _

@[simp] theorem toInt32_bitXor (a b : ℤ) : toInt32 (bitXor a b) = toInt32 a ^^^ toInt32 b := toInt32_toInt _

@[simp] theorem toInt32_shiftLeft (a : ℤ) (s : ℕ) : toInt32 (shiftLeft a s) = toInt32 a <<< s := toInt32_toInt _

@[simp] theorem toInt32_shiftRight (a : ℤ) (s : ℕ) : toInt32 (shiftRight a s) = (toInt32 a).sshiftRight s :=
  toInt32_toInt _

theorem toNat_toInt32 (n : ℕ) : (toInt32 n).toNat = n % 2 ^ 32 := by
  rw [toInt32, BitVec.toNat_ofInt]
  omega

-- A field of bits below the sign bit.
theorem field_eq (n : ℕ) {s k : ℕ} (hs : s + k < 32) :
    shiftRight (bitAnd n (((2 ^ k - 1) <<< s : ℕ) : ℤ)) s = (n % 2 ^ 32 / 2 ^ s % 2 ^ k : ℕ) := by
  have hmask : (2 ^ k - 1) <<< s < 2 ^ 31 := by
    have hpow : 2 ^ k * 2 ^ s ≤ 2 ^ 31 := by
      rw [← Nat.pow_add]
      exact Nat.pow_le_pow_right (by decide) (by omega)
    have hpos := Nat.two_pow_pos k
    have hpos' := Nat.two_pow_pos s
    rw [Nat.shiftLeft_eq]
    calc (2 ^ k - 1) * 2 ^ s < 2 ^ k * 2 ^ s := Nat.mul_lt_mul_of_pos_right (by omega) hpos'
      _ ≤ 2 ^ 31 := hpow
  have hand : (toInt32 n &&& toInt32 (((2 ^ k - 1) <<< s : ℕ) : ℤ)).toNat =
      n % 2 ^ 32 &&& (2 ^ k - 1) <<< s := by
    rw [BitVec.toNat_and, toNat_toInt32, toNat_toInt32, Nat.mod_eq_of_lt (show (2 ^ k - 1) <<< s < 2 ^ 32 by omega)]
  have hlt : (toInt32 n &&& toInt32 (((2 ^ k - 1) <<< s : ℕ) : ℤ)).toNat < 2 ^ 31 := by
    rw [hand]
    exact Nat.and_lt_two_pow _ hmask
  rw [shiftRight, toInt32_bitAnd, BitVec.toInt_sshiftRight, BitVec.toInt_eq_toNat_of_lt (by omega), hand]
  have hshift : (n % 2 ^ 32 &&& (2 ^ k - 1) <<< s) >>> s = n % 2 ^ 32 / 2 ^ s % 2 ^ k := by
    rw [Nat.shiftRight_and_distrib, Nat.shiftLeft_shiftRight, Nat.and_two_pow_sub_one_eq_mod, Nat.shiftRight_eq_div_pow]
  rw [← hshift]
  rfl

theorem low_eq (n : ℕ) {k : ℕ} (hk : k < 32) : bitAnd n ((2 ^ k - 1 : ℕ) : ℤ) = (n % 2 ^ k : ℕ) := by
  have hfield := field_eq n (show 0 + k < 32 by omega)
  rw [Nat.shiftLeft_zero, Nat.pow_zero, Nat.div_one, Nat.mod_mod_of_dvd _ (Nat.pow_dvd_pow 2 (by omega))] at hfield
  rw [← hfield, shiftRight, toInt32_bitAnd, BitVec.sshiftRight_zero]
  rfl

-- The highest byte keeps the sign.
theorem top_eq (n : ℕ) :
    shiftRight (bitAnd n 0xff000000) 24 =
      if n % 2 ^ 32 / 2 ^ 24 < 128 then ((n % 2 ^ 32 / 2 ^ 24 : ℕ) : ℤ) else (n % 2 ^ 32 / 2 ^ 24 : ℕ) - 256 := by
  have hmask : (toInt32 0xff000000).toNat = (2 ^ 8 - 1) <<< 24 := by decide
  have hand : (toInt32 n &&& toInt32 0xff000000).toNat = n % 2 ^ 32 / 2 ^ 24 * 2 ^ 24 := by
    rw [BitVec.toNat_and, toNat_toInt32, hmask]
    have hlt : n % 2 ^ 32 < 2 ^ 32 := Nat.mod_lt _ (by decide)
    generalize n % 2 ^ 32 = m at hlt ⊢
    have hhigh : (m &&& (2 ^ 8 - 1) <<< 24) >>> 24 = m / 2 ^ 24 := by
      rw [Nat.shiftRight_and_distrib, Nat.shiftLeft_shiftRight, Nat.and_two_pow_sub_one_eq_mod,
        Nat.shiftRight_eq_div_pow, Nat.mod_eq_of_lt (by omega)]
    have hlow : (m &&& (2 ^ 8 - 1) <<< 24) % 2 ^ 24 = 0 := by
      rw [Nat.and_mod_two_pow, Nat.shiftLeft_eq, Nat.mul_mod_left, Nat.and_zero]
    rw [Nat.shiftRight_eq_div_pow] at hhigh
    omega
  have htop : n % 2 ^ 32 / 2 ^ 24 < 256 := by omega
  rw [shiftRight, toInt32_bitAnd, BitVec.toInt_sshiftRight, Int.shiftRight_eq_div_pow, BitVec.toInt_eq_toNat_cond, hand]
  generalize n % 2 ^ 32 / 2 ^ 24 = v at htop ⊢
  split_ifs with h₁ h₂ h₂ <;> push_cast <;> omega

end MeshClient.Js
