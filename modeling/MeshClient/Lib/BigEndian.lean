import Mathlib

-- Numbers as bytes, the highest byte first.
namespace BigEndian

def value (bytes : List UInt8) : ℕ := bytes.foldl (fun n b => 256 * n + b.toNat) 0

-- The two's complement.
def signed (bytes : List UInt8) : ℤ :=
  if 2 * value bytes < 256 ^ bytes.length then value bytes else value bytes - 256 ^ bytes.length

def bytesOf : ℕ → ℕ → List UInt8
  | 0, _ => []
  | width + 1, n => bytesOf width (n / 256) ++ [UInt8.ofNat n]

theorem value_concat (bytes : List UInt8) (b : UInt8) : value (bytes ++ [b]) = 256 * value bytes + b.toNat := by
  simp [value]

theorem value_lt (bytes : List UInt8) : value bytes < 256 ^ bytes.length := by
  induction bytes using List.reverseRecOn with
  | nil => decide
  | append_singleton bytes b ih =>
      rw [value_concat, List.length_append, List.length_singleton, pow_succ]
      have hb := b.toNat_lt
      omega

theorem bytesOf_value (bytes : List UInt8) : bytesOf bytes.length (value bytes) = bytes := by
  induction bytes using List.reverseRecOn with
  | nil => rfl
  | append_singleton bytes b ih =>
      have hb := b.toNat_lt
      have hdiv : (256 * value bytes + b.toNat) / 256 = value bytes := by omega
      have hlow : UInt8.ofNat (256 * value bytes + b.toNat) = b := by
        rw [← UInt8.toNat_inj, UInt8.toNat_ofNat']
        omega
      rw [value_concat, List.length_append, List.length_singleton, bytesOf, hdiv, ih, hlow]

theorem signed_emod (bytes : List UInt8) : signed bytes % 256 ^ bytes.length = value bytes := by
  have hlt : (value bytes : ℤ) < 256 ^ bytes.length := by exact_mod_cast value_lt bytes
  unfold signed
  split_ifs
  · exact Int.emod_eq_of_lt (by omega) hlt
  · rw [Int.sub_emod_right]
    exact Int.emod_eq_of_lt (by omega) hlt

theorem abs_signed_le (bytes : List UInt8) : |signed bytes| ≤ 256 ^ bytes.length := by
  have hlt : (value bytes : ℤ) < 256 ^ bytes.length := by exact_mod_cast value_lt bytes
  unfold signed
  split_ifs <;> rw [abs_le] <;> omega

end BigEndian
