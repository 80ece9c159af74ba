import Mathlib

-- Maps of bit vectors that are linear over exclusive or: they are known from their values on single bits.
namespace XorLinear

variable {m n k : ℕ}

def Linear (f : BitVec m → BitVec n) : Prop := ∀ x y, f (x ^^^ y) = f x ^^^ f y

theorem Linear.zero {f : BitVec m → BitVec n} (h : Linear f) : f 0#m = 0#n := by
  have hzero := h 0#m 0#m
  rw [BitVec.xor_self, BitVec.xor_self] at hzero
  exact hzero

theorem Linear.comp {g : BitVec n → BitVec k} {f : BitVec m → BitVec n} (hg : Linear g) (hf : Linear f) :
    Linear fun x => g (f x) := by
  intro x y
  simp only [hf x y, hg (f x) (f y)]

theorem Linear.xor {f g : BitVec m → BitVec n} (hf : Linear f) (hg : Linear g) : Linear fun x => f x ^^^ g x := by
  intro x y
  simp only [hf x y, hg x y]
  ac_rfl

theorem linear_id : Linear fun x : BitVec m => x := fun _ _ => rfl

theorem linear_shiftLeft (s : ℕ) : Linear fun x : BitVec m => x <<< s := fun x y => BitVec.shiftLeft_xor_distrib x y s

theorem linear_sshiftRight (s : ℕ) : Linear fun x : BitVec m => x.sshiftRight s :=
  fun x y => BitVec.sshiftRight_xor_distrib x y s

theorem linear_setWidth : Linear fun x : BitVec m => x.setWidth n := fun _ _ => BitVec.setWidth_xor

theorem linear_and (mask : BitVec m) : Linear fun x => x &&& mask := by
  intro x y
  apply BitVec.eq_of_getLsbD_eq
  intro i _
  simp only [BitVec.getLsbD_and, BitVec.getLsbD_xor, Bool.and_xor_distrib_right]

-- Where no bit is set in both, or is exclusive or.
theorem or_eq_xor {x y : BitVec m} (h : x &&& y = 0#m) : x ||| y = x ^^^ y := by
  apply BitVec.eq_of_getLsbD_eq
  intro i _
  have hbit := congrArg (fun z : BitVec m => z.getLsbD i) h
  simp only [BitVec.getLsbD_and, BitVec.getLsbD_zero] at hbit
  simp only [BitVec.getLsbD_or, BitVec.getLsbD_xor]
  cases hx : x.getLsbD i <;> cases hy : y.getLsbD i <;> simp_all

theorem eq_twoPow_xor {x : BitVec m} {i : ℕ} (hi : x.getLsbD i = true) :
    ∃ rest : BitVec m, x = BitVec.twoPow m i ^^^ rest ∧
      (∀ j, rest.getLsbD j = (decide (j ≠ i) && x.getLsbD j)) := by
  refine ⟨BitVec.twoPow m i ^^^ x, ?_, fun j => ?_⟩
  · rw [← BitVec.xor_assoc, BitVec.xor_self, BitVec.zero_xor]
  · have hlt : i < m := BitVec.lt_of_getLsbD hi
    rw [BitVec.getLsbD_xor, BitVec.getLsbD_twoPow, decide_eq_true hlt, Bool.true_and]
    by_cases hij : i = j
    · rw [← hij, hi]
      simp
    · simp [hij, Ne.symm hij]

theorem Linear.eq_of_low {f g : BitVec m → BitVec n} (hf : Linear f) (hg : Linear g)
    (h : ∀ i < m, f (BitVec.twoPow m i) = g (BitVec.twoPow m i)) (low : ℕ) {x : BitVec m}
    (hx : ∀ j, low ≤ j → x.getLsbD j = false) : f x = g x := by
  induction low generalizing x with
  | zero =>
      obtain rfl : x = 0#m := by
        apply BitVec.eq_of_getLsbD_eq
        intro j _
        rw [hx j (Nat.zero_le j), BitVec.getLsbD_zero]
      rw [hf.zero, hg.zero]
  | succ low ih =>
      cases hbit : x.getLsbD low with
      | false =>
          apply ih
          intro j hj
          by_cases hlast : j = low
          · rw [hlast, hbit]
          · exact hx j (by omega)
      | true =>
          obtain ⟨rest, hsplit, hrest⟩ := eq_twoPow_xor hbit
          have hlow : f rest = g rest := by
            apply ih
            intro j hj
            rw [hrest]
            by_cases hlast : j = low
            · simp [hlast]
            · rw [hx j (by omega), Bool.and_false]
          rw [hsplit, hf, hg, h low (BitVec.lt_of_getLsbD hbit), hlow]

theorem Linear.ext {f g : BitVec m → BitVec n} (hf : Linear f) (hg : Linear g)
    (h : ∀ i < m, f (BitVec.twoPow m i) = g (BitVec.twoPow m i)) : f = g := by
  funext x
  exact hf.eq_of_low hg h m fun j hj => BitVec.getLsbD_of_ge x j hj

-- One round of a bitwise CRC, and the CRC of a list of bytes.
def round (poly x : BitVec n) : BitVec n := if x.msb then (x <<< 1) ^^^ poly else x <<< 1

def rounds (poly : BitVec n) : ℕ → BitVec n → BitVec n
  | 0, x => x
  | count + 1, x => rounds poly count (round poly x)

def crcByte (poly x : BitVec n) (b : UInt8) : BitVec n :=
  rounds poly 8 (x ^^^ (b.toBitVec.setWidth n <<< (n - 8)))

def crc (poly init : BitVec n) (bytes : List UInt8) : BitVec n := bytes.foldl (crcByte poly) init

theorem linear_round (poly : BitVec n) : Linear (round poly) := by
  intro x y
  unfold round
  rw [BitVec.msb_xor, BitVec.shiftLeft_xor_distrib]
  cases x.msb <;> cases y.msb
  · rfl
  · simp only [Bool.false_xor, if_true, Bool.false_eq_true, if_false]
    ac_rfl
  · simp only [Bool.xor_false, if_true, Bool.false_eq_true, if_false]
    ac_rfl
  · simp only [Bool.xor_self, Bool.false_eq_true, if_false, if_true]
    rw [show x <<< 1 ^^^ poly ^^^ (y <<< 1 ^^^ poly) = x <<< 1 ^^^ y <<< 1 ^^^ (poly ^^^ poly) by ac_rfl,
      BitVec.xor_self, BitVec.xor_zero]

theorem linear_rounds (poly : BitVec n) (count : ℕ) : Linear (rounds poly count) := by
  induction count with
  | zero => exact linear_id
  | succ count ih => exact ih.comp (linear_round poly)

end XorLinear
