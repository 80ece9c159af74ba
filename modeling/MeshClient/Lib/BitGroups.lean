import Mathlib

-- A stream of bits cut into groups of one width, and a buffer that cuts it into groups of another.
namespace BitGroups

-- The low `width` bits of `n`, the highest first.
def bits : ℕ → ℕ → List Bool
  | 0, _ => []
  | width + 1, n => n.testBit width :: bits width n

def stream (width : ℕ) (groups : List ℕ) : List Bool := groups.flatMap (bits width)

@[simp] theorem length_bits (width n : ℕ) : (bits width n).length = width := by
  induction width with
  | zero => rfl
  | succ width ih => simp [bits, ih]

theorem bits_congr {width m n : ℕ} (h : ∀ i < width, m.testBit i = n.testBit i) : bits width m = bits width n := by
  induction width with
  | zero => rfl
  | succ width ih =>
      rw [bits, bits, h width (Nat.lt_succ_self width), ih fun i hi => h i (Nat.lt_succ_of_lt hi)]

theorem testBit_of_bits {width m n : ℕ} (h : bits width m = bits width n) :
    ∀ i < width, m.testBit i = n.testBit i := by
  induction width with
  | zero => intro i hi; omega
  | succ width ih =>
      intro i hi
      simp only [bits, List.cons.injEq] at h
      by_cases hlast : i = width
      · rw [hlast]
        exact h.1
      · exact ih h.2 i (by omega)

theorem bits_inj {width m n : ℕ} (hm : m < 2 ^ width) (hn : n < 2 ^ width) (h : bits width m = bits width n) :
    m = n := by
  apply Nat.eq_of_testBit_eq
  intro i
  by_cases hi : i < width
  · exact testBit_of_bits h i hi
  · have hle : 2 ^ width ≤ 2 ^ i := Nat.pow_le_pow_right (by omega) (by omega)
    rw [Nat.testBit_lt_two_pow (by omega), Nat.testBit_lt_two_pow (by omega)]

theorem bits_add (high low n : ℕ) : bits (high + low) n = bits high (n >>> low) ++ bits low n := by
  induction high with
  | zero => rw [Nat.zero_add]; rfl
  | succ high ih =>
      rw [show high + 1 + low = (high + low) + 1 by omega, bits, ih, bits, Nat.testBit_shiftRight, List.cons_append,
        Nat.add_comm low high]

theorem bits_mask (width n : ℕ) : bits width (n &&& (2 ^ width - 1)) = bits width n := by
  apply bits_congr
  intro i hi
  rw [Nat.testBit_and, Nat.testBit_two_pow_sub_one, decide_eq_true hi, Bool.and_true]

-- Shifting up appends zeros.
theorem bits_shiftLeft (high low n : ℕ) :
    bits (high + low) (n <<< low) = bits high n ++ List.replicate low false := by
  have hlow : bits low (n <<< low) = bits low 0 := by
    apply bits_congr
    intro i hi
    rw [Nat.testBit_shiftLeft, decide_eq_false (by omega), Bool.false_and, Nat.zero_testBit]
  have hzeros : bits low 0 = List.replicate low false := by
    clear hlow
    induction low with
    | zero => rfl
    | succ low ih => rw [bits, ih, Nat.zero_testBit, List.replicate_succ]
  rw [bits_add, Nat.shiftLeft_shiftRight, hlow, hzeros]

@[simp] theorem stream_nil (width : ℕ) : stream width [] = [] := rfl

theorem stream_cons (width n : ℕ) (groups : List ℕ) :
    stream width (n :: groups) = bits width n ++ stream width groups := by
  simp only [stream, List.flatMap_cons]

theorem stream_append (width : ℕ) (groups groups' : List ℕ) :
    stream width (groups ++ groups') = stream width groups ++ stream width groups' := by
  simp only [stream, List.flatMap_append]

theorem length_stream (width : ℕ) (groups : List ℕ) : (stream width groups).length = width * groups.length := by
  induction groups with
  | nil => rfl
  | cons n groups ih =>
      rw [stream_cons, List.length_append, length_bits, ih, List.length_cons, Nat.mul_succ, Nat.add_comm]

theorem stream_inj {width : ℕ} {groups groups' : List ℕ} (hlen : groups.length = groups'.length)
    (hsmall : ∀ n ∈ groups, n < 2 ^ width) (hsmall' : ∀ n ∈ groups', n < 2 ^ width)
    (h : stream width groups = stream width groups') : groups = groups' := by
  induction groups generalizing groups' with
  | nil => exact (List.eq_nil_of_length_eq_zero hlen.symm).symm
  | cons m groups ih =>
      cases groups' with
      | nil => cases hlen
      | cons n groups' =>
          rw [stream_cons, stream_cons] at h
          obtain ⟨hhead, htail⟩ := List.append_inj h (by rw [length_bits, length_bits])
          rw [bits_inj (hsmall m (List.mem_cons_self ..)) (hsmall' n (List.mem_cons_self ..)) hhead,
            ih (by simpa using hlen) (fun k hk => hsmall k (List.mem_cons_of_mem _ hk))
              (fun k hk => hsmall' k (List.mem_cons_of_mem _ hk)) htail]

-- The groups that are out, and the bits that wait for more.
structure Buffer where
  out : List ℕ := []
  buffer : ℕ := 0
  bits : ℕ := 0
deriving DecidableEq, Repr

namespace Buffer

def push (width : ℕ) (b : Buffer) (value : ℕ) : Buffer :=
  { b with buffer := (b.buffer <<< width) ||| value, bits := b.bits + width }

def keep (bits buffer : ℕ) : ℕ := if bits > 0 then buffer &&& (2 ^ bits - 1) else 0

-- `while bits >= width`
def drain (width : ℕ) [NeZero width] (b : Buffer) : Buffer :=
  if width ≤ b.bits then
    drain width
      { out := b.out ++ [(b.buffer >>> (b.bits - width)) &&& (2 ^ width - 1)]
        buffer := keep (b.bits - width) b.buffer
        bits := b.bits - width }
  else b
termination_by b.bits
decreasing_by
  have := NeZero.pos width
  omega

def content (width : ℕ) (b : Buffer) : List Bool := stream width b.out ++ BitGroups.bits b.bits b.buffer

-- The buffer holds no bit above its count, and the groups fit their width.
structure Kept (width : ℕ) (b : Buffer) : Prop where
  buffer : b.buffer < 2 ^ b.bits
  out : ∀ n ∈ b.out, n < 2 ^ width

theorem Kept.start (width : ℕ) : Kept width {} := ⟨by decide, by simp⟩

theorem content_push {width inWidth value : ℕ} (b : Buffer) (hvalue : value < 2 ^ inWidth) :
    (b.push inWidth value).content width = b.content width ++ BitGroups.bits inWidth value := by
  have hhigh : ((b.buffer <<< inWidth) ||| value) >>> inWidth = b.buffer := by
    rw [Nat.shiftRight_or_distrib, Nat.shiftLeft_shiftRight, Nat.shiftRight_eq_div_pow, Nat.div_eq_of_lt hvalue,
      Nat.or_zero]
  have hlow : BitGroups.bits inWidth ((b.buffer <<< inWidth) ||| value) = BitGroups.bits inWidth value := by
    apply bits_congr
    intro i hi
    rw [Nat.testBit_or, Nat.testBit_shiftLeft, decide_eq_false (by omega), Bool.false_and, Bool.false_or]
  rw [content, content, push, bits_add, hhigh, hlow, List.append_assoc]

theorem Kept.push {width inWidth value : ℕ} {b : Buffer} (h : Kept width b) (hvalue : value < 2 ^ inWidth) :
    Kept width (b.push inWidth value) := by
  refine ⟨?_, h.out⟩
  have hshift : b.buffer <<< inWidth < 2 ^ (b.bits + inWidth) := by
    rw [Nat.shiftLeft_eq, Nat.pow_add]
    exact Nat.mul_lt_mul_of_pos_right h.buffer (Nat.two_pow_pos inWidth)
  have hle : 2 ^ inWidth ≤ 2 ^ (b.bits + inWidth) := Nat.pow_le_pow_right (by omega) (by omega)
  exact Nat.or_lt_two_pow hshift (Nat.lt_of_lt_of_le hvalue hle)

theorem bits_keep (bits buffer : ℕ) : BitGroups.bits bits (keep bits buffer) = BitGroups.bits bits buffer := by
  cases bits with
  | zero => rfl
  | succ bits => rw [keep, if_pos (Nat.succ_pos bits), bits_mask]

theorem keep_lt (bits buffer : ℕ) : keep bits buffer < 2 ^ bits := by
  have hpos := Nat.two_pow_pos bits
  unfold keep
  split_ifs with hmore
  · exact Nat.and_lt_two_pow _ (by omega)
  · exact hpos

theorem content_drain (width : ℕ) [NeZero width] (b : Buffer) : (b.drain width).content width = b.content width := by
  induction b using drain.induct width with
  | case1 b hbits ih =>
      rw [drain, if_pos hbits, ih, content, content, stream_append, List.append_assoc, stream_cons, stream_nil,
        List.append_nil, bits_mask]
      have hsplit := bits_add width (b.bits - width) b.buffer
      rw [Nat.add_sub_cancel' hbits] at hsplit
      rw [bits_keep, ← hsplit]
  | case2 b hbits => rw [drain, if_neg hbits]

theorem bits_drain_lt (width : ℕ) [NeZero width] (b : Buffer) : (b.drain width).bits < width := by
  induction b using drain.induct width with
  | case1 b hbits ih =>
      rw [drain, if_pos hbits]
      exact ih
  | case2 b hbits =>
      rw [drain, if_neg hbits]
      omega

theorem Kept.drain {width : ℕ} [NeZero width] {b : Buffer} (h : Kept width b) : Kept width (b.drain width) := by
  induction b using drain.induct width with
  | case1 b hbits ih =>
      rw [Buffer.drain, if_pos hbits]
      apply ih
      constructor
      · exact keep_lt _ _
      · intro n hn
        rw [List.mem_append, List.mem_singleton] at hn
        cases hn with
        | inl hn => exact h.out n hn
        | inr hn =>
            rw [hn]
            exact Nat.and_lt_two_pow _ (by have := Nat.two_pow_pos width; omega)
  | case2 b hbits => rw [Buffer.drain, if_neg hbits]; exact h

-- Pushing one group after the other, and draining after each.
def regroup (inWidth outWidth : ℕ) [NeZero outWidth] (b : Buffer) (groups : List ℕ) : Buffer :=
  groups.foldl (fun b value => (b.push inWidth value).drain outWidth) b

theorem content_regroup {inWidth outWidth : ℕ} [NeZero outWidth] (b : Buffer) {groups : List ℕ}
    (hsmall : ∀ n ∈ groups, n < 2 ^ inWidth) :
    (b.regroup inWidth outWidth groups).content outWidth = b.content outWidth ++ stream inWidth groups := by
  induction groups generalizing b with
  | nil => rw [stream_nil, List.append_nil]; rfl
  | cons n groups ih =>
      have hhead := hsmall n (List.mem_cons_self ..)
      have hstep := ih ((b.push inWidth n).drain outWidth) fun k hk => hsmall k (List.mem_cons_of_mem _ hk)
      rw [content_drain, content_push b hhead, List.append_assoc, ← stream_cons] at hstep
      exact hstep

theorem bits_regroup_lt {inWidth outWidth : ℕ} [NeZero outWidth] {b : Buffer} (h : b.bits < outWidth)
    (groups : List ℕ) : (b.regroup inWidth outWidth groups).bits < outWidth := by
  induction groups generalizing b with
  | nil => exact h
  | cons n groups ih => exact ih (bits_drain_lt outWidth _)

theorem Kept.regroup {inWidth outWidth : ℕ} [NeZero outWidth] {b : Buffer} (h : Kept outWidth b) {groups : List ℕ}
    (hsmall : ∀ n ∈ groups, n < 2 ^ inWidth) : Kept outWidth (b.regroup inWidth outWidth groups) := by
  induction groups generalizing b with
  | nil => exact h
  | cons n groups ih =>
      exact ih (h.push (hsmall n (List.mem_cons_self ..))).drain fun k hk => hsmall k (List.mem_cons_of_mem _ hk)

-- Between two groups the buffer has room for one group more: it holds less than `outWidth + inWidth` bits.
theorem buffer_push_lt {inWidth outWidth value : ℕ} {b : Buffer} (h : Kept outWidth b) (hbits : b.bits < outWidth)
    (hvalue : value < 2 ^ inWidth) : (b.push inWidth value).buffer < 2 ^ (outWidth + inWidth) := by
  have hle : 2 ^ (b.bits + inWidth) ≤ 2 ^ (outWidth + inWidth) := Nat.pow_le_pow_right (by omega) (by omega)
  exact Nat.lt_of_lt_of_le (h.push hvalue).buffer hle

end Buffer

end BitGroups
