import MeshClient.Lib.Utf8

-- The decoder as it reads a stream in parts: what a part leaves unfinished waits for the next.
namespace Utf8

def feed (s : State) : List UInt8 → List Char × State
  | [] => ([], s)
  | b :: bs => ((step s b.toNat).1 ++ (feed (step s b.toNat).2 bs).1, (feed (step s b.toNat).2 bs).2)

-- `new TextDecoder()`; `begun` tells that a first character, byte order mark or not, was seen.
structure Decoder where
  state : State := .start
  begun : Bool := false
deriving DecidableEq

-- `decode(bytes, { stream: true })`
def Decoder.decode (d : Decoder) (bytes : List UInt8) : List Char × Decoder :=
  let (cs, state) := feed d.state bytes
  if d.begun then (cs, { d with state })
  else (stripBom cs, { state, begun := decide (cs ≠ []) })

def Decoder.decodeAll (d : Decoder) : List (List UInt8) → List Char
  | [] => []
  | part :: parts => (d.decode part).1 ++ ((d.decode part).2).decodeAll parts

theorem feed_append (s : State) (bs bs' : List UInt8) :
    feed s (bs ++ bs') = ((feed s bs).1 ++ (feed (feed s bs).2 bs').1, (feed (feed s bs).2 bs').2) := by
  induction bs generalizing s with
  | nil => rfl
  | cons b bs ih => simp only [List.cons_append, feed, ih, List.append_assoc]

theorem decodeFrom_eq_feed (s : State) (bs : List UInt8) :
    decodeFrom s bs = (feed s bs).1 ++ if (feed s bs).2.needed = 0 then [] else [REPLACEMENT] := by
  induction bs generalizing s with
  | nil => rw [decodeFrom, feed, List.nil_append]
  | cons b bs ih => rw [decodeFrom, ih, feed, List.append_assoc]

-- Where the stream is cut makes no difference to its text.
theorem decodeAll_eq (d : Decoder) (parts : List (List UInt8)) :
    d.decodeAll parts = if d.begun then (feed d.state parts.flatten).1 else stripBom (feed d.state parts.flatten).1 := by
  induction parts generalizing d with
  | nil => cases hbegun : d.begun <;> simp [Decoder.decodeAll, feed, stripBom]
  | cons part parts ih =>
      rw [Decoder.decodeAll, ih, List.flatten_cons, feed_append]
      cases hbegun : d.begun with
      | true => simp [Decoder.decode, hbegun]
      | false =>
          simp only [Decoder.decode, hbegun, Bool.false_eq_true, if_false]
          cases hchars : (feed d.state part).1 with
          | nil => simp [stripBom]
          | cons c cs =>
              simp only [ne_eq, reduceCtorEq, not_false_eq_true, decide_true, if_true, stripBom, List.cons_append]
              split_ifs <;> rfl

theorem feed_cons (s : State) (n : Nat) (hn : n < 256) (bs : List UInt8) :
    feed s (UInt8.ofNat n :: bs) = ((step s n).1 ++ (feed (step s n).2 bs).1, (feed (step s n).2 bs).2) := by
  have hbyte : (UInt8.ofNat n).toNat = n := by
    rw [UInt8.toNat_ofNat']
    omega
  simp only [feed, hbyte]

theorem feed_last {cp lower upper n : Nat} (hn : n < 0x40) (hlow : lower ≤ n + 0x80) (hhigh : n + 0x80 ≤ upper)
    (bs : List UInt8) :
    feed ⟨1, cp, lower, upper⟩ (UInt8.ofNat (n + 0x80) :: bs) =
      (Char.ofNat (cp * 0x40 + n) :: (feed .start bs).1, (feed .start bs).2) := by
  have hmod : (n + 0x80) % 0x40 = n := by omega
  rw [feed_cons _ _ (by omega), step, if_neg (by simp), if_pos ⟨hlow, hhigh⟩, if_pos rfl, hmod]
  rfl

theorem feed_more {needed cp lower upper n : Nat} (hneeded : 0 < needed) (hn : n < 0x40) (hlow : lower ≤ n + 0x80)
    (hhigh : n + 0x80 ≤ upper) (bs : List UInt8) :
    feed ⟨needed + 1, cp, lower, upper⟩ (UInt8.ofNat (n + 0x80) :: bs) =
      feed ⟨needed, cp * 0x40 + n, 0x80, 0xBF⟩ bs := by
  have hmod : (n + 0x80) % 0x40 = n := by omega
  rw [feed_cons _ _ (by omega), step, if_neg (by simp), if_pos ⟨hlow, hhigh⟩, if_neg (by simp; omega), hmod]
  rfl

theorem feed_charBytes {v : Nat} (hv : v < 0xD800 ∨ (0xDFFF < v ∧ v < 0x110000)) (bs : List UInt8) :
    feed .start (charBytes v ++ bs) = (Char.ofNat v :: (feed .start bs).1, (feed .start bs).2) := by
  unfold charBytes
  by_cases h₁ : v ≤ 0x7F
  · rw [if_pos h₁, List.cons_append, feed_cons _ _ (by omega), step, State.start, if_pos rfl, lead_ascii h₁]
    rfl
  by_cases h₂ : v ≤ 0x7FF
  · have hval : v / 0x40 % 0x20 * 0x40 + v % 0x40 = v := by omega
    rw [if_neg h₁, if_pos h₂, List.cons_append, List.cons_append, feed_cons _ _ (by omega), step, State.start, if_pos rfl,
      @lead_two (v / 0x40 % 0x20) (by omega) (by omega)]
    dsimp only
    rw [List.nil_append, feed_last (by omega) (by omega) (by omega), hval]
    rfl
  by_cases h₃ : v ≤ 0xFFFF
  · have hval : (v / 0x1000 % 0x10 * 0x40 + v / 0x40 % 0x40) * 0x40 + v % 0x40 = v := by omega
    rw [if_neg h₁, if_neg h₂, if_pos h₃, List.cons_append, List.cons_append, List.cons_append, feed_cons _ _ (by omega),
      step, State.start, if_pos rfl, @lead_three (v / 0x1000 % 0x10) (by omega)]
    dsimp only
    rw [List.nil_append, feed_more (by omega) (by omega) (by split <;> omega) (by split <;> omega),
      feed_last (by omega) (by omega) (by omega), hval]
    rfl
  · have hval : ((v / 0x40000 % 0x08 * 0x40 + v / 0x1000 % 0x40) * 0x40 + v / 0x40 % 0x40) * 0x40
        + v % 0x40 = v := by omega
    rw [if_neg h₁, if_neg h₂, if_neg h₃, List.cons_append, List.cons_append, List.cons_append, List.cons_append,
      feed_cons _ _ (by omega), step, State.start, if_pos rfl, @lead_four (v / 0x40000 % 0x08) (by omega)]
    dsimp only
    rw [List.nil_append, feed_more (by omega) (by omega) (by split <;> omega) (by split <;> omega),
      feed_more (by omega) (by omega) (by omega) (by omega), feed_last (by omega) (by omega) (by omega), hval]
    rfl

theorem feed_encode (cs : List Char) : feed .start (encode cs) = (cs, .start) := by
  induction cs with
  | nil => rfl
  | cons c cs ih =>
      have hvalid : c.toNat < 0xD800 ∨ (0xDFFF < c.toNat ∧ c.toNat < 0x110000) := c.valid
      rw [encode_cons, utf8EncodeChar_eq, feed_charBytes hvalid, ih, Char.ofNat_toNat]

end Utf8
