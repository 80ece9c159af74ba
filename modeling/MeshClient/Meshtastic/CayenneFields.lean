import MeshClient.Lib.BigEndian

namespace MeshClient.Meshtastic.Cayenne

-- The arithmetic of numbers: the result of an operation is rounded, by little where it is neither huge nor tiny,
-- and not at all where it is a small integer.
structure Arithmetic where
  fl : ℚ → ℚ
  near : ∀ x, 1 / 2 ^ 60 ≤ |x| → |x| ≤ 2 ^ 60 → |fl x - x| ≤ |x| / 2 ^ 53
  int : ∀ n : ℤ, |n| ≤ 2 ^ 53 → fl n = n

-- Exact arithmetic is one.
instance : Inhabited Arithmetic where
  default :=
    { fl := id
      near := fun x _ _ => by rw [id, sub_self, abs_zero]; positivity
      int := fun _ _ => rfl }

-- A view of a memory, which holds the view's bytes and perhaps others.
structure Uint8Array where
  memory : ℕ → Option UInt8
  byteOffset : ℕ
  contents : List UInt8
  inside : ∀ i < contents.length, memory (byteOffset + i) = contents[i]?

def Uint8Array.length (bytes : Uint8Array) : ℕ := bytes.contents.length

-- `bytes[i]`
def Uint8Array.get? (bytes : Uint8Array) (i : ℕ) : Option UInt8 :=
  if i < bytes.length then bytes.memory (bytes.byteOffset + i) else none

structure DataView where
  memory : ℕ → Option UInt8
  start : ℕ
  size : ℕ

-- A read that is not all inside the view throws, which is `none`.
def DataView.bytes (view : DataView) (offset n : ℕ) : Option (List UInt8) :=
  if offset + n ≤ view.size then (List.range' (view.start + offset) n).mapM view.memory else none

def DataView.getUint8 (view : DataView) (offset : ℕ) : Option ℕ := (view.bytes offset 1).map BigEndian.value

def DataView.getUint16 (view : DataView) (offset : ℕ) : Option ℕ := (view.bytes offset 2).map BigEndian.value

def DataView.getUint32 (view : DataView) (offset : ℕ) : Option ℕ := (view.bytes offset 4).map BigEndian.value

def DataView.getInt16 (view : DataView) (offset : ℕ) : Option ℤ := (view.bytes offset 2).map BigEndian.signed

inductive CayenneKind where
  | digitalInput | digitalOutput | analogInput | analogOutput | illuminance | presence | temperature | humidity
  | accelerometer | barometer | gyrometer | gps | percentage | concentration | power | distance | energy | direction
  | unixTime | switch
deriving DecidableEq, Repr

structure CayenneReading where
  channel : UInt8
  typeId : UInt8
  kind : CayenneKind
  values : List (String × ℚ)
  unit : String
deriving DecidableEq

structure CayenneDecodeResult where
  readings : List CayenneReading
  truncated : Bool
deriving DecidableEq

structure CayenneTypeSpec where
  kind : CayenneKind
  size : ℕ
  unit : String
  decode : DataView → Option (List (String × ℚ))

def i24 (view : DataView) (offset : ℕ) : Option ℤ := do
  let high ← view.getUint8 offset
  let mid ← view.getUint8 (offset + 1)
  let low ← view.getUint8 (offset + 2)
  let raw := high <<< 16 ||| mid <<< 8 ||| low
  some (if raw &&& 0x800000 ≠ 0 then (raw : ℤ) - 0x1000000 else raw)

-- `Math.round`
def mathRound (x : ℚ) : ℤ := ⌊x + 1 / 2⌋

def round (arith : Arithmetic) (value : ℚ) (digits : ℕ) : ℚ :=
  let f : ℚ := 10 ^ digits
  arith.fl (mathRound (arith.fl (value * f)) / f)

def scalar (kind : CayenneKind) (size : ℕ) (unit : String) (read : DataView → Option ℚ) : CayenneTypeSpec where
  kind := kind
  size := size
  unit := unit
  decode v := do
    let value ← read v
    some [("value", value)]

def vec3 (arith : Arithmetic) (kind : CayenneKind) (unit : String) (scale : ℕ) : CayenneTypeSpec where
  kind := kind
  size := 6
  unit := unit
  decode v := ["x", "y", "z"].zipIdx.mapM fun (n, i) => do
    let raw ← v.getInt16 (i * 2)
    some (n, round arith (arith.fl (raw / scale)) 3)

def readUint (get : DataView → ℕ → Option ℕ) (v : DataView) : Option ℚ := (get v 0).map fun n => (n : ℚ)

def readScaledUint (arith : Arithmetic) (get : DataView → ℕ → Option ℕ) (scale digits : ℕ) (v : DataView) : Option ℚ :=
  (get v 0).map fun n => round arith (arith.fl (n / scale)) digits

def readScaledInt16 (arith : Arithmetic) (scale digits : ℕ) (v : DataView) : Option ℚ :=
  (v.getInt16 0).map fun n => round arith (arith.fl (n / scale)) digits

def gps (arith : Arithmetic) : CayenneTypeSpec where
  kind := .gps
  size := 9
  unit := ""
  decode v := do
    let lat ← i24 v 0
    let lon ← i24 v 3
    let alt ← i24 v 6
    some [("lat", round arith (arith.fl (lat / 10000)) 4), ("lon", round arith (arith.fl (lon / 10000)) 4),
      ("alt", round arith (arith.fl (alt / 100)) 2)]

def TYPES (arith : Arithmetic) : List (UInt8 × CayenneTypeSpec) :=
  [(0, scalar .digitalInput 1 "" (readUint DataView.getUint8)),
    (1, scalar .digitalOutput 1 "" (readUint DataView.getUint8)),
    (2, scalar .analogInput 2 "" (readScaledInt16 arith 100 2)),
    (3, scalar .analogOutput 2 "" (readScaledInt16 arith 100 2)),
    (101, scalar .illuminance 2 "lx" (readUint DataView.getUint16)),
    (102, scalar .presence 1 "" (readUint DataView.getUint8)),
    (103, scalar .temperature 2 "°C" (readScaledInt16 arith 10 1)),
    (104, scalar .humidity 1 "%" (readScaledUint arith DataView.getUint8 2 1)),
    (113, vec3 arith .accelerometer "G" 1000),
    (115, scalar .barometer 2 "hPa" (readScaledUint arith DataView.getUint16 10 1)),
    (120, scalar .percentage 1 "%" (readUint DataView.getUint8)),
    (125, scalar .concentration 2 "ppm" (readUint DataView.getUint16)),
    (128, scalar .power 2 "W" (readUint DataView.getUint16)),
    (130, scalar .distance 4 "m" (readScaledUint arith DataView.getUint32 1000 3)),
    (131, scalar .energy 4 "kWh" (readScaledUint arith DataView.getUint32 1000 3)),
    (132, scalar .direction 2 "°" (readUint DataView.getUint16)),
    (133, scalar .unixTime 4 "" (readUint DataView.getUint32)),
    (134, vec3 arith .gyrometer "°/s" 100),
    (136, gps arith),
    (142, scalar .switch 1 "" (readUint DataView.getUint8))]

-- The loop from an offset on, with the readings so far.
def decodeFrom (arith : Arithmetic) (bytes : Uint8Array) (offset : ℕ) (readings : List CayenneReading) :
    Option CayenneDecodeResult :=
  if hmore : offset < bytes.length then
    if bytes.length < offset + 2 then some { readings := readings, truncated := true }
    else
      let channel := (bytes.get? offset).getD 0
      let typeId := (bytes.get? (offset + 1)).getD 0
      match (TYPES arith).lookup typeId with
      | none => some { readings := readings, truncated := true }
      | some spec =>
          if bytes.length < offset + 2 + spec.size then some { readings := readings, truncated := true }
          else
            let view : DataView := ⟨bytes.memory, bytes.byteOffset + offset + 2, spec.size⟩
            match spec.decode view with
            | none => none
            | some values =>
                decodeFrom arith bytes (offset + (2 + spec.size))
                  (readings ++ [⟨channel, typeId, spec.kind, values, spec.unit⟩])
  else some { readings := readings, truncated := false }
termination_by bytes.length - offset

def decodeCayenneLpp (arith : Arithmetic) (bytes : Uint8Array) : Option CayenneDecodeResult := decodeFrom arith bytes 0 []

open BigEndian

variable {arith : Arithmetic} {view : DataView} {data : List UInt8} {offset n : ℕ}

structure Field where
  name : String
  width : ℕ
  isSigned : Bool := false
  scale : ℕ := 1

structure Layout where
  kind : CayenneKind
  unit : String
  fields : List Field

def Layout.size (layout : Layout) : ℕ := (layout.fields.map Field.width).sum

def oneField (kind : CayenneKind) (unit : String) (width : ℕ) (isSigned : Bool) (scale : ℕ) : Layout :=
  ⟨kind, unit, [⟨"value", width, isSigned, scale⟩]⟩

def threeAxes (kind : CayenneKind) (unit : String) (scale : ℕ) : Layout :=
  ⟨kind, unit, [⟨"x", 2, true, scale⟩, ⟨"y", 2, true, scale⟩, ⟨"z", 2, true, scale⟩]⟩

-- The record types: which numbers a record of the type holds, one after the other.
def LAYOUTS : List (UInt8 × Layout) :=
  [(0, oneField .digitalInput "" 1 false 1),
    (1, oneField .digitalOutput "" 1 false 1),
    (2, oneField .analogInput "" 2 true 100),
    (3, oneField .analogOutput "" 2 true 100),
    (101, oneField .illuminance "lx" 2 false 1),
    (102, oneField .presence "" 1 false 1),
    (103, oneField .temperature "°C" 2 true 10),
    (104, oneField .humidity "%" 1 false 2),
    (113, threeAxes .accelerometer "G" 1000),
    (115, oneField .barometer "hPa" 2 false 10),
    (120, oneField .percentage "%" 1 false 1),
    (125, oneField .concentration "ppm" 2 false 1),
    (128, oneField .power "W" 2 false 1),
    (130, oneField .distance "m" 4 false 1000),
    (131, oneField .energy "kWh" 4 false 1000),
    (132, oneField .direction "°" 2 false 1),
    (133, oneField .unixTime "" 4 false 1),
    (134, threeAxes .gyrometer "°/s" 100),
    (136, ⟨.gps, "", [⟨"lat", 3, true, 10000⟩, ⟨"lon", 3, true, 10000⟩, ⟨"alt", 3, true, 100⟩]⟩),
    (142, oneField .switch "" 1 false 1)]

def Field.number (f : Field) (bytes : List UInt8) : ℤ := if f.isSigned then signed bytes else value bytes

def readFields (arith : Arithmetic) : List Field → List UInt8 → List (String × ℚ)
  | [], _ => []
  | f :: fields, data =>
      (f.name, arith.fl (f.number (data.take f.width) / f.scale)) :: readFields arith fields (data.drop f.width)

-- The view has exactly these bytes.
structure Holds (view : DataView) (data : List UInt8) : Prop where
  size : view.size = data.length
  byte : ∀ i < data.length, view.memory (view.start + i) = data[i]?

theorem mapM_memory (memory : ℕ → Option UInt8) (start : ℕ) (hbyte : ∀ i < data.length, memory (start + i) = data[i]?) :
    (List.range' start data.length).mapM memory = some data := by
  induction data generalizing start with
  | nil => rfl
  | cons b data ih =>
      have hfirst : memory start = some b := hbyte 0 (by simp)
      have hrest := ih (start + 1) (by
        intro i hi
        have hnext := hbyte (i + 1) (by simpa using hi)
        rwa [List.getElem?_cons_succ, show start + (i + 1) = start + 1 + i by omega] at hnext)
      rw [List.length_cons, List.range'_succ, List.mapM_cons, hfirst, hrest]
      rfl

theorem bytes_eq (hview : Holds view data) (h : offset + n ≤ data.length) :
    view.bytes offset n = some ((data.drop offset).take n) := by
  have hlength : ((data.drop offset).take n).length = n := by
    rw [List.length_take, List.length_drop]
    omega
  rw [DataView.bytes, hview.size, if_pos h]
  have hread := @mapM_memory ((data.drop offset).take n) view.memory (view.start + offset) (by
    intro i hi
    rw [hlength] at hi
    rw [List.getElem?_take_of_lt hi, List.getElem?_drop, Nat.add_assoc]
    exact hview.byte (offset + i) (by omega))
  rwa [hlength] at hread

theorem mathRound_of_near {x : ℚ} {m : ℤ} (h : |x - m| < 1 / 2) : mathRound x = m := by
  rw [abs_lt] at h
  rw [mathRound, Int.floor_eq_iff]
  constructor <;> linarith [h.1, h.2]

theorem fl_near (arith : Arithmetic) {m : ℤ} {scale : ℕ} (hscale : 0 < scale) (hbound : scale ≤ 10000) (hm : |m| ≤ 2 ^ 40) :
    |arith.fl (m / scale) - m / scale| ≤ |(m : ℚ) / scale| / 2 ^ 53 := by
  have hs : (1 : ℚ) ≤ scale := by exact_mod_cast hscale
  have hsBound : (scale : ℚ) ≤ 10000 := by exact_mod_cast hbound
  by_cases hzero : m = 0
  · have hfl := arith.int 0 (by norm_num)
    rw [hzero]
    simp only [Int.cast_zero, zero_div] at hfl ⊢
    rw [hfl]
    norm_num
  · have hone : (1 : ℚ) ≤ |(m : ℚ)| := by exact_mod_cast Int.one_le_abs hzero
    have hsize : |(m : ℚ)| ≤ 2 ^ 40 := by exact_mod_cast hm
    have habs : |(m : ℚ) / scale| = |(m : ℚ)| / scale := by rw [abs_div, abs_of_pos (show (0 : ℚ) < scale by linarith)]
    refine arith.near _ ?_ ?_
    · rw [habs, div_le_div_iff₀ (by norm_num) (by linarith)]
      linarith
    · rw [habs, div_le_iff₀ (by linarith)]
      linarith

-- Rounding a scaled number to its decimals changes nothing but what the arithmetic does.
theorem round_scaled (arith : Arithmetic) (m : ℤ) {scale k digits : ℕ} (hscale : 0 < scale) (hbound : scale ≤ 10000)
    (hdigits : scale * k = 10 ^ digits) (hm : |m| * k ≤ 2 ^ 40) :
    round arith (arith.fl (m / scale)) digits = arith.fl (m / scale) := by
  by_cases hzero : m = 0
  · have hfl := arith.int 0 (by norm_num)
    simp only [hzero, round, Int.cast_zero, zero_div, zero_mul] at hfl ⊢
    have hround : mathRound 0 = 0 := by norm_num [mathRound]
    simp only [hfl, zero_mul, hround, Int.cast_zero, zero_div]
  have hs : (0 : ℚ) < scale := by exact_mod_cast hscale
  have hf : (10 : ℚ) ^ digits = scale * k := by exact_mod_cast hdigits.symm
  have hfpos : (0 : ℚ) < scale * k := by rw [← hf]; positivity
  have hk : (0 : ℚ) ≤ k := Nat.cast_nonneg k
  have hkne : (k : ℚ) ≠ 0 := by
    intro hzero
    rw [hzero, mul_zero] at hfpos
    exact lt_irrefl _ hfpos
  have hkone : (1 : ℚ) ≤ k := by
    have hpos : 0 < k := Nat.pos_of_ne_zero (by exact_mod_cast hkne)
    exact_mod_cast hpos
  have hsize : |(m : ℚ)| * k ≤ 2 ^ 40 := by exact_mod_cast hm
  have hone : (1 : ℚ) ≤ |(m : ℚ)| := by exact_mod_cast Int.one_le_abs hzero
  have hsmall : |(m : ℚ)| ≤ 2 ^ 40 := (le_mul_of_one_le_right (abs_nonneg _) hkone).trans hsize
  have hlarge : (1 : ℚ) ≤ |(m : ℚ)| * k := hone.trans (le_mul_of_one_le_right (abs_nonneg _) hkone)
  have hfirst := fl_near arith hscale hbound (by exact_mod_cast hsmall)
  set v := arith.fl (m / scale) with hv
  -- what was divided comes back nearly whole
  have hback : |v * (scale * k) - m * k| ≤ |(m : ℚ)| * k / 2 ^ 53 := by
    have hsplit : v * (scale * k) - m * k = (v - m / scale) * (scale * k) := by
      field_simp
    rw [hsplit, abs_mul, abs_of_pos hfpos]
    calc
      |v - m / scale| * (scale * k) ≤ |(m : ℚ) / scale| / 2 ^ 53 * (scale * k) :=
        mul_le_mul_of_nonneg_right hfirst hfpos.le
      _ = |(m : ℚ)| * k / 2 ^ 53 := by
        rw [abs_div, abs_of_pos hs]
        field_simp
  have habs : |v * (scale * k)| ≤ |(m : ℚ)| * k + |(m : ℚ)| * k / 2 ^ 53 := by
    calc
      |v * (scale * k)| = |m * k + (v * (scale * k) - m * k)| := by ring_nf
      _ ≤ |(m : ℚ) * k| + |v * (scale * k) - m * k| := abs_add_le _ _
      _ ≤ |(m : ℚ)| * k + |(m : ℚ)| * k / 2 ^ 53 := by
        rw [abs_mul, abs_of_nonneg hk]
        linarith
  have hwhole : |(m : ℚ)| * k = |v * (scale * k) - (v * (scale * k) - m * k)| := by
    rw [sub_sub_cancel, abs_mul, abs_of_nonneg hk]
  have hleft : |(m : ℚ)| * k ≤ |v * (scale * k)| + |(m : ℚ)| * k / 2 ^ 53 := by
    rw [hwhole]
    exact (abs_sub _ _).trans (add_le_add le_rfl (hback.trans_eq (by rw [hwhole])))
  have hsecond := arith.near (v * (scale * k)) (by linarith) (by linarith)
  have hnear : |arith.fl (v * (scale * k)) - ((m * k : ℤ) : ℚ)| < 1 / 2 := by
    push_cast
    calc
      |arith.fl (v * (scale * k)) - m * k|
        = |(arith.fl (v * (scale * k)) - v * (scale * k)) + (v * (scale * k) - m * k)| := by ring_nf
      _ ≤ |arith.fl (v * (scale * k)) - v * (scale * k)| + |v * (scale * k) - m * k| := abs_add_le _ _
      _ ≤ |v * (scale * k)| / 2 ^ 53 + |(m : ℚ)| * k / 2 ^ 53 := add_le_add hsecond hback
      _ < 1 / 2 := by linarith
  rw [round]
  simp only [hf, mathRound_of_near hnear]
  rw [hv, Int.cast_mul, Int.cast_natCast, mul_div_mul_right _ _ hkne]

theorem getUint8_eq (hview : Holds view data) (h : offset + 1 ≤ data.length) :
    view.getUint8 offset = some (value ((data.drop offset).take 1)) := by
  rw [DataView.getUint8, bytes_eq hview h]
  rfl

theorem getUint16_eq (hview : Holds view data) (h : offset + 2 ≤ data.length) :
    view.getUint16 offset = some (value ((data.drop offset).take 2)) := by
  rw [DataView.getUint16, bytes_eq hview h]
  rfl

theorem getUint32_eq (hview : Holds view data) (h : offset + 4 ≤ data.length) :
    view.getUint32 offset = some (value ((data.drop offset).take 4)) := by
  rw [DataView.getUint32, bytes_eq hview h]
  rfl

theorem getInt16_eq (hview : Holds view data) (h : offset + 2 ≤ data.length) :
    view.getInt16 offset = some (signed ((data.drop offset).take 2)) := by
  rw [DataView.getInt16, bytes_eq hview h]
  rfl

-- The bit operations put three bytes together as a number, and its top bit is the sign.
theorem joined_eq (high mid low : UInt8) :
    (if (high.toNat <<< 16 ||| mid.toNat <<< 8 ||| low.toNat) &&& 0x800000 ≠ 0
      then ((high.toNat <<< 16 ||| mid.toNat <<< 8 ||| low.toNat : ℕ) : ℤ) - 0x1000000
      else (high.toNat <<< 16 ||| mid.toNat <<< 8 ||| low.toNat : ℕ)) = signed [high, mid, low] := by
  have hhigh := high.toNat_lt
  have hmid := mid.toNat_lt
  have hlow := low.toNat_lt
  have hvalue : high.toNat <<< 16 ||| mid.toNat <<< 8 ||| low.toNat = value [high, mid, low] := by
    rw [Nat.or_assoc, ← Nat.shiftLeft_add_eq_or_of_lt (show low.toNat < 2 ^ 8 by omega),
      ← Nat.shiftLeft_add_eq_or_of_lt (show mid.toNat <<< 8 + low.toNat < 2 ^ 16 by rw [Nat.shiftLeft_eq]; omega)]
    simp only [Nat.shiftLeft_eq, value, List.foldl_cons, List.foldl_nil]
    omega
  have hlt := value_lt [high, mid, low]
  have hsign : value [high, mid, low] &&& 0x800000 ≠ 0 ↔ ¬ 2 * value [high, mid, low] < 256 ^ 3 := by
    rw [show (0x800000 : ℕ) = 2 ^ 23 from rfl, Nat.and_two_pow, Nat.testBit_eq_decide_div_mod_eq]
    by_cases hbit : value [high, mid, low] / 2 ^ 23 % 2 = 1
    · simp only [hbit, decide_true, Bool.toNat_true]
      simp only [List.length_cons, List.length_nil] at hlt
      omega
    · simp only [hbit, decide_false, Bool.toNat_false]
      simp only [List.length_cons, List.length_nil] at hlt
      omega
  rw [hvalue, signed, show [high, mid, low].length = 3 from rfl]
  by_cases hneg : 2 * value [high, mid, low] < 256 ^ 3
  · rw [if_neg fun h => hsign.mp h hneg, if_pos hneg]
  · rw [if_pos (hsign.mpr hneg), if_neg hneg]
    rfl

theorem i24_eq (hview : Holds view data) (h : offset + 3 ≤ data.length) :
    i24 view offset = some (signed ((data.drop offset).take 3)) := by
  obtain ⟨high, mid, low, rest, hrest⟩ : ∃ high mid low rest, data.drop offset = high :: mid :: low :: rest := by
    have hlength : (data.drop offset).length = data.length - offset := List.length_drop
    match hdrop : data.drop offset with
    | high :: mid :: low :: rest => exact ⟨high, mid, low, rest, rfl⟩
    | [] => rw [hdrop, List.length_nil] at hlength; omega
    | [_] => rw [hdrop, List.length_singleton] at hlength; omega
    | [_, _] => rw [hdrop, List.length_cons, List.length_singleton] at hlength; omega
  have hnext : data.drop (offset + 1) = mid :: low :: rest := by rw [← List.drop_drop, hrest]; rfl
  have hlast : data.drop (offset + 2) = low :: rest := by rw [← List.drop_drop, hrest]; rfl
  have hone : ∀ b : UInt8, value [b] = b.toNat := fun b => by simp [value]
  rw [i24, getUint8_eq hview (by omega), getUint8_eq hview (by omega), getUint8_eq hview (by omega), hrest, hnext, hlast]
  simp only [List.take_succ_cons, List.take_zero, hone]
  exact congrArg some (joined_eq high mid low)

end MeshClient.Meshtastic.Cayenne
