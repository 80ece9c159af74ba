import MeshClient.Lib.PrefixCode
import MeshClient.Meshtastic.CayenneFields

namespace MeshClient.Meshtastic.Cayenne

open BigEndian PrefixCode

variable {arith : Arithmetic} {view : DataView} {data : List UInt8} {offset n : ℕ}

-- What a type of the code reads is what its layout says.
structure Matches (arith : Arithmetic) (spec : CayenneTypeSpec) (layout : Layout) : Prop where
  kind : spec.kind = layout.kind
  unit : spec.unit = layout.unit
  size : spec.size = layout.size
  decode : ∀ view data, Holds view data → data.length = layout.size → spec.decode view = some (readFields arith layout.fields data)

theorem matches_uint (arith : Arithmetic) (kind : CayenneKind) (unit : String) {width : ℕ} (hwidth : width ≤ 4)
    {get : DataView → ℕ → Option ℕ}
    (hget : ∀ {view data offset}, Holds view data → offset + width ≤ data.length →
      get view offset = some (value ((data.drop offset).take width))) :
    Matches arith (scalar kind width unit (readUint get)) (oneField kind unit width false 1) := by
  refine ⟨rfl, rfl, rfl, ?_⟩
  intro view data hview hdata
  have hlength : data.length = width := hdata
  have hlt := value_lt (data.take width)
  have hpow : 256 ^ (data.take width).length ≤ 256 ^ 4 := by
    refine Nat.pow_le_pow_right (by omega) ?_
    rw [List.length_take]
    omega
  have hint := arith.int (value (data.take width)) (by rw [abs_of_nonneg (Int.natCast_nonneg _)]; omega)
  simp only [scalar, readUint, hget hview (show 0 + width ≤ data.length by omega), oneField, readFields, Field.number, List.drop_zero]
  simpa using hint.symm

theorem matches_scaledUint (arith : Arithmetic) (kind : CayenneKind) (unit : String) {width scale k digits : ℕ}
    (hwidth : width ≤ 4) (hscale : 0 < scale) (hbound : scale ≤ 10000) (hdigits : scale * k = 10 ^ digits) (hk : k ≤ 5) {get : DataView → ℕ → Option ℕ}
    (hget : ∀ {view data offset}, Holds view data → offset + width ≤ data.length →
      get view offset = some (value ((data.drop offset).take width))) :
    Matches arith (scalar kind width unit (readScaledUint arith get scale digits)) (oneField kind unit width false scale) := by
  refine ⟨rfl, rfl, rfl, ?_⟩
  intro view data hview hdata
  have hlength : data.length = width := hdata
  have hlt := value_lt (data.take width)
  have hpow : 256 ^ (data.take width).length ≤ 256 ^ 4 := by
    refine Nat.pow_le_pow_right (by omega) ?_
    rw [List.length_take]
    omega
  have hround := round_scaled arith (value (data.take width)) hscale hbound hdigits (by
    rw [abs_of_nonneg (Int.natCast_nonneg _)]
    calc
      (value (data.take width) : ℤ) * k ≤ 256 ^ 4 * 5 := by
        exact_mod_cast Nat.mul_le_mul (by omega) hk
      _ ≤ 2 ^ 40 := by norm_num)
  simp only [scalar, readScaledUint, hget hview (show 0 + width ≤ data.length by omega), oneField, readFields, Field.number,
    List.drop_zero]
  simpa using hround

theorem abs_signed_take (data : List UInt8) {width : ℕ} (hwidth : width ≤ 3) {k : ℕ} (hk : k ≤ 10) :
    |signed (data.take width)| * k ≤ 2 ^ 40 := by
  have habs := abs_signed_le (data.take width)
  have hpow : (256 : ℤ) ^ (data.take width).length ≤ 256 ^ 3 := by
    refine pow_le_pow_right₀ (by norm_num) ?_
    rw [List.length_take]
    omega
  have hkInt : (k : ℤ) ≤ 10 := by exact_mod_cast hk
  calc
    |signed (data.take width)| * k ≤ 256 ^ 3 * 10 := mul_le_mul (habs.trans hpow) hkInt (Int.natCast_nonneg _) (by norm_num)
    _ ≤ 2 ^ 40 := by norm_num

theorem matches_int16 (arith : Arithmetic) (kind : CayenneKind) (unit : String) {scale digits : ℕ} (hscale : 0 < scale)
    (hbound : scale ≤ 10000) (hdigits : scale * 1 = 10 ^ digits) :
    Matches arith (scalar kind 2 unit (readScaledInt16 arith scale digits)) (oneField kind unit 2 true scale) := by
  refine ⟨rfl, rfl, rfl, ?_⟩
  intro view data hview hdata
  have hlength : data.length = 2 := hdata
  have hround := round_scaled arith (signed (data.take 2)) hscale hbound hdigits (abs_signed_take data (by omega) (by omega))
  simp only [scalar, readScaledInt16, getInt16_eq hview (show 0 + 2 ≤ data.length by omega), oneField, readFields, Field.number,
    List.drop_zero]
  simpa using hround

theorem matches_vec3 (arith : Arithmetic) (kind : CayenneKind) (unit : String) {scale k : ℕ} (hscale : 0 < scale)
    (hbound : scale ≤ 10000) (hdigits : scale * k = 10 ^ 3) (hk : k ≤ 10) : Matches arith (vec3 arith kind unit scale) (threeAxes kind unit scale) := by
  refine ⟨rfl, rfl, rfl, ?_⟩
  intro view data hview hdata
  have hlength : data.length = 6 := hdata
  have hround : ∀ part : List UInt8, round arith (arith.fl (signed (part.take 2) / scale)) 3 = arith.fl (signed (part.take 2) / scale) :=
    fun part => round_scaled arith _ hscale hbound hdigits (abs_signed_take part (by omega) hk)
  simp only [vec3, threeAxes, readFields, Field.number, List.zipIdx_cons, List.zipIdx_nil, List.mapM_cons, List.mapM_nil,
    getInt16_eq hview (show 0 * 2 + 2 ≤ data.length by omega), getInt16_eq hview (show (0 + 1) * 2 + 2 ≤ data.length by omega),
    getInt16_eq hview (show (0 + 1 + 1) * 2 + 2 ≤ data.length by omega), Option.bind_eq_bind, Option.bind_some, Option.pure_def,
    hround, List.drop_drop, if_true]
  rfl

theorem matches_gps (arith : Arithmetic) : Matches arith (gps arith)
    ⟨.gps, "", [⟨"lat", 3, true, 10000⟩, ⟨"lon", 3, true, 10000⟩, ⟨"alt", 3, true, 100⟩]⟩ := by
  refine ⟨rfl, rfl, rfl, ?_⟩
  intro view data hview hdata
  have hlength : data.length = 9 := hdata
  have hdegrees : ∀ part : List UInt8, round arith (arith.fl (signed (part.take 3) / (10000 : ℕ))) 4 =
      arith.fl (signed (part.take 3) / (10000 : ℕ)) := fun part =>
    round_scaled arith _ (by omega) (by omega) (show 10000 * 1 = 10 ^ 4 by norm_num) (abs_signed_take part (by omega) (by omega))
  have hmetres : ∀ part : List UInt8, round arith (arith.fl (signed (part.take 3) / (100 : ℕ))) 2 =
      arith.fl (signed (part.take 3) / (100 : ℕ)) := fun part =>
    round_scaled arith _ (by omega) (by omega) (show 100 * 1 = 10 ^ 2 by norm_num) (abs_signed_take part (by omega) (by omega))
  simp only [Nat.cast_ofNat] at hdegrees hmetres
  simp only [gps, i24_eq hview (show 0 + 3 ≤ data.length by omega), i24_eq hview (show 3 + 3 ≤ data.length by omega),
    i24_eq hview (show 6 + 3 ≤ data.length by omega), readFields, Field.number, List.drop_drop, List.drop_zero, if_true,
    Option.bind_eq_bind, Option.bind_some, hdegrees, hmetres, Nat.cast_ofNat, Nat.reduceAdd]

theorem types_match (arith : Arithmetic) :
    List.Forall₂ (fun (entry : UInt8 × CayenneTypeSpec) (entry' : UInt8 × Layout) =>
      entry.1 = entry'.1 ∧ Matches arith entry.2 entry'.2) (TYPES arith) LAYOUTS := by
  have huint8 := fun kind unit => matches_uint arith kind unit (show 1 ≤ 4 by omega) getUint8_eq
  have huint16 := fun kind unit => matches_uint arith kind unit (show 2 ≤ 4 by omega) getUint16_eq
  have huint32 := fun kind unit => matches_uint arith kind unit (show 4 ≤ 4 by omega) getUint32_eq
  refine .cons ⟨rfl, huint8 _ _⟩ (.cons ⟨rfl, huint8 _ _⟩ ?_)
  refine .cons ⟨rfl, matches_int16 arith _ _ (by omega) (by omega) (by norm_num)⟩ (.cons ⟨rfl, matches_int16 arith _ _ (by omega) (by omega) (by norm_num)⟩ ?_)
  refine .cons ⟨rfl, huint16 _ _⟩ (.cons ⟨rfl, huint8 _ _⟩ ?_)
  refine .cons ⟨rfl, matches_int16 arith _ _ (by omega) (by omega) (by norm_num)⟩ ?_
  refine .cons ⟨rfl, matches_scaledUint arith _ _ (by omega) (by omega) (by omega) (show 2 * 5 = 10 ^ 1 by norm_num) (by omega) getUint8_eq⟩ ?_
  refine .cons ⟨rfl, matches_vec3 arith _ _ (by omega) (by omega) (show 1000 * 1 = 10 ^ 3 by norm_num) (by omega)⟩ ?_
  refine .cons ⟨rfl, matches_scaledUint arith _ _ (by omega) (by omega) (by omega) (show 10 * 1 = 10 ^ 1 by norm_num) (by omega) getUint16_eq⟩ ?_
  refine .cons ⟨rfl, huint8 _ _⟩ (.cons ⟨rfl, huint16 _ _⟩ (.cons ⟨rfl, huint16 _ _⟩ ?_))
  refine .cons ⟨rfl, matches_scaledUint arith _ _ (by omega) (by omega) (by omega) (show 1000 * 1 = 10 ^ 3 by norm_num) (by omega) getUint32_eq⟩ ?_
  refine .cons ⟨rfl, matches_scaledUint arith _ _ (by omega) (by omega) (by omega) (show 1000 * 1 = 10 ^ 3 by norm_num) (by omega) getUint32_eq⟩ ?_
  refine .cons ⟨rfl, huint16 _ _⟩ (.cons ⟨rfl, huint32 _ _⟩ ?_)
  refine .cons ⟨rfl, matches_vec3 arith _ _ (by omega) (by omega) (show 100 * 10 = 10 ^ 3 by norm_num) (by omega)⟩ ?_
  exact .cons ⟨rfl, matches_gps arith⟩ (.cons ⟨rfl, huint8 _ _⟩ .nil)

-- A record of a known type with all its data.
structure Record where
  channel : UInt8
  typeId : UInt8
  layout : Layout
  known : LAYOUTS.lookup typeId = some layout
  data : List UInt8
  full : data.length = layout.size

def Record.bytes (record : Record) : List UInt8 := record.channel :: record.typeId :: record.data

def Record.reading (arith : Arithmetic) (record : Record) : CayenneReading where
  channel := record.channel
  typeId := record.typeId
  kind := record.layout.kind
  values := readFields arith record.layout.fields record.data
  unit := record.layout.unit

-- The numbers of a reading as bytes: each value times its scale, to the nearest integer.
def encodeFields : List Field → List (String × ℚ) → List UInt8
  | f :: fields, (_, v) :: values =>
      bytesOf f.width (mathRound (v * f.scale) % 256 ^ f.width).toNat ++ encodeFields fields values
  | _, _ => []

def encodeReading (reading : CayenneReading) : List UInt8 :=
  match LAYOUTS.lookup reading.typeId with
  | none => []
  | some layout => reading.channel :: reading.typeId :: encodeFields layout.fields reading.values

theorem number_emod (f : Field) (bytes : List UInt8) : f.number bytes % 256 ^ bytes.length = value bytes := by
  have hlt : (value bytes : ℤ) < 256 ^ bytes.length := by exact_mod_cast value_lt bytes
  unfold Field.number
  split_ifs
  · exact signed_emod bytes
  · exact Int.emod_eq_of_lt (Int.natCast_nonneg _) hlt

theorem abs_number_le (f : Field) {bytes : List UInt8} (h : bytes.length ≤ 4) : |f.number bytes| ≤ 256 ^ 4 := by
  have hpow : (256 : ℤ) ^ bytes.length ≤ 256 ^ 4 := pow_le_pow_right₀ (by norm_num) h
  have hlt : (value bytes : ℤ) < 256 ^ bytes.length := by exact_mod_cast value_lt bytes
  unfold Field.number
  split_ifs
  · exact (abs_signed_le bytes).trans hpow
  · rw [abs_of_nonneg (Int.natCast_nonneg _)]
    omega

-- The scale takes the rounded quotient back to the number.
theorem mathRound_fl (arith : Arithmetic) {m : ℤ} {scale : ℕ} (hscale : 0 < scale) (hbound : scale ≤ 10000) (hm : |m| ≤ 256 ^ 4) :
    mathRound (arith.fl (m / scale) * scale) = m := by
  have hs : (0 : ℚ) < scale := by exact_mod_cast hscale
  have hsize : |(m : ℚ)| ≤ 256 ^ 4 := by exact_mod_cast hm
  refine mathRound_of_near ?_
  have hsplit : arith.fl (m / scale) * scale - m = (arith.fl (m / scale) - m / scale) * scale := by
    field_simp
  rw [hsplit, abs_mul, abs_of_pos hs]
  calc
    |arith.fl (m / scale) - m / scale| * scale ≤ |(m : ℚ) / scale| / 2 ^ 53 * scale :=
      mul_le_mul_of_nonneg_right (fl_near arith hscale hbound (hm.trans (by norm_num))) hs.le
    _ = |(m : ℚ)| / 2 ^ 53 := by
      rw [abs_div, abs_of_pos hs]
      field_simp
    _ < 1 / 2 := by linarith

theorem encodeFields_readFields (arith : Arithmetic) {fields : List Field} (hfields : ∀ f ∈ fields, f.width ≤ 4 ∧ 0 < f.scale ∧ f.scale ≤ 10000)
    {data : List UInt8} (hdata : data.length = (fields.map Field.width).sum) :
    encodeFields fields (readFields arith fields data) = data := by
  induction fields generalizing data with
  | nil =>
      rw [List.map_nil, List.sum_nil] at hdata
      rw [List.eq_nil_of_length_eq_zero hdata]
      rfl
  | cons f fields ih =>
      obtain ⟨hwidth, hscale, hbound⟩ := hfields f List.mem_cons_self
      rw [List.map_cons, List.sum_cons] at hdata
      have hlength : (data.take f.width).length = f.width := by
        rw [List.length_take]
        omega
      have hrest := ih (fun g hg => hfields g (List.mem_cons_of_mem _ hg)) (show (data.drop f.width).length = _ by
        rw [List.length_drop]
        omega)
      have hnumber := number_emod f (data.take f.width)
      rw [hlength] at hnumber
      rw [readFields, encodeFields, hrest, mathRound_fl arith hscale hbound (abs_number_le f (by omega)), hnumber, Int.toNat_natCast]
      conv_lhs => enter [1, 1]; rw [← hlength]
      rw [bytesOf_value, List.take_append_drop]

theorem layouts_ok : ∀ entry ∈ LAYOUTS, ∀ f ∈ entry.2.fields, f.width ≤ 4 ∧ 0 < f.scale ∧ f.scale ≤ 10000 := by decide

theorem mem_of_lookup {α β : Type} [BEq α] [LawfulBEq α] {key : α} {val : β} {entries : List (α × β)}
    (h : entries.lookup key = some val) : (key, val) ∈ entries := by
  induction entries with
  | nil => cases h
  | cons entry entries ih =>
      rw [List.lookup_cons] at h
      split at h
      · rename_i heq
        obtain rfl := Option.some.inj h
        rw [eq_of_beq heq]
        exact List.mem_cons_self
      · exact List.mem_cons_of_mem _ (ih h)

theorem encodeReading_reading (arith : Arithmetic) (record : Record) : encodeReading (record.reading arith) = record.bytes := by
  have hfields := layouts_ok _ (mem_of_lookup record.known)
  simp only [encodeReading, Record.reading, record.known, encodeFields_readFields arith hfields record.full]
  rfl

-- The type byte tells where a record ends.
theorem records_prefixFree : PrefixFree Record.bytes := by
  intro a b rest rest' heq
  simp only [Record.bytes, List.cons_append, List.cons.injEq] at heq
  obtain ⟨hchannel, htype, hdata⟩ := heq
  have hlayout : a.layout = b.layout := by
    have hknown := a.known
    rw [htype, b.known] at hknown
    exact (Option.some.inj hknown).symm
  have hlength : a.data.length = b.data.length := by rw [a.full, b.full, hlayout]
  rw [Record.bytes, Record.bytes, hchannel, htype, (List.append_inj hdata hlength).1]

open PrefixCode

variable {arith : Arithmetic} {bytes : Uint8Array} {offset : ℕ} {channel typeId : UInt8} {tail rest : List UInt8}

theorem lookup_matches {types : List (UInt8 × CayenneTypeSpec)} {layouts : List (UInt8 × Layout)}
    (h : List.Forall₂ (fun entry entry' => entry.1 = entry'.1 ∧ Matches arith entry.2 entry'.2) types layouts) (typeId : UInt8) :
    types.lookup typeId = none ∧ layouts.lookup typeId = none ∨
      ∃ spec layout, types.lookup typeId = some spec ∧ layouts.lookup typeId = some layout ∧ Matches arith spec layout := by
  induction h with
  | nil => exact .inl ⟨rfl, rfl⟩
  | @cons entry entry' types layouts hentry _ ih =>
      obtain ⟨hkey, hmatch⟩ := hentry
      rw [List.lookup_cons, List.lookup_cons, ← hkey]
      by_cases heq : (typeId == entry.1) = true
      · simp only [heq]
        exact .inr ⟨entry.2, entry'.2, rfl, rfl, hmatch⟩
      · simp only [heq]
        exact ih

theorem get?_eq {i : ℕ} (h : i < bytes.length) : bytes.get? i = bytes.contents[i]? := by
  rw [Uint8Array.get?, if_pos h]
  exact bytes.inside i h

theorem stuck_nil : Stuck Record.bytes [] := by
  intro record rest heq
  cases heq

theorem stuck_single (b : UInt8) : Stuck Record.bytes [b] := by
  intro record rest heq
  simp only [Record.bytes, List.cons_append, List.cons.injEq] at heq
  cases heq.2

theorem stuck_unknown (h : LAYOUTS.lookup typeId = none) : Stuck Record.bytes (channel :: typeId :: tail) := by
  intro record rest heq
  simp only [Record.bytes, List.cons_append, List.cons.injEq] at heq
  have hknown := record.known
  rw [← heq.2.1, h] at hknown
  cases hknown

theorem stuck_short {layout : Layout} (h : LAYOUTS.lookup typeId = some layout) (hshort : tail.length < layout.size) :
    Stuck Record.bytes (channel :: typeId :: tail) := by
  intro record rest heq
  simp only [Record.bytes, List.cons_append, List.cons.injEq] at heq
  have hlayout : record.layout = layout := by
    have hknown := record.known
    rw [← heq.2.1, h] at hknown
    exact (Option.some.inj hknown).symm
  have hlength := congrArg List.length heq.2.2
  rw [List.length_append, record.full, hlayout] at hlength
  omega

theorem decodeFrom_unknown {readings : List CayenneReading} (h : offset + 2 ≤ bytes.length)
    (htypeId : bytes.get? (offset + 1) = some typeId) (hspec : (TYPES arith).lookup typeId = none) :
    decodeFrom arith bytes offset readings = some { readings := readings, truncated := true } := by
  rw [decodeFrom, dif_pos (by omega), if_neg (by omega)]
  simp only [htypeId, Option.getD_some, hspec]

theorem decodeFrom_short {readings : List CayenneReading} {spec : CayenneTypeSpec} (h : offset + 2 ≤ bytes.length)
    (htypeId : bytes.get? (offset + 1) = some typeId) (hspec : (TYPES arith).lookup typeId = some spec)
    (hshort : bytes.length < offset + 2 + spec.size) :
    decodeFrom arith bytes offset readings = some { readings := readings, truncated := true } := by
  rw [decodeFrom, dif_pos (by omega), if_neg (by omega)]
  simp only [htypeId, Option.getD_some, hspec, if_pos hshort]

theorem decodeFrom_record {readings : List CayenneReading} {spec : CayenneTypeSpec} {values : List (String × ℚ)}
    (h : offset + 2 + spec.size ≤ bytes.length) (hchannel : bytes.get? offset = some channel)
    (htypeId : bytes.get? (offset + 1) = some typeId) (hspec : (TYPES arith).lookup typeId = some spec)
    (hvalues : spec.decode ⟨bytes.memory, bytes.byteOffset + offset + 2, spec.size⟩ = some values) :
    decodeFrom arith bytes offset readings = decodeFrom arith bytes (offset + (2 + spec.size))
      (readings ++ [⟨channel, typeId, spec.kind, values, spec.unit⟩]) := by
  conv_lhs => rw [decodeFrom, dif_pos (show offset < bytes.length by omega), if_neg (show ¬ bytes.length < offset + 2 by omega)]
  simp only [hchannel, htypeId, Option.getD_some, hspec, if_neg (show ¬ bytes.length < offset + 2 + spec.size by omega), hvalues]

-- From an offset on, the loop takes the records that are left, one after the other, until none can be taken.
def DecodesFrom (arith : Arithmetic) (bytes : Uint8Array) (offset : ℕ) (readings : List CayenneReading) : Prop :=
  ∃ (records : List Record) (rest : List UInt8), bytes.contents.drop offset = records.flatMap Record.bytes ++ rest ∧
    Stuck Record.bytes rest ∧ decodeFrom arith bytes offset readings =
      some { readings := readings ++ records.map (Record.reading arith), truncated := decide (rest ≠ []) }

theorem decodesFrom_of_stuck {readings : List CayenneReading} (hrest : bytes.contents.drop offset = rest)
    (hstuck : Stuck Record.bytes rest)
    (hdecode : decodeFrom arith bytes offset readings = some { readings := readings, truncated := decide (rest ≠ []) }) :
    DecodesFrom arith bytes offset readings :=
  ⟨[], rest, hrest, hstuck, by rw [hdecode, List.map_nil, List.append_nil]⟩

theorem decodesFrom (arith : Arithmetic) (bytes : Uint8Array) (hoffset : offset ≤ bytes.length) (readings : List CayenneReading) :
    DecodesFrom arith bytes offset readings := by
  induction hgap : bytes.length - offset using Nat.strong_induction_on generalizing offset readings with
  | _ gap ih =>
      subst hgap
      have hlength : (bytes.contents.drop offset).length = bytes.length - offset := List.length_drop
      match hdrop : bytes.contents.drop offset with
      | [] =>
          rw [hdrop, List.length_nil] at hlength
          refine decodesFrom_of_stuck hdrop stuck_nil ?_
          rw [decodeFrom, dif_neg (by omega)]
          rfl
      | [b] =>
          rw [hdrop, List.length_singleton] at hlength
          refine decodesFrom_of_stuck hdrop (stuck_single b) ?_
          rw [decodeFrom, dif_pos (by omega), if_pos (by omega)]
          rfl
      | channel :: typeId :: tail =>
          rw [hdrop, List.length_cons, List.length_cons] at hlength
          have hchannel : bytes.get? offset = some channel := by
            rw [get?_eq (by omega), ← Nat.add_zero offset, ← List.getElem?_drop, hdrop]
            rfl
          have htypeId : bytes.get? (offset + 1) = some typeId := by
            rw [get?_eq (by omega), ← List.getElem?_drop, hdrop]
            rfl
          have htail : bytes.contents.drop (offset + 2) = tail := by
            rw [← List.drop_drop, hdrop]
            rfl
          obtain ⟨hspec, hlayout⟩ | ⟨spec, layout, hspec, hlayout, hmatch⟩ := lookup_matches (types_match arith) typeId
          · refine decodesFrom_of_stuck hdrop (stuck_unknown hlayout) ?_
            rw [decodeFrom_unknown (by omega) htypeId hspec]
            rfl
          have hsize := hmatch.size
          by_cases hshort : tail.length < layout.size
          · refine decodesFrom_of_stuck hdrop (stuck_short hlayout hshort) ?_
            rw [decodeFrom_short (by omega) htypeId hspec (by omega)]
            rfl
          have hfull : (tail.take layout.size).length = layout.size := by
            rw [List.length_take]
            omega
          have hview : Holds ⟨bytes.memory, bytes.byteOffset + offset + 2, spec.size⟩ (tail.take layout.size) := by
            refine ⟨by rw [hfull, hsize], ?_⟩
            intro i hi
            rw [hfull] at hi
            have hinside := bytes.inside (offset + 2 + i) (show offset + 2 + i < bytes.length by omega)
            rw [List.getElem?_take_of_lt hi, ← htail, List.getElem?_drop, ← hinside]
            exact congrArg bytes.memory (show bytes.byteOffset + offset + 2 + i = _ by omega)
          have hloop := @decodeFrom_record arith bytes offset channel typeId readings spec _ (by omega) hchannel htypeId hspec (hmatch.decode _ _ hview hfull)
          let record : Record := ⟨channel, typeId, layout, hlayout, tail.take layout.size, hfull⟩
          have hnext : bytes.contents.drop (offset + (2 + spec.size)) = tail.drop layout.size := by
            rw [← Nat.add_assoc, ← List.drop_drop, htail, hsize]
          obtain ⟨records, rest, hrest, hstuck, hdecode⟩ := ih (bytes.length - (offset + (2 + spec.size))) (by omega) (by omega)
            (readings ++ [⟨channel, typeId, spec.kind, readFields arith layout.fields (tail.take layout.size), spec.unit⟩]) rfl
          refine ⟨record :: records, rest, ?_, hstuck, ?_⟩
          · have hsplit : tail = tail.take layout.size ++ (records.flatMap Record.bytes ++ rest) := by
              rw [← hrest, hnext, List.take_append_drop]
            rw [hdrop, List.flatMap_cons]
            conv_lhs => rw [hsplit]
            simp [Record.bytes, record]
          · rw [hloop, hdecode, hmatch.kind, hmatch.unit]
            simp [Record.reading, record]

-- The result, which no byte of the memory but the view's own has a part in.
theorem decode_exact (arith : Arithmetic) (bytes : Uint8Array) :
    ∃ (records : List Record) (rest : List UInt8), bytes.contents = records.flatMap Record.bytes ++ rest ∧
      (∀ (records' : List Record) (rest' : List UInt8), bytes.contents = records'.flatMap Record.bytes ++ rest' →
        records'.flatMap Record.bytes <+: records.flatMap Record.bytes) ∧
      decodeCayenneLpp arith bytes = some { readings := records.map (Record.reading arith), truncated := decide (rest ≠ []) } ∧
      (records.map (Record.reading arith)).flatMap encodeReading = records.flatMap Record.bytes := by
  obtain ⟨records, rest, hrest, hstuck, hdecode⟩ := decodesFrom arith bytes (Nat.zero_le _) []
  rw [List.drop_zero] at hrest
  refine ⟨records, rest, hrest, ?_, hdecode, ?_⟩
  · intro records' rest' hother
    exact prefix_of_stuck records_prefixFree hstuck (hrest.symm.trans hother)
  · rw [List.flatMap_map]
    exact List.flatMap_congr fun record _ => encodeReading_reading arith record

end MeshClient.Meshtastic.Cayenne
