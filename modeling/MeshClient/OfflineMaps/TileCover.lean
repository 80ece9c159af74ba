import MeshClient.OfflineMaps.TileMath

namespace MeshClient.OfflineMaps

variable {a b lon west east : ℚ}

theorem remainder_spec (a : ℚ) (hb : 0 < b) :
    ∃ k : ℤ, remainder a b = a - b * k ∧ -b < remainder a b ∧ remainder a b < b ∧ (0 ≤ a → 0 ≤ remainder a b) := by
  unfold remainder
  have hquotient : b * (a / b) = a := mul_div_cancel₀ a hb.ne'
  split_ifs with h
  · refine ⟨⌊a / b⌋, rfl, ?_, ?_, ?_⟩
    · have hfloor := mul_le_mul_of_nonneg_left (Int.floor_le (a / b)) hb.le
      linarith
    · have hfloor := mul_lt_mul_of_pos_left (Int.lt_floor_add_one (a / b)) hb
      linarith
    · intro _
      have hfloor := mul_le_mul_of_nonneg_left (Int.floor_le (a / b)) hb.le
      linarith
  · refine ⟨⌈a / b⌉, rfl, ?_, ?_, ?_⟩
    · have hceil := mul_lt_mul_of_pos_left (Int.ceil_lt_add_one (a / b)) hb
      linarith
    · have hceil := mul_le_mul_of_nonneg_left (Int.le_ceil (a / b)) hb.le
      linarith
    · intro ha
      exact absurd (div_nonneg ha hb.le) h

-- The longitude is moved by whole turns, and at the antimeridian it keeps its sign.
theorem normalizeLon_spec (lon : ℚ) : ∃ k : ℤ, lon = normalizeLon lon + 360 * k ∧
    (-180 < normalizeLon lon ∧ normalizeLon lon < 180 ∨ normalizeLon lon = -180 ∧ lon < 0 ∨ normalizeLon lon = 180 ∧ 0 ≤ lon) := by
  obtain ⟨k, hk, hlow, _, _⟩ := remainder_spec (lon + 180) (show (0 : ℚ) < 360 by norm_num)
  obtain ⟨j, hj, _, hhigh, hpos⟩ := remainder_spec (remainder (lon + 180) 360 + 360) (show (0 : ℚ) < 360 by norm_num)
  have hnonneg := hpos (by linarith)
  unfold normalizeLon
  dsimp only
  generalize remainder (remainder (lon + 180) 360 + 360) 360 = m at *
  split_ifs with hedge hneg
  · refine ⟨k + j - 1, ?_, .inr (.inl ⟨rfl, hneg⟩)⟩
    push_cast
    linarith
  · refine ⟨k + j - 2, ?_, .inr (.inr ⟨rfl, by linarith⟩)⟩
    push_cast
    linarith
  · refine ⟨k + j - 1, ?_, .inl ⟨?_, by linarith⟩⟩
    · push_cast
      linarith
    · exact lt_of_le_of_ne (by linarith) (Ne.symm hedge)

theorem normalizeLon_bounds (lon : ℚ) : -180 ≤ normalizeLon lon ∧ normalizeLon lon ≤ 180 := by
  obtain ⟨_, _, h | h | h⟩ := normalizeLon_spec lon
  · exact ⟨h.1.le, h.2.le⟩
  · rw [h.1]
    norm_num
  · rw [h.1]
    norm_num

theorem turns_lt {k j : ℤ} {x y : ℚ} (hlt : x < y) (h : y + 360 * k ≤ x + 360 * j) : k + 1 ≤ j := by
  have hcast : (k : ℚ) < j := by linarith
  exact_mod_cast hcast

theorem normalizeLon_of_bounds (hlow : -180 ≤ lon) (hhigh : lon ≤ 180) : normalizeLon lon = lon := by
  obtain ⟨k, hk, hcases⟩ := normalizeLon_spec lon
  have hzero : k = 0 := by
    have hnear : -1 < (k : ℚ) ∧ (k : ℚ) < 1 := by
      obtain h | h | h := hcases
      all_goals constructor <;> linarith [h.1, h.2]
    have hlt : -1 < k ∧ k < 1 := by exact_mod_cast hnear
    omega
  rw [hzero, Int.cast_zero] at hk
  linarith

-- Outside of the longitudes from `west` on to `east`, where both are normalized.
def Outside (west east lon : ℚ) : Prop := if west ≤ east then lon < west ∨ east < lon else east < lon ∧ lon < west

-- Within less than a turn, normalizing keeps the longitudes between the edges.
theorem not_outside_of_lt (hwest : west ≤ lon) (heast : lon ≤ east) (hspan : east < west + 360) :
    ¬ Outside (normalizeLon west) (normalizeLon east) (normalizeLon lon) := by
  obtain ⟨i, hi, hi'⟩ := normalizeLon_spec west
  obtain ⟨j, hj, hj'⟩ := normalizeLon_spec east
  obtain ⟨k, hk, hk'⟩ := normalizeLon_spec lon
  have bounds := normalizeLon_bounds lon
  have westBounds := normalizeLon_bounds west
  have eastBounds := normalizeLon_bounds east
  generalize normalizeLon west = w at *
  generalize normalizeLon east = e at *
  generalize normalizeLon lon = n at *
  unfold Outside
  split_ifs with h
  · have hturns : j ≤ i := by
      have hcast : (j : ℚ) < i + 1 := by linarith
      have hlt : j < i + 1 := by exact_mod_cast hcast
      omega
    have hturnsCast : (j : ℚ) ≤ i := by exact_mod_cast hturns
    intro hout
    obtain hlow | hhigh := hout
    · have hk1 : i + 1 ≤ k := turns_lt hlow (by linarith)
      have hk1Cast : (i : ℚ) + 1 ≤ k := by exact_mod_cast hk1
      -- only both names of the antimeridian are left, and they differ in sign
      have hn : n = -180 := by linarith
      have he : e = 180 := by linarith
      have hneg : lon < 0 := by
        obtain h | h | h := hk'
        · linarith [h.1]
        · exact h.2
        · linarith [h.1]
      have hpos : 0 ≤ east := by
        obtain h | h | h := hj'
        · linarith [h.2]
        · linarith [h.1]
        · exact h.2
      linarith
    · have hk1 : k + 1 ≤ j := turns_lt hhigh (by linarith)
      have hk1Cast : (k : ℚ) + 1 ≤ j := by exact_mod_cast hk1
      have hn : n = 180 := by linarith
      have hw : w = -180 := by linarith
      have hpos : 0 ≤ lon := by
        obtain h | h | h := hk'
        · linarith [h.2]
        · linarith [h.1]
        · exact h.2
      have hneg : west < 0 := by
        obtain h | h | h := hi'
        · linarith [h.1]
        · exact h.2
        · linarith [h.1]
      linarith
  · intro ⟨hlow, hhigh⟩
    have hk1 : i + 1 ≤ k := turns_lt hhigh (by linarith)
    have hk2 : k + 1 ≤ j := turns_lt hlow (by linarith)
    have hcast : (i : ℚ) + 2 ≤ j := by exact_mod_cast (show i + 2 ≤ j by omega)
    linarith

variable {formula : TileFormula} {bounds : LatLonBounds} {zoom minZoom maxZoom : ℚ} {tile : WebMercatorTile} {x z : ℕ}

theorem mem_upTo {first last i : ℕ} : i ∈ upTo first last ↔ first ≤ i ∧ i ≤ last := by
  rw [upTo, List.mem_range'_1]
  omega

theorem nodup_upTo (first last : ℕ) : (upTo first last).Nodup := List.nodup_range'

theorem length_upTo (first last : ℕ) : (upTo first last).length = last + 1 - first := List.length_range'

theorem clampZoom_natCast (z : ℕ) : clampZoom z = min 22 z := by
  rw [clampZoom, Int.floor_natCast]
  omega

theorem clampZoom_clampZoom (zoom : ℚ) : clampZoom (clampZoom zoom : ℕ) = clampZoom zoom := by
  rw [clampZoom_natCast]
  unfold clampZoom
  omega

theorem clampLat_mono {a b : ℚ} (h : a ≤ b) : clampLat a ≤ clampLat b := max_le_max le_rfl (min_le_min le_rfl h)

theorem clampLat_clampLat (lat : ℚ) : clampLat (clampLat lat) = clampLat lat := by
  have hlow : -WEB_MERCATOR_MAX_LAT ≤ clampLat lat := le_max_left _ _
  have hhigh : clampLat lat ≤ WEB_MERCATOR_MAX_LAT := by
    refine max_le ?_ (min_le_left _ _)
    norm_num [WEB_MERCATOR_MAX_LAT]
  rw [clampLat, min_eq_right hhigh, max_eq_right hlow]

-- The tile columns of the region at a zoom, in the order of the download.
def columns (formula : TileFormula) (bounds : LatLonBounds) (z : ℕ) : List ℕ :=
  if normalizeLon bounds.west ≤ normalizeLon bounds.east then
    upTo (formula.column z (normalizeLon bounds.west)) (formula.column z (normalizeLon bounds.east))
  else
    List.range' (formula.column z (normalizeLon bounds.west)) (2 ^ z - formula.column z (normalizeLon bounds.west)) ++
      upTo 0 (formula.column z (normalizeLon bounds.east))

def rows (formula : TileFormula) (bounds : LatLonBounds) (z : ℕ) : List ℕ :=
  upTo (formula.row z (clampLat bounds.north)) (formula.row z (clampLat bounds.south))

def grid (z : ℕ) (columns rows : List ℕ) : List WebMercatorTile :=
  columns.flatMap fun x => rows.map fun y => ⟨z, x, y⟩

theorem mem_grid {cols lines : List ℕ} : tile ∈ grid z cols lines ↔ tile.z = z ∧ tile.x ∈ cols ∧ tile.y ∈ lines := by
  simp only [grid, List.mem_flatMap, List.mem_map]
  constructor
  · intro ⟨x, hx, y, hy, heq⟩
    subst heq
    exact ⟨rfl, hx, hy⟩
  · intro ⟨hz, hx, hy⟩
    exact ⟨tile.x, hx, tile.y, hy, by rw [← hz]⟩

theorem length_grid (z : ℕ) (cols lines : List ℕ) : (grid z cols lines).length = cols.length * lines.length := by
  induction cols with
  | nil => simp [grid]
  | cons x cols ih =>
      rw [grid, List.flatMap_cons, List.length_append, List.length_map, List.length_cons, Nat.succ_mul, Nat.add_comm]
      exact congrArg (· + lines.length) ih

theorem nodup_grid {cols lines : List ℕ} (hne : lines ≠ []) (hlines : lines.Nodup) :
    (grid z cols lines).Nodup ↔ cols.Nodup := by
  have hline : ∀ x, (lines.map fun y => (⟨z, x, y⟩ : WebMercatorTile)).Nodup := by
    intro x
    refine hlines.map ?_
    intro y y' heq
    exact congrArg WebMercatorTile.y heq
  have hapart : ∀ x x', List.Disjoint (lines.map fun y => (⟨z, x, y⟩ : WebMercatorTile)) (lines.map fun y => ⟨z, x', y⟩) ↔ x ≠ x' := by
    intro x x'
    constructor
    · intro hdisjoint heq
      subst heq
      obtain ⟨y, hy⟩ := List.exists_mem_of_ne_nil lines hne
      exact hdisjoint (List.mem_map_of_mem hy) (List.mem_map_of_mem hy)
    · intro hdiffer tile hx hx'
      obtain ⟨y, _, rfl⟩ := List.mem_map.mp hx
      obtain ⟨y', _, heq⟩ := List.mem_map.mp hx'
      exact hdiffer (congrArg WebMercatorTile.x heq).symm
  rw [grid, List.nodup_flatMap, List.Nodup]
  refine ⟨fun h => h.2.imp fun hd => (hapart _ _).mp hd, fun h => ⟨fun x _ => hline x, h.imp fun hd => (hapart _ _).mpr hd⟩⟩

theorem tiles_eq (hlat : bounds.south ≤ bounds.north) :
    tilesForBoundsAtZoom formula bounds zoom = grid (clampZoom zoom) (columns formula bounds (clampZoom zoom))
      (rows formula bounds (clampZoom zoom)) := by
  unfold tilesForBoundsAtZoom columns
  simp only [latLonToTile, clampZoom_clampZoom, clampLat_clampLat]
  rw [if_neg (not_not_intro (clampLat_mono hlat))]
  split_ifs
  · rfl
  · rw [grid, List.flatMap_append]
    rfl

theorem rows_ne_nil (hlat : bounds.south ≤ bounds.north) : rows formula bounds z ≠ [] := by
  have hrow := formula.row_anti z (clampLat_mono hlat)
  have hmem : formula.row z (clampLat bounds.north) ∈ rows formula bounds z := mem_upTo.mpr ⟨le_rfl, hrow⟩
  exact List.ne_nil_of_mem hmem

theorem nodup_columns : (columns formula bounds z).Nodup ↔
    (normalizeLon bounds.east < normalizeLon bounds.west →
      formula.column z (normalizeLon bounds.east) < formula.column z (normalizeLon bounds.west)) := by
  unfold columns
  have hlt := formula.column_lt z (normalizeLon bounds.west)
  split_ifs with h
  · exact iff_of_true (nodup_upTo _ _) fun hcross => absurd h (not_le.mpr hcross)
  · rw [List.nodup_append]
    constructor
    · intro ⟨_, _, hapart⟩ _
      by_contra hle
      refine hapart (formula.column z (normalizeLon bounds.west)) ?_ _ (mem_upTo.mpr ⟨Nat.zero_le _, not_lt.mp hle⟩) rfl
      rw [List.mem_range'_1]
      omega
    · intro hcross
      refine ⟨List.nodup_range', nodup_upTo _ _, ?_⟩
      intro i hi j hj heq
      have hbelow := hcross (not_le.mp h)
      rw [List.mem_range'_1] at hi
      rw [mem_upTo] at hj
      omega

theorem mem_columns : x ∈ columns formula bounds z ↔
    if normalizeLon bounds.west ≤ normalizeLon bounds.east then
      formula.column z (normalizeLon bounds.west) ≤ x ∧ x ≤ formula.column z (normalizeLon bounds.east)
    else formula.column z (normalizeLon bounds.west) ≤ x ∧ x < 2 ^ z ∨ x ≤ formula.column z (normalizeLon bounds.east) := by
  have hlt := formula.column_lt z (normalizeLon bounds.west)
  unfold columns
  split_ifs
  · exact mem_upTo
  · rw [List.mem_append, List.mem_range'_1, mem_upTo]
    omega

-- A longitude between the edges has its column in the region; one outside shares it with an edge, or is missing.
theorem column_mem_iff (lon : ℚ) : formula.column z lon ∈ columns formula bounds z ↔
    (Outside (normalizeLon bounds.west) (normalizeLon bounds.east) lon →
      formula.column z lon = formula.column z (normalizeLon bounds.west) ∨
        formula.column z lon = formula.column z (normalizeLon bounds.east)) := by
  have hlt := formula.column_lt z lon
  have hmono := formula.column_mono z
  rw [mem_columns]
  unfold Outside
  split_ifs with h
  · have hedges := hmono h
    constructor
    · intro ⟨hlow, hhigh⟩ hout
      obtain hout | hout := hout
      · exact .inl (le_antisymm (hmono hout.le) hlow)
      · exact .inr (le_antisymm hhigh (hmono hout.le))
    · intro hshared
      by_cases hout : lon < normalizeLon bounds.west ∨ normalizeLon bounds.east < lon
      · have heq := hshared hout
        omega
      · rw [not_or, not_lt, not_lt] at hout
        exact ⟨hmono hout.1, hmono hout.2⟩
  · constructor
    · intro hmem hout
      have hlow := hmono hout.1.le
      have hhigh := hmono hout.2.le
      omega
    · intro hshared
      by_cases hout : normalizeLon bounds.east < lon ∧ lon < normalizeLon bounds.west
      · have heq := hshared hout
        omega
      · rw [not_and_or, not_lt, not_lt] at hout
        obtain hout | hout := hout
        · exact .inr (hmono hout)
        · exact .inl ⟨hmono hout, hlt⟩

end MeshClient.OfflineMaps
