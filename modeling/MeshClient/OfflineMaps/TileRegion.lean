import MeshClient.OfflineMaps.TileCover

namespace MeshClient.OfflineMaps

variable {formula : TileFormula} {bounds : LatLonBounds} {zoom minZoom maxZoom : ℚ} {tile : WebMercatorTile}

theorem foldl_append {α β : Type} (f : α → List β) (xs : List α) (out : List β) :
    xs.foldl (fun out x => out ++ f x) out = out ++ xs.flatMap f := by
  induction xs generalizing out with
  | nil => simp
  | cons x xs ih => rw [List.foldl_cons, ih, List.flatMap_cons, List.append_assoc]

theorem enumerate_eq : enumerateRegionTiles formula bounds minZoom maxZoom =
    (zooms minZoom maxZoom).flatMap fun z : ℕ => tilesForBoundsAtZoom formula bounds z := by
  rw [enumerateRegionTiles, foldl_append, List.nil_append]

-- The count of a zoom is the number of its tiles.
theorem tileCount_eq (hlat : bounds.south ≤ bounds.north) :
    tileCountForBoundsAtZoom formula bounds zoom = (tilesForBoundsAtZoom formula bounds zoom).length := by
  have hrow := formula.row_anti (clampZoom zoom) (clampLat_mono hlat)
  have hrows : ((rows formula bounds (clampZoom zoom)).length : ℤ) =
      formula.row (clampZoom zoom) (clampLat bounds.south) - formula.row (clampZoom zoom) (clampLat bounds.north) + 1 := by
    rw [rows, length_upTo]
    omega
  rw [tiles_eq hlat, length_grid, Nat.cast_mul, hrows]
  unfold tileCountForBoundsAtZoom columns
  simp only [latLonToTile, clampZoom_clampZoom, clampLat_clampLat]
  rw [if_neg (not_not_intro (clampLat_mono hlat)), if_neg (by omega)]
  split_ifs with hlon hwidth
  · rw [length_upTo]
    congr 1
    omega
  · have hcol := formula.column_mono (clampZoom zoom) hlon
    omega
  · have hcol := formula.column_lt (clampZoom zoom) (normalizeLon bounds.west)
    rw [List.length_append, List.length_range', length_upTo]
    congr 1
    push_cast [hcol.le]
    omega

theorem length_enumerate (hlat : bounds.south ≤ bounds.north) :
    ((enumerateRegionTiles formula bounds minZoom maxZoom).length : ℤ) = estimateTileCount formula bounds minZoom maxZoom := by
  have hfold : ∀ (zs : List ℕ) (out : List WebMercatorTile),
      ((zs.foldl (fun out (z : ℕ) => out ++ tilesForBoundsAtZoom formula bounds z) out).length : ℤ) =
        zs.foldl (fun total (z : ℕ) => total + tileCountForBoundsAtZoom formula bounds z) (out.length : ℤ) := by
    intro zs
    induction zs with
    | nil => exact fun out => rfl
    | cons z zs ih =>
        intro out
        rw [List.foldl_cons, List.foldl_cons, ih, List.length_append, Nat.cast_add, tileCount_eq hlat]
  exact hfold (zooms minZoom maxZoom) []

theorem lowest_le_highest (minZoom maxZoom : ℚ) : lowestZoom minZoom ≤ highestZoom minZoom maxZoom := by
  unfold highestZoom
  omega

theorem mem_zooms {z : ℕ} : z ∈ zooms minZoom maxZoom ↔ lowestZoom minZoom ≤ z ∧ z ≤ highestZoom minZoom maxZoom := mem_upTo

theorem z_of_mem (hlat : bounds.south ≤ bounds.north) (h : tile ∈ tilesForBoundsAtZoom formula bounds zoom) :
    tile.z = clampZoom zoom := by
  rw [tiles_eq hlat, mem_grid] at h
  exact h.1

theorem tiles_ne_nil (hlat : bounds.south ≤ bounds.north) : tilesForBoundsAtZoom formula bounds zoom ≠ [] := by
  obtain ⟨y, hy⟩ := List.exists_mem_of_ne_nil _ (@rows_ne_nil formula bounds (clampZoom zoom) hlat)
  have hwest : formula.column (clampZoom zoom) (normalizeLon bounds.west) ∈ columns formula bounds (clampZoom zoom) :=
    (column_mem_iff _).mpr fun _ => .inl rfl
  have hmem : ⟨clampZoom zoom, formula.column (clampZoom zoom) (normalizeLon bounds.west), y⟩ ∈
      tilesForBoundsAtZoom formula bounds zoom := by
    rw [tiles_eq hlat, mem_grid]
    exact ⟨rfl, hwest, hy⟩
  exact List.ne_nil_of_mem hmem

-- Zooms above 22 have the tiles of zoom 22.
theorem nodup_enumerate (hlat : bounds.south ≤ bounds.north) : (enumerateRegionTiles formula bounds minZoom maxZoom).Nodup ↔
    (highestZoom minZoom maxZoom ≤ 22 ∨ highestZoom minZoom maxZoom ≤ lowestZoom minZoom) ∧
      ∀ z ∈ zooms minZoom maxZoom, normalizeLon bounds.east < normalizeLon bounds.west →
        formula.column (clampZoom z) (normalizeLon bounds.east) < formula.column (clampZoom z) (normalizeLon bounds.west) := by
  have hzoom : ∀ z : ℕ, (tilesForBoundsAtZoom formula bounds z).Nodup ↔
      (normalizeLon bounds.east < normalizeLon bounds.west →
        formula.column (clampZoom z) (normalizeLon bounds.east) < formula.column (clampZoom z) (normalizeLon bounds.west)) := by
    intro z
    rw [tiles_eq hlat, nodup_grid (rows_ne_nil hlat) (nodup_upTo _ _), nodup_columns]
  have hle := lowest_le_highest minZoom maxZoom
  rw [enumerate_eq, List.nodup_flatMap, and_comm]
  refine and_congr ⟨?_, ?_⟩ (forall₂_congr fun z _ => hzoom z)
  · intro hapart
    by_contra hzooms
    rw [not_or, not_le, not_le] at hzooms
    have hsymm : Std.Symm (Function.onFun List.Disjoint fun z : ℕ => tilesForBoundsAtZoom formula bounds z) :=
      ⟨fun _ _ h => h.symm⟩
    have hlast : highestZoom minZoom maxZoom ∈ zooms minZoom maxZoom := mem_zooms.mpr ⟨hle, le_rfl⟩
    have hbefore : highestZoom minZoom maxZoom - 1 ∈ zooms minZoom maxZoom := mem_zooms.mpr ⟨by omega, by omega⟩
    have hdisjoint := hapart.forall hbefore hlast (by omega)
    have hclamp : clampZoom ((highestZoom minZoom maxZoom - 1 : ℕ) : ℚ) = clampZoom (highestZoom minZoom maxZoom : ℕ) := by
      rw [clampZoom_natCast, clampZoom_natCast]
      omega
    obtain ⟨tile, htile⟩ := List.exists_mem_of_ne_nil _ (@tiles_ne_nil formula bounds (highestZoom minZoom maxZoom : ℕ) hlat)
    refine hdisjoint ?_ htile
    change tile ∈ tilesForBoundsAtZoom formula bounds ((highestZoom minZoom maxZoom - 1 : ℕ) : ℚ)
    rw [tiles_eq hlat] at htile ⊢
    rw [hclamp]
    exact htile
  · intro hzooms
    refine (nodup_upTo _ _).imp_of_mem ?_
    intro z z' hz hz' hdiffer tile htile htile'
    have heq := (z_of_mem hlat htile).symm.trans (z_of_mem hlat htile')
    rw [clampZoom_natCast, clampZoom_natCast] at heq
    have hbounds := mem_upTo.mp hz
    have hbounds' := mem_upTo.mp hz'
    omega

-- The longitudes of a region; west of `east` is behind the antimeridian.
def InRange (bounds : LatLonBounds) (lon : ℚ) : Prop :=
  if bounds.west ≤ bounds.east then bounds.west ≤ lon ∧ lon ≤ bounds.east
  else bounds.west ≤ lon ∧ lon ≤ 180 ∨ -180 ≤ lon ∧ lon ≤ bounds.east

structure Fetched (formula : TileFormula) (bounds : LatLonBounds) (minZoom maxZoom : ℚ) : Prop where
  estimated : ((enumerateRegionTiles formula bounds minZoom maxZoom).length : ℤ) = estimateTileCount formula bounds minZoom maxZoom
  once : (enumerateRegionTiles formula bounds minZoom maxZoom).Nodup
  covered : ∀ z ∈ zooms minZoom maxZoom, ∀ lat lon, bounds.south ≤ lat → lat ≤ bounds.north → InRange bounds lon →
    latLonToTile formula lat (normalizeLon lon) z ∈ enumerateRegionTiles formula bounds minZoom maxZoom

theorem mem_enumerate_iff (hlat : bounds.south ≤ bounds.north) {z : ℕ} (hz : z ∈ zooms minZoom maxZoom) {lat lon : ℚ}
    (hsouth : bounds.south ≤ lat) (hnorth : lat ≤ bounds.north) :
    latLonToTile formula lat (normalizeLon lon) z ∈ enumerateRegionTiles formula bounds minZoom maxZoom ↔
      (Outside (normalizeLon bounds.west) (normalizeLon bounds.east) (normalizeLon lon) →
        formula.column (clampZoom z) (normalizeLon lon) = formula.column (clampZoom z) (normalizeLon bounds.west) ∨
          formula.column (clampZoom z) (normalizeLon lon) = formula.column (clampZoom z) (normalizeLon bounds.east)) := by
  have hrow : formula.row (clampZoom z) (clampLat lat) ∈ rows formula bounds (clampZoom z) :=
    mem_upTo.mpr ⟨formula.row_anti _ (clampLat_mono hnorth), formula.row_anti _ (clampLat_mono hsouth)⟩
  rw [← column_mem_iff, enumerate_eq, List.mem_flatMap]
  constructor
  · intro ⟨z', _, hmem⟩
    rw [tiles_eq hlat, mem_grid] at hmem
    have hclamp : clampZoom z = clampZoom z' := hmem.1
    rw [← hclamp] at hmem
    exact hmem.2.1
  · intro hcolumn
    refine ⟨z, hz, ?_⟩
    rw [tiles_eq hlat, mem_grid]
    exact ⟨rfl, hcolumn, hrow⟩

-- Over the antimeridian, every longitude of the region lies between the edges.
theorem not_outside_of_crossing (hcross : bounds.east < bounds.west) (heast : -180 ≤ bounds.east) (hwest : bounds.west ≤ 180)
    {lon : ℚ} (hlon : InRange bounds lon) :
    ¬ Outside (normalizeLon bounds.west) (normalizeLon bounds.east) (normalizeLon lon) := by
  rw [InRange, if_neg (not_le.mpr hcross)] at hlon
  have hbounds : -180 ≤ lon ∧ lon ≤ 180 := by
    obtain h | h := hlon
    · exact ⟨by linarith, h.2⟩
    · exact ⟨h.1, by linarith⟩
  rw [normalizeLon_of_bounds (by linarith) hwest, normalizeLon_of_bounds heast (by linarith),
    normalizeLon_of_bounds hbounds.1 hbounds.2, Outside, if_neg (not_le.mpr hcross)]
  intro hout
  obtain h | h := hlon
  · linarith [h.1, hout.2]
  · linarith [h.2, hout.1]

-- Equal steps in both directions.
def evenPlace (z : ℕ) (part : ℚ) : ℕ := (max 0 (min (2 ^ z - 1) ⌊part * 2 ^ z⌋)).toNat

theorem evenPlace_mono (z : ℕ) : Monotone (evenPlace z) := by
  intro a b h
  have hfloor : ⌊a * 2 ^ z⌋ ≤ ⌊b * 2 ^ z⌋ := Int.floor_le_floor (mul_le_mul_of_nonneg_right h (by positivity))
  unfold evenPlace
  omega

theorem evenPlace_lt (z : ℕ) (part : ℚ) : evenPlace z part < 2 ^ z := by
  have hpos : 0 < 2 ^ z := Nat.two_pow_pos z
  have hcast : ((2 ^ z : ℕ) : ℤ) = 2 ^ z := by push_cast; rfl
  unfold evenPlace
  omega

def evenFormula : TileFormula where
  column z lon := evenPlace z ((lon + 180) / 360)
  row z lat := evenPlace z ((90 - lat) / 180)
  column_mono z _ _ h := evenPlace_mono z (by linarith)
  row_anti z _ _ h := evenPlace_mono z (by linarith)
  column_lt z _ := evenPlace_lt z _
  row_lt z _ := evenPlace_lt z _

end MeshClient.OfflineMaps
