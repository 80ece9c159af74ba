import MeshClient.Lib.Lists

namespace MeshClient.OfflineMaps

def WEB_MERCATOR_MAX_LAT : ℚ := 85.05112878

structure LatLonBounds where
  north : ℚ
  south : ℚ
  east : ℚ
  west : ℚ

structure WebMercatorTile where
  z : ℕ
  x : ℕ
  y : ℕ
deriving DecidableEq

def clampLat (lat : ℚ) : ℚ := max (-WEB_MERCATOR_MAX_LAT) (min WEB_MERCATOR_MAX_LAT lat)

-- `a % b`
def remainder (a b : ℚ) : ℚ := a - b * (if 0 ≤ a / b then ⌊a / b⌋ else ⌈a / b⌉ : ℤ)

def normalizeLon (lon : ℚ) : ℚ :=
  let m := remainder (remainder (lon + 180) 360 + 360) 360 - 180
  if m = -180 then (if lon < 0 then -180 else 180) else m

-- What the floating-point formulas of the tile column and the tile row give at a zoom.
structure TileFormula where
  column : ℕ → ℚ → ℕ
  row : ℕ → ℚ → ℕ
  column_mono : ∀ z, Monotone (column z)
  row_anti : ∀ z, Antitone (row z)
  column_lt : ∀ z lon, column z lon < 2 ^ z
  row_lt : ∀ z lat, row z lat < 2 ^ z

def clampZoom (zoom : ℚ) : ℕ := (max 0 (min 22 ⌊zoom⌋)).toNat

def latLonToTile (formula : TileFormula) (lat lon zoom : ℚ) : WebMercatorTile where
  z := clampZoom zoom
  x := formula.column (clampZoom zoom) lon
  y := formula.row (clampZoom zoom) (clampLat lat)

def tileCountForBoundsAtZoom (formula : TileFormula) (bounds : LatLonBounds) (zoom : ℚ) : ℤ :=
  let z := clampZoom zoom
  let north := clampLat bounds.north
  let south := clampLat bounds.south
  if ¬ south ≤ north then 0
  else
    let west := normalizeLon bounds.west
    let east := normalizeLon bounds.east
    let nw := latLonToTile formula north west z
    let se := latLonToTile formula south east z
    let height : ℤ := se.y - nw.y + 1
    if height ≤ 0 then 0
    else if west ≤ east then
      let width : ℤ := se.x - nw.x + 1
      if 0 < width then width * height else 0
    else
      let widthWest : ℤ := 2 ^ z - nw.x
      let widthEast : ℤ := se.x + 1
      (widthWest + widthEast) * height

-- `for (let i = first; i <= last; i++)`
def upTo (first last : ℕ) : List ℕ := List.range' first (last + 1 - first)

def tilesForBoundsAtZoom (formula : TileFormula) (bounds : LatLonBounds) (zoom : ℚ) : List WebMercatorTile :=
  let z := clampZoom zoom
  let north := clampLat bounds.north
  let south := clampLat bounds.south
  if ¬ south ≤ north then []
  else
    let west := normalizeLon bounds.west
    let east := normalizeLon bounds.east
    let nw := latLonToTile formula north west z
    let se := latLonToTile formula south east z
    let tilesOf := fun x => (upTo nw.y se.y).map fun y => (⟨z, x, y⟩ : WebMercatorTile)
    if west ≤ east then (upTo nw.x se.x).flatMap tilesOf
    else (List.range' nw.x (2 ^ z - nw.x)).flatMap tilesOf ++ (upTo 0 se.x).flatMap tilesOf

def lowestZoom (minZoom : ℚ) : ℕ := (max 0 ⌊minZoom⌋).toNat

def highestZoom (minZoom maxZoom : ℚ) : ℕ := (max (lowestZoom minZoom : ℤ) ⌊maxZoom⌋).toNat

def zooms (minZoom maxZoom : ℚ) : List ℕ := upTo (lowestZoom minZoom) (highestZoom minZoom maxZoom)

def estimateTileCount (formula : TileFormula) (bounds : LatLonBounds) (minZoom maxZoom : ℚ) : ℤ :=
  (zooms minZoom maxZoom).foldl (fun total (z : ℕ) => total + tileCountForBoundsAtZoom formula bounds z) 0

def enumerateRegionTiles (formula : TileFormula) (bounds : LatLonBounds) (minZoom maxZoom : ℚ) : List WebMercatorTile :=
  (zooms minZoom maxZoom).foldl (fun out (z : ℕ) => out ++ tilesForBoundsAtZoom formula bounds z) []

end MeshClient.OfflineMaps
