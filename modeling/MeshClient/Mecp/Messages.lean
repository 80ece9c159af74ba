import MeshClient.Js.Text

namespace MeshClient.Mecp

open Lists Js

-- 0 is MAYDAY, 1 URGENT, 2 SAFETY, 3 ROUTINE.
abbrev Severity := Fin 4

instance Severity.neZero : NeZero 4 := ⟨by decide⟩

structure Coords where
  lat : ℚ
  lon : ℚ
deriving DecidableEq

-- The fields of a decoded message that the incident store reads.
structure MecpParsed where
  severity : Option Severity
  codes : List String
  isDrill : Bool
  freetext : Option String
deriving DecidableEq

def isBeacon (codes : List String) : Bool := codes.contains "B01"

def isBeaconAck (codes : List String) : Bool := codes.contains "B02"

def isBeaconCancel (codes : List String) : Bool := codes.contains "B03"

-- One match of `/#?(-?\d+\.\d+),\s*(-?\d+\.\d+)/` at the front: both numbers and the rest.
def matchCoords (cs : List Char) : Option (List Char × List Char × List Char) :=
  let body := match cs with
    | '#' :: rest => rest
    | _ => cs
  match readDecimal body with
  | some (lat, ',' :: rest) =>
      match readDecimal (rest.dropWhile isSpace) with
      | some (lon, rest) => some (lat, lon, rest)
      | none => none
  | _ => none

def firstCoords : List Char → Option (List Char × List Char)
  | [] => none
  | c :: cs =>
      match matchCoords (c :: cs) with
      | some (lat, lon, _) => some (lat, lon)
      | none => firstCoords cs

-- Replaces every match by a blank; `skip` characters are still part of the last match.
def replaceCoords (skip : Nat) : List Char → List Char
  | [] => []
  | c :: cs =>
      if 0 < skip then replaceCoords (skip - 1) cs
      else match matchCoords (c :: cs) with
        | some (_, _, rest) => ' ' :: replaceCoords (cs.length - rest.length) cs
        | none => c :: replaceCoords 0 cs

variable (js : Runtime)

def extractMecpCoords (freetext : String) : Option Coords :=
  match firstCoords freetext.toList with
  | some (latText, lonText) =>
      match js.parseFloat (String.ofList latText), js.parseFloat (String.ofList lonText) with
      | some lat, some lon =>
          if lat < -90 ∨ lat > 90 ∨ lon < -180 ∨ lon > 180 then none else some ⟨lat, lon⟩
      | _, _ => none
  | none => none

def stripMecpCoordsFromFreetext (freetext : String) : String :=
  trim (collapseSpaces (String.ofList (replaceCoords 0 freetext.toList)))

def normalizeMecpFreetext (freetext : String) : String :=
  js.toLowerCase (collapseSpaces (trim freetext))

def normalizeMecpFreetextForMatch (freetext : String) : String :=
  normalizeMecpFreetext js (stripMecpCoordsFromFreetext freetext)

-- Both running hashes are the signed 32-bit numbers of `Math.imul`, kept as their bits.
def cyrb53 (str : String) : String :=
  let h := (codeUnits str).foldl
    (fun (h : UInt32 × UInt32) ch =>
      ((h.1 ^^^ UInt32.ofNat ch) * (2654435761 : UInt32),
        (h.2 ^^^ UInt32.ofNat ch) * (1597334677 : UInt32)))
    ((0xdeadbeef : UInt32), (0x41c6ce57 : UInt32))
  let h1 : UInt32 := ((h.1 ^^^ (h.1 >>> (16 : UInt32))) * (2246822507 : UInt32)) ^^^
    ((h.2 ^^^ (h.2 >>> (13 : UInt32))) * (3266489909 : UInt32))
  let h2 : UInt32 := ((h.2 ^^^ (h.2 >>> (16 : UInt32))) * (2246822507 : UInt32)) ^^^
    ((h1 ^^^ (h1 >>> (13 : UInt32))) * (3266489909 : UInt32))
  let digits := Nat.toDigits 16 (4294967296 * (h2.toNat % 2097152) + h1.toNat)
  String.ofList (List.replicate (14 - digits.length) '0' ++ digits)

def normalizedCodes (codes : List String) : String :=
  ",".intercalate (sortStrings (unique (codes.map fun c => js.toUpperCase (trim c))))

def incidentFingerprint (severity : Severity) (codes : List String) (freetext senderId : String) :
    String :=
  let key := "|".intercalate [toString severity.val, normalizedCodes js codes,
    normalizeMecpFreetextForMatch js freetext, js.toLowerCase (trim senderId)]
  "mecp-" ++ cyrb53 key

def incidentPayloadMatchKey (severity : Severity) (codes : List String) (freetext : String) :
    String :=
  "|".intercalate [toString severity.val, normalizedCodes js codes,
    normalizeMecpFreetextForMatch js freetext]

-- Neither the order of the codes nor repeating one matters to an incident's identity.
theorem normalizedCodes_congr {codes codes' : List String} (h : ∀ c, c ∈ codes ↔ c ∈ codes') :
    normalizedCodes js codes = normalizedCodes js codes' := by
  unfold normalizedCodes
  rw [sortStrings_unique_congr]
  simp [h]

theorem incidentFingerprint_congr (severity : Severity) {codes codes' : List String}
    {freetext freetext' : String} (senderId : String) (hc : ∀ c, c ∈ codes ↔ c ∈ codes')
    (ht : normalizeMecpFreetextForMatch js freetext = normalizeMecpFreetextForMatch js freetext') :
    incidentFingerprint js severity codes freetext senderId =
      incidentFingerprint js severity codes' freetext' senderId := by
  simp only [incidentFingerprint, normalizedCodes_congr js hc, ht]

theorem incidentPayloadMatchKey_congr (severity : Severity) {codes codes' : List String}
    {freetext freetext' : String} (hc : ∀ c, c ∈ codes ↔ c ∈ codes')
    (ht : normalizeMecpFreetextForMatch js freetext = normalizeMecpFreetextForMatch js freetext') :
    incidentPayloadMatchKey js severity codes freetext =
      incidentPayloadMatchKey js severity codes' freetext' := by
  simp only [incidentPayloadMatchKey, normalizedCodes_congr js hc, ht]

end MeshClient.Mecp
