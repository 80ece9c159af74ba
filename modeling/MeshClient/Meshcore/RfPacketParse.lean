import MeshClient.Js.Text
import MeshClient.Lib.Utf8
import MeshClient.Meshcore.RfPath

namespace MeshClient.Meshcore

open Js

def crcBit (crc : UInt32) : UInt32 := (crc >>> 1) ^^^ (0xedb88320 &&& (0 - (crc &&& 1)))

def crcByte (crc : UInt32) (byte : UInt8) : UInt32 := Nat.iterate crcBit 8 (crc ^^^ byte.toUInt32)

def meshCorePacketFingerprintHex (raw : Bytes) : String :=
  (hex 8 (raw.foldl crcByte 0xffffffff ^^^ 0xffffffff).toNat).map Char.toUpper

structure MeshCorePathInvariantPayloadId where
  crcHex : String
  payloadTypeNibble : UInt8
  innerPayload : Bytes
deriving DecidableEq, Repr

def meshCorePathInvariantPayloadId (payloadTypeNibble : UInt8) (innerPayload : Bytes) :
    MeshCorePathInvariantPayloadId :=
  let type := payloadTypeNibble &&& 0x0f
  ⟨meshCorePacketFingerprintHex (type :: innerPayload), type, innerPayload⟩

def meshCorePathInvariantPayloadIdsEqual (a b : MeshCorePathInvariantPayloadId) : Bool :=
  if a.crcHex ≠ b.crcHex then false
  else if a.payloadTypeNibble ≠ b.payloadTypeNibble then false
  else if a.innerPayload.length ≠ b.innerPayload.length then false
  else (a.innerPayload.zip b.innerPayload).all fun (x, y) => x = y

structure MeshCoreAdvertParsed where
  publicKey : Bytes
  timestampSec : UInt32
  signature : Bytes
  flags : UInt8
  deviceRole : UInt8
  hasLocation : Bool
  hasName : Bool
  latitudeDeg : Option ℚ
  longitudeDeg : Option ℚ
  name : String
deriving DecidableEq

structure MeshCorePacketSegment where
  name : String
  startByte : Int
  endByte : Int
  valueHex : Option String := none
  description : Option String := none
deriving DecidableEq, Repr

structure MeshCoreStructureAnalysis where
  messageFingerprintHex : String
  routeTypeString : String
  payloadTypeString : String
  transportCodes : Option (UInt16 × UInt16)
  segments : List MeshCorePacketSegment
  payloadSegments : List MeshCorePacketSegment
deriving DecidableEq, Repr

structure MeshCoreRfParseOk where
  routeTypeString : String
  payloadTypeString : String
  payloadTypeNibble : UInt8
  hopCount : Nat
  pathEndOffset : Nat
  innerPayload : Bytes
  pathBytes : Bytes
  pathHashSizeBytes : Nat
  transportCodes : Option (UInt16 × UInt16)
  messageFingerprintHex : String
  advert : Option MeshCoreAdvertParsed
  structure' : MeshCoreStructureAnalysis
deriving DecidableEq

inductive MeshCoreRfParseResult where
  | ok (packet : MeshCoreRfParseOk)
  | fail (reason : String)
deriving DecidableEq

def leBytes (bytes : Bytes) : Nat := bytes.foldr (fun b n => b.toNat + 0x100 * n) 0

def readU32LE (u8 : Bytes) (offset : Nat) : UInt32 :=
  if offset + 4 > u8.length then 0 else UInt32.ofNat (leBytes ((u8.drop offset).take 4))

-- Signed microdegrees.
def readCoordinateLE (u8 : Bytes) (offset : Nat) : Option ℚ :=
  if offset + 4 > u8.length then none
  else some ((UInt32.ofNat (leBytes ((u8.drop offset).take 4))).toBitVec.toInt / 1000000)

-- `s.replace(/\0+$/g, '').trim()` of the decoded rest.
def utf8Slice (u8 : Bytes) (start : Nat) : String :=
  if start ≥ u8.length then ""
  else
    let s := (Utf8.textDecode (u8.drop start)).toList
    String.ofList (trimChars (s.reverse.dropWhile (· = '\x00')).reverse)

def parseMeshCoreAdvertInner (inner : Bytes) : Option MeshCoreAdvertParsed :=
  let minCore := 32 + 4 + 64 + 1
  if inner.length < minCore then none
  else match (inner[100]? : Option UInt8) with
    | none => none
    | some flags =>
        let hasLocation := (flags >>> 4) &&& 1 = 1
        let hasName := (flags >>> 7) &&& 1 = 1
        let o := if hasLocation then 101 + 8 else 101
        some {
          publicKey := inner.take 32
          timestampSec := readU32LE inner 32
          signature := (inner.drop 36).take 64
          flags
          deviceRole := flags &&& 0x0f
          hasLocation
          hasName
          latitudeDeg := if hasLocation then readCoordinateLE inner 101 else none
          longitudeDeg := if hasLocation then readCoordinateLE inner 105 else none
          name := if hasName ∧ o < inner.length then utf8Slice inner o else "" }

def transportSegments : Option (UInt16 × UInt16) → List MeshCorePacketSegment
  | none => []
  | some (scope, returnRegion) =>
      let scopeNumber := scope.toNat
      let returnNumber := returnRegion.toNat
      [{ name := "Transport scope", startByte := 1, endByte := 2, valueHex := some (hex 4 scopeNumber),
         description := some s!"uint16 LE = {scopeNumber}" },
       { name := "Transport return", startByte := 3, endByte := 4, valueHex := some (hex 4 returnNumber),
         description := some s!"uint16 LE = {returnNumber}" }]

def buildStructure (raw : Bytes) (pathEndOffset : Nat) (transportCodes : Option (UInt16 × UInt16)) :
    Except String MeshCoreStructureAnalysis :=
  match raw[0]? with
  | none => .error "Packet too short for structure analysis"
  | some byte0 =>
      let o := if transportCodes.isSome then 5 else 1
      match raw[o]? with
      | none => .error "Packet too short for path length"
      | some pathLengthByte =>
          let innerLength := (raw.drop pathEndOffset).length
          .ok {
            messageFingerprintHex := meshCorePacketFingerprintHex raw
            routeTypeString := meshCoreRouteTypeStringFromByte0 byte0
            payloadTypeString := meshCorePayloadTypeStringFromByte0 byte0
            transportCodes
            segments :=
              { name := "Header", startByte := 0, endByte := 0, valueHex := some (hex 2 byte0.toNat) } ::
                transportSegments transportCodes ++
              [{ name := "Path length + hash size", startByte := o, endByte := o,
                 valueHex := some (hex 2 pathLengthByte.toNat) },
               { name := "Path hashes", startByte := o + 1, endByte := pathEndOffset - 1 },
               { name := "Inner payload", startByte := pathEndOffset,
                 endByte := max (pathEndOffset : Int) (raw.length - 1) }]
            payloadSegments :=
              if 0 < innerLength then
                [{ name := "Payload bytes", startByte := pathEndOffset, endByte := raw.length - 1,
                   valueHex := some "", description := some s!"{innerLength} bytes" }]
              else [] }

-- Only the path decoder runs under a `try`; what the rest throws, the parser throws.
def parseMeshCoreRfPacket (raw : Bytes) : Except String MeshCoreRfParseResult :=
  if raw.length < 2 then .ok (.fail "buffer too short")
  else match decodeMeshCorePathPrefix raw with
    | .error message => .ok (.fail message)
    | .ok path =>
        match raw[0]? with
        | none => .ok (.fail "buffer too short")
        | some byte0 => do
            let payloadTypeNibble := meshCorePayloadTypeNibble byte0
            let inner := raw.drop path.pathEndOffset
            let structure' ← buildStructure raw path.pathEndOffset path.transportCodes
            pure (.ok {
              routeTypeString := meshCoreRouteTypeStringFromByte0 byte0
              payloadTypeString := meshCorePayloadTypeStringFromByte0 byte0
              payloadTypeNibble
              hopCount := path.hops
              pathEndOffset := path.pathEndOffset
              innerPayload := inner
              pathBytes := path.path
              pathHashSizeBytes := path.hashSizeBytes
              transportCodes := path.transportCodes
              messageFingerprintHex := structure'.messageFingerprintHex
              advert :=
                if payloadTypeNibble = MESHCORE_PAYLOAD_TYPE_ADVERT_NIBBLE ∧ 0 < inner.length then
                  parseMeshCoreAdvertInner inner
                else none
              structure' })

-- What the air format lays down: the header, four transport bytes for two of the routes, the
-- byte that counts the hops and sizes their hashes, the hashes, and whatever follows.
structure RfPacket where
  header : UInt8
  transport : Bytes
  pathLengthByte : UInt8
  pathBytes : Bytes
  innerPayload : Bytes
  transport_length :
    transport.length = if header.toNat % 4 = 0 ∨ header.toNat % 4 = 3 then 4 else 0
  path_length : pathBytes.length = pathLengthByte.toNat % 0x40 * (pathLengthByte.toNat / 0x40 + 1)

def RfPacket.bytes (packet : RfPacket) : Bytes :=
  packet.header :: (packet.transport ++
    packet.pathLengthByte :: (packet.pathBytes ++ packet.innerPayload))

theorem pathHops_eq (b : UInt8) : pathHops b = b.toNat % 0x40 := by
  rw [pathHops, UInt8.toNat_and]
  exact Nat.and_two_pow_sub_one_eq_mod b.toNat 6

theorem pathHashSize_eq (b : UInt8) : pathHashSize b = b.toNat / 0x40 + 1 := by
  have hlt : b.toNat / 0x40 < 4 := by
    have := b.toNat_lt
    omega
  have hshift : (b >>> 6).toNat = b.toNat / 0x40 := by
    rw [UInt8.toNat_shiftRight]
    exact Nat.shiftRight_eq_div_pow b.toNat 6
  rw [pathHashSize, UInt8.toNat_and, hshift]
  exact congrArg (· + 1) ((Nat.and_two_pow_sub_one_eq_mod (b.toNat / 0x40) 2).trans (Nat.mod_eq_of_lt hlt))

theorem hasTransportCodes_iff (b : UInt8) :
    hasTransportCodes b = true ↔ b.toNat % 4 = 0 ∨ b.toNat % 4 = 3 := by
  have hmask : (b &&& MESHCORE_ROUTE_MASK).toNat = b.toNat % 4 := by
    rw [UInt8.toNat_and]
    exact Nat.and_two_pow_sub_one_eq_mod b.toNat 2
  simp only [hasTransportCodes, Bool.or_eq_true, decide_eq_true_eq, ← UInt8.toNat_inj, hmask]
  rfl

def transportCodesOf : Bytes → Option (UInt16 × UInt16)
  | [a, b, c, d] => some (a.toUInt16 + 0x100 * b.toUInt16, c.toUInt16 + 0x100 * d.toUInt16)
  | _ => none

-- The codes as they stand on the air.
def transportBytes : Option (UInt16 × UInt16) → Bytes
  | none => []
  | some (scope, returnRegion) =>
      [scope.toUInt8, (scope >>> 8).toUInt8, returnRegion.toUInt8, (returnRegion >>> 8).toUInt8]

theorem uint16_bytes (low high : UInt8) :
    (low.toUInt16 + 0x100 * high.toUInt16).toUInt8 = low ∧
    ((low.toUInt16 + 0x100 * high.toUInt16) >>> 8).toUInt8 = high := by
  have hlow := low.toNat_lt
  have hhigh := high.toNat_lt
  have hnat : (low.toUInt16 + 0x100 * high.toUInt16).toNat = low.toNat + 0x100 * high.toNat := by
    simp only [UInt16.toNat_add, UInt16.toNat_mul, UInt8.toNat_toUInt16, UInt16.reduceToNat]
    omega
  constructor
  · rw [← UInt8.toNat_inj, UInt16.toNat_toUInt8, hnat]
    omega
  · rw [← UInt8.toNat_inj, UInt16.toNat_toUInt8, UInt16.toNat_shiftRight, hnat]
    simp only [UInt16.reduceToNat, Nat.reduceMod, Nat.shiftRight_eq_div_pow]
    omega

namespace RfPacket

theorem transport_cases (packet : RfPacket) :
    (hasTransportCodes packet.header = true ∧ ∃ a b c d, packet.transport = [a, b, c, d]) ∨
    (hasTransportCodes packet.header = false ∧ packet.transport = []) := by
  by_cases h : hasTransportCodes packet.header = true
  · left
    refine ⟨h, ?_⟩
    have hlen := packet.transport_length
    rw [if_pos ((hasTransportCodes_iff packet.header).mp h)] at hlen
    obtain ⟨a, b, c, d, heq⟩ := List.length_eq_four.mp hlen
    exact ⟨a, b, c, d, heq⟩
  · right
    have hlen := packet.transport_length
    rw [if_neg (mt (hasTransportCodes_iff packet.header).mpr h)] at hlen
    exact ⟨by simpa using h, List.length_eq_zero_iff.mp hlen⟩

end RfPacket

theorem readPath_append (front path rest : Bytes) (b : UInt8) (codes : Option (UInt16 × UInt16))
    (hlen : path.length = pathHops b * pathHashSize b) :
    readPath (front ++ b :: (path ++ rest)) front.length codes =
      .ok ⟨pathHops b, front.length + 1 + path.length, path, pathHashSize b, codes⟩ := by
  have htotal : (front ++ b :: (path ++ rest)).length = front.length + 1 + path.length + rest.length := by
    simp only [List.length_append, List.length_cons]
    omega
  have hbyte : (front ++ b :: (path ++ rest))[front.length]? = some b := by simp
  have hdrop : (front ++ b :: (path ++ rest)).drop (front.length + 1) = path ++ rest := by
    rw [List.drop_append, List.drop_eq_nil_of_le (by omega)]
    simp
  rw [readPath, if_neg (by omega), hbyte]
  simp only [hdrop, ← hlen]
  rw [if_neg (by omega), List.take_left]

-- The other way: whatever the reader takes stands where it was taken from.
theorem readPath_ok {raw : Bytes} {offset : Nat} {codes : Option (UInt16 × UInt16)} {path : PathPrefix}
    (h : readPath raw offset codes = .ok path) :
    ∃ front b hashes rest, raw = front ++ b :: (hashes ++ rest) ∧ front.length = offset ∧
      hashes.length = pathHops b * pathHashSize b := by
  rw [readPath] at h
  by_cases h₁ : raw.length < offset + 1
  · rw [if_pos h₁] at h
    cases h
  · have hoff : offset < raw.length := by omega
    rw [if_neg h₁, List.getElem?_eq_getElem hoff] at h
    by_cases h₂ : raw.length < offset + 1 + pathHops raw[offset] * pathHashSize raw[offset]
    · simp only [if_pos h₂] at h
      cases h
    · refine ⟨raw.take offset, raw[offset],
        (raw.drop (offset + 1)).take (pathHops raw[offset] * pathHashSize raw[offset]),
        (raw.drop (offset + 1)).drop (pathHops raw[offset] * pathHashSize raw[offset]), ?_, ?_, ?_⟩
      · rw [List.take_append_drop, List.getElem_cons_drop, List.take_append_drop]
      · rw [List.length_take]
        omega
      · rw [List.length_take, List.length_drop]
        omega

theorem getUint16LE_ok {raw : Bytes} {offset : Nat} (h : offset + 2 ≤ raw.length) :
    ∃ code, getUint16LE raw offset = .ok code := by
  have hlen : 2 ≤ (raw.drop offset).length := by
    rw [List.length_drop]
    omega
  obtain ⟨low, high, rest, heq⟩ : ∃ low high rest, raw.drop offset = low :: high :: rest := by
    cases hdrop : raw.drop offset with
    | nil => simp [hdrop] at hlen
    | cons low tail =>
        cases tail with
        | nil => simp [hdrop] at hlen
        | cons high rest => exact ⟨low, high, rest, rfl⟩
  exact ⟨_, by rw [getUint16LE, heq]⟩

namespace RfPacket

def front (packet : RfPacket) : Bytes := packet.header :: packet.transport

theorem bytes_eq (packet : RfPacket) :
    packet.bytes = packet.front ++ packet.pathLengthByte :: (packet.pathBytes ++ packet.innerPayload) := rfl

theorem bytes_length (packet : RfPacket) :
    packet.bytes.length = packet.front.length + 1 + packet.pathBytes.length + packet.innerPayload.length := by
  simp only [bytes_eq, List.length_append, List.length_cons]
  omega

theorem front_length (packet : RfPacket) :
    packet.front.length = 1 + if hasTransportCodes packet.header then TRANSPORT_CODES_SIZE else 0 := by
  obtain ⟨h, a, b, c, d, heq⟩ | ⟨h, heq⟩ := packet.transport_cases
  · simp [front, h, heq, TRANSPORT_CODES_SIZE]
  · simp [front, h, heq]

theorem header_at (packet : RfPacket) : packet.bytes[0]? = some packet.header := rfl

theorem two_le_length (packet : RfPacket) : ¬ packet.bytes.length < 2 := by
  rw [bytes_length, front, List.length_cons]
  omega

theorem readTransportCodes_bytes (packet : RfPacket) :
    readTransportCodes packet.bytes packet.header = .ok (transportCodesOf packet.transport) := by
  obtain ⟨h, a, b, c, d, heq⟩ | ⟨h, heq⟩ := packet.transport_cases
  · have hlen : ¬ packet.bytes.length < 1 + TRANSPORT_CODES_SIZE := by
      rw [bytes_length, front_length, if_pos h]
      omega
    rw [readTransportCodes, if_pos h, if_neg hlen]
    simp only [bytes, heq]
    rfl
  · simp only [readTransportCodes, h, heq]
    rfl

theorem decode_bytes (packet : RfPacket) :
    decodeMeshCorePathPrefix packet.bytes =
      .ok ⟨pathHops packet.pathLengthByte, packet.front.length + 1 + packet.pathBytes.length,
        packet.pathBytes, pathHashSize packet.pathLengthByte, transportCodesOf packet.transport⟩ := by
  have hlen : packet.pathBytes.length =
      pathHops packet.pathLengthByte * pathHashSize packet.pathLengthByte := by
    rw [packet.path_length, pathHops_eq, pathHashSize_eq]
  have hread := readPath_append packet.front packet.pathBytes packet.innerPayload packet.pathLengthByte
    (transportCodesOf packet.transport) hlen
  rw [← bytes_eq] at hread
  rw [decodeMeshCorePathPrefix, if_neg packet.two_le_length, header_at]
  simp only [readTransportCodes_bytes, ← front_length]
  exact hread

end RfPacket

-- What the decoder takes is laid out as the format says.
theorem packet_of_decode_ok {raw : Bytes} {path : PathPrefix}
    (h : decodeMeshCorePathPrefix raw = .ok path) : ∃ packet : RfPacket, packet.bytes = raw := by
  rw [decodeMeshCorePathPrefix] at h
  by_cases hshort : raw.length < 2
  · rw [if_pos hshort] at h
    cases h
  rw [if_neg hshort] at h
  cases raw with
  | nil => simp at hshort
  | cons header tail =>
      simp only [List.getElem?_cons_zero] at h
      cases hcodes : readTransportCodes (header :: tail) header with
      | error message =>
          rw [hcodes] at h
          cases h
      | ok codes =>
          rw [hcodes] at h
          obtain ⟨front, b, hashes, rest, hraw, hfront, hhashes⟩ := readPath_ok h
          cases front with
          | nil =>
              simp only [List.length_nil] at hfront
              omega
          | cons header' transport =>
              simp only [List.cons_append, List.cons.injEq] at hraw
              obtain ⟨rfl, rfl⟩ := hraw
              refine ⟨⟨header, transport, b, hashes, rest, ?_, ?_⟩, rfl⟩
              · simp only [List.length_cons, TRANSPORT_CODES_SIZE] at hfront
                simp only [← hasTransportCodes_iff]
                omega
              · rw [hhashes, pathHops_eq, pathHashSize_eq]

theorem transportBytes_of (packet : RfPacket) :
    transportBytes (transportCodesOf packet.transport) = packet.transport := by
  obtain ⟨_, a, b, c, d, heq⟩ | ⟨_, heq⟩ := packet.transport_cases
  · simp only [heq, transportCodesOf, transportBytes, uint16_bytes]
  · simp only [heq, transportCodesOf, transportBytes]

theorem transportCodesOf_isSome (packet : RfPacket) :
    (transportCodesOf packet.transport).isSome = hasTransportCodes packet.header := by
  obtain ⟨h, a, b, c, d, heq⟩ | ⟨h, heq⟩ := packet.transport_cases
  · simp [h, heq, transportCodesOf]
  · simp [h, heq, transportCodesOf]

-- The structure view looks for the header and the path-length byte where the decoder found them.
theorem buildStructure_bytes (packet : RfPacket) (pathEndOffset : Nat) :
    ∃ analysis, buildStructure packet.bytes pathEndOffset (transportCodesOf packet.transport) = .ok analysis := by
  have hoffset : (if (transportCodesOf packet.transport).isSome then 5 else 1) = packet.front.length := by
    rw [transportCodesOf_isSome, packet.front_length]
    cases hasTransportCodes packet.header
    · rfl
    · rfl
  have hbyte : packet.bytes[packet.front.length]? = some packet.pathLengthByte := by
    rw [RfPacket.bytes_eq]
    simp
  rw [buildStructure, packet.header_at]
  simp only [hoffset, hbyte]
  exact ⟨_, rfl⟩

theorem parse_bytes (packet : RfPacket) :
    ∃ p : MeshCoreRfParseOk, parseMeshCoreRfPacket packet.bytes = .ok (.ok p) ∧
      p.payloadTypeNibble = meshCorePayloadTypeNibble packet.header ∧
      p.hopCount = packet.pathLengthByte.toNat % 0x40 ∧
      p.pathHashSizeBytes = packet.pathLengthByte.toNat / 0x40 + 1 ∧
      p.pathBytes = packet.pathBytes ∧ p.innerPayload = packet.innerPayload ∧
      p.transportCodes = transportCodesOf packet.transport := by
  obtain ⟨analysis, hanalysis⟩ := buildStructure_bytes packet
    (packet.front.length + 1 + packet.pathBytes.length)
  have hinner : packet.bytes.drop (packet.front.length + 1 + packet.pathBytes.length)
      = packet.innerPayload := by
    have hsplit : packet.bytes =
        (packet.front ++ packet.pathLengthByte :: packet.pathBytes) ++ packet.innerPayload := by
      simp [RfPacket.bytes_eq]
    rw [hsplit, List.drop_left']
    simp only [List.length_append, List.length_cons]
    omega
  rw [parseMeshCoreRfPacket, if_neg packet.two_le_length, packet.decode_bytes, packet.header_at]
  simp only [hanalysis]
  exact ⟨_, rfl, rfl, pathHops_eq _, pathHashSize_eq _, rfl, hinner, rfl⟩

-- Without a packet the parser reports the decoder's message.
theorem parse_fail {raw : Bytes} (h : ∀ packet : RfPacket, packet.bytes ≠ raw) :
    ∃ reason, parseMeshCoreRfPacket raw = .ok (.fail reason) := by
  rw [parseMeshCoreRfPacket]
  by_cases hshort : raw.length < 2
  · exact ⟨_, if_pos hshort⟩
  · rw [if_neg hshort]
    cases hdecode : decodeMeshCorePathPrefix raw with
    | error message => exact ⟨message, rfl⟩
    | ok path =>
        obtain ⟨packet, hpacket⟩ := packet_of_decode_ok hdecode
        exact absurd hpacket (h packet)

theorem pathLengthByte_of (b : UInt8) :
    UInt8.ofNat (b.toNat % 0x40 + 0x40 * (b.toNat / 0x40 + 1 - 1)) = b := by
  have hsum : b.toNat % 0x40 + 0x40 * (b.toNat / 0x40 + 1 - 1) = b.toNat := by omega
  rw [hsum, UInt8.ofNat_toNat]

-- The parser returns on every input, takes exactly what is laid out as a packet, and loses
-- nothing of it; the hop segments are the path.
theorem parse_exact (raw : Bytes) :
    ∃ result, parseMeshCoreRfPacket raw = .ok result ∧
      ((∃ p, result = .ok p) ↔ ∃ packet : RfPacket, packet.bytes = raw) ∧
      ∀ p, result = .ok p →
        (∃ header, p.payloadTypeNibble = meshCorePayloadTypeNibble header ∧
          (p.transportCodes.isSome ↔ header.toNat % 4 = 0 ∨ header.toNat % 4 = 3) ∧
          raw = header :: (transportBytes p.transportCodes ++
            UInt8.ofNat (p.hopCount + 0x40 * (p.pathHashSizeBytes - 1)) ::
              (p.pathBytes ++ p.innerPayload))) ∧
        p.hopCount * p.pathHashSizeBytes = p.pathBytes.length ∧
        (meshcoreSplitPathHashSegments p.pathBytes p.pathHashSizeBytes).length = p.hopCount ∧
        (meshcoreSplitPathHashSegments p.pathBytes p.pathHashSizeBytes).flatten = p.pathBytes := by
  by_cases hpacket : ∃ packet : RfPacket, packet.bytes = raw
  · obtain ⟨packet, rfl⟩ := hpacket
    obtain ⟨p, hparse, hnibble, hhops, hsize, hpath, hinner, hcodes⟩ := parse_bytes packet
    refine ⟨.ok p, hparse, iff_of_true ⟨p, rfl⟩ ⟨packet, rfl⟩, ?_⟩
    rintro _ ⟨rfl⟩
    have hlen : p.hopCount * p.pathHashSizeBytes = p.pathBytes.length := by
      rw [hhops, hsize, hpath, packet.path_length]
    have hsplit := @split_of_length p.pathBytes _ _ (by omega) hlen
    refine ⟨⟨packet.header, hnibble, ?_, ?_⟩, hlen, hsplit⟩
    · rw [hcodes, transportCodesOf_isSome, hasTransportCodes_iff]
    · rw [hcodes, hhops, hsize, hpath, hinner, transportBytes_of, pathLengthByte_of]
      rfl
  · have hnone : ∀ packet : RfPacket, packet.bytes ≠ raw := fun packet h => hpacket ⟨packet, h⟩
    obtain ⟨reason, hfail⟩ := parse_fail hnone
    refine ⟨.fail reason, hfail, iff_of_false ?_ hpacket, ?_⟩
    · rintro ⟨p, hp⟩
      cases hp
    · intro p hp
      cases hp

-- A flood packet over two hops with three-byte hashes, and one byte of payload.
example : ∃ p, parseMeshCoreRfPacket [0x15, 0x82, 1, 2, 3, 4, 5, 6, 0xee] = .ok (.ok p) ∧
    meshcoreSplitPathHashSegments p.pathBytes p.pathHashSizeBytes = [[1, 2, 3], [4, 5, 6]] :=
  ⟨_, rfl, rfl⟩

end MeshClient.Meshcore
