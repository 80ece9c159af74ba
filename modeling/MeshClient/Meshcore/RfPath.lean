import MeshClient.Meshcore.PathHash

namespace MeshClient.Meshcore

def MESHCORE_TYPE_MASK : UInt8 := 0x3c
def MESHCORE_TYPE_SHIFT : UInt8 := 2
def MESHCORE_ROUTE_MASK : UInt8 := 0x03

def ROUTE_TYPE_TRANSPORT_FLOOD : UInt8 := 0x00
def ROUTE_TYPE_TRANSPORT_DIRECT : UInt8 := 0x03
def TRANSPORT_CODES_SIZE : Nat := 4

def MESHCORE_PAYLOAD_TYPE_ADVERT_NIBBLE : UInt8 := 4

-- `n.toString(16).padStart(width, '0')`
def hex (width n : Nat) : String :=
  let digits := Nat.toDigits 16 n
  String.ofList (List.replicate (width - digits.length) '0' ++ digits)

-- `DataView.getUint16(offset, true)`, which throws past the end.
def getUint16LE (raw : Bytes) (offset : Nat) : Except String UInt16 :=
  match raw.drop offset with
  | low :: high :: _ => .ok (low.toUInt16 + 0x100 * high.toUInt16)
  | _ => .error "Offset is outside the bounds of the DataView"

def hasTransportCodes (byte0 : UInt8) : Bool :=
  let routeType := byte0 &&& MESHCORE_ROUTE_MASK
  routeType = ROUTE_TYPE_TRANSPORT_FLOOD || routeType = ROUTE_TYPE_TRANSPORT_DIRECT

structure PathPrefix where
  hops : Nat
  pathEndOffset : Nat
  path : Bytes
  hashSizeBytes : Nat
  transportCodes : Option (UInt16 × UInt16)
deriving DecidableEq, Repr

def pathHops (pathLengthByte : UInt8) : Nat := (pathLengthByte &&& 0x3f).toNat

-- The code 3 is read as a size of 4 bytes.
def pathHashSize (pathLengthByte : UInt8) : Nat := ((pathLengthByte >>> 6) &&& 0x03).toNat + 1

def readTransportCodes (raw : Bytes) (byte0 : UInt8) : Except String (Option (UInt16 × UInt16)) :=
  if hasTransportCodes byte0 then
    if raw.length < 1 + TRANSPORT_CODES_SIZE then .error "Packet too short for transport codes"
    else do
      let scope ← getUint16LE raw 1
      let returnRegion ← getUint16LE raw 3
      pure (some (scope, returnRegion))
  else pure none

-- The path behind `pathLengthOffset`, whose byte tells how many hops of which size follow.
def readPath (raw : Bytes) (pathLengthOffset : Nat) (transportCodes : Option (UInt16 × UInt16)) :
    Except String PathPrefix :=
  if raw.length < pathLengthOffset + 1 then
    .error s!"Packet too short: need path_length at offset {pathLengthOffset}, but buffer is {raw.length} bytes"
  else match raw[pathLengthOffset]? with
    | none => .error s!"Packet too short for path_length at offset {pathLengthOffset}"
    | some pathLengthByte =>
        let pathLength := pathHops pathLengthByte
        let hashSize := pathHashSize pathLengthByte
        let pathByteLength := pathLength * hashSize
        let pathStartOffset := pathLengthOffset + 1
        let pathEndOffset := pathStartOffset + pathByteLength
        let remaining := raw.length - pathStartOffset
        if raw.length < pathEndOffset then
          .error (s!"Buffer Underrun: path_length is {pathLength}, hash_size is {hashSize} " ++
            s!"({pathByteLength} bytes), but only {remaining} bytes remain.")
        else .ok {
          hops := pathLength
          pathEndOffset
          path := (raw.drop pathStartOffset).take pathByteLength
          hashSizeBytes := hashSize
          transportCodes }

def decodeMeshCorePathPrefix (raw : Bytes) : Except String PathPrefix :=
  if raw.length < 2 then .error "Packet too short for PATH header"
  else match raw[0]? with
    | none => .error "Packet too short for PATH header"
    | some byte0 => do
        let transportCodes ← readTransportCodes raw byte0
        readPath raw (1 + if hasTransportCodes byte0 then TRANSPORT_CODES_SIZE else 0) transportCodes

def meshCorePayloadTypeNibble (byte0 : UInt8) : UInt8 := (byte0 &&& MESHCORE_TYPE_MASK) >>> MESHCORE_TYPE_SHIFT

def meshCoreRouteTypeStringFromByte0 (byte0 : UInt8) : String :=
  match (byte0 &&& MESHCORE_ROUTE_MASK).toNat with
  | 0 => "TRANSPORT_FLOOD"
  | 1 => "FLOOD"
  | 2 => "DIRECT"
  | 3 => "TRANSPORT_DIRECT"
  | _ => "FLOOD"

def meshCorePayloadTypeStringFromByte0 (byte0 : UInt8) : String :=
  match (meshCorePayloadTypeNibble byte0).toNat with
  | 0 => "REQ_RESP"
  | 1 => "RESPONSE"
  | 2 => "TXT_MSG"
  | 4 => "ADVERT"
  | 5 => "GRP_TXT"
  | 6 => "GRP_DATA"
  | 7 => "ANON_REQ"
  | 8 => "PATH"
  | 9 => "TRACE"
  | 10 => "MULTIPART"
  | 11 => "CONTROL"
  | 15 => "RAW_CUSTOM"
  | t => "PAYLOAD_0x" ++ hex 0 t

end MeshClient.Meshcore
