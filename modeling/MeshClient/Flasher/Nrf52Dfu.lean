import MeshClient.Flasher.Kiss
import MeshClient.Js.Bits
import MeshClient.Lib.XorLinear

namespace MeshClient.Flasher

open Js XorLinear

def HEX_TYPE_APPLICATION : ℕ := 4
def DFU_INIT_PACKET : ℕ := 1
def DFU_START_PACKET : ℕ := 3
def DFU_DATA_PACKET : ℕ := 4
def DFU_STOP_DATA_PACKET : ℕ := 5
def DATA_INTEGRITY_CHECK_PRESENT : ℤ := 1
def RELIABLE_PACKET : ℤ := 1
def HCI_PACKET_TYPE : ℤ := 14
def DFU_PACKET_MAX_SIZE : ℕ := 512

-- One byte of the loop of `nrf52DfuCrc16`.
def crcOfByte (crc : ℤ) (b : UInt8) : ℤ :=
  let crc := bitOr (bitAnd (shiftRight crc 8) 0x00ff) (bitAnd (shiftLeft crc 8) 0xff00)
  let crc := bitXor crc b.toNat
  let crc := bitXor crc (shiftRight (bitAnd crc 0x00ff) 4)
  let crc := bitXor crc (shiftLeft (shiftLeft crc 8) 4)
  bitXor crc (shiftLeft (shiftLeft (bitAnd crc 0x00ff) 4) 1)

def nrf52DfuCrc16 (binaryData : List UInt8) (crc : ℤ) : ℤ := bitAnd (binaryData.foldl crcOfByte crc) 0xffff

def slipEncodeEscChar (char : ℤ) : List ℤ :=
  if char = 0xc0 then [0xdb, 0xdc] else if char = 0xdb then [0xdb, 0xdd] else [char]

def slipEncodeEscChars (dataIn : List ℤ) : List ℤ := dataIn.flatMap slipEncodeEscChar

def int32ToBytes (num : ℕ) : List ℤ :=
  [bitAnd num 0x000000ff, shiftRight (bitAnd num 0x0000ff00) 8, shiftRight (bitAnd num 0x00ff0000) 16,
    shiftRight (bitAnd num 0xff000000) 24]

def int16ToBytes (num : ℕ) : List ℤ := [bitAnd num 0x00ff, shiftRight (bitAnd num 0xff00) 8]

def createSlipHeader (seq : ℕ) (dip rp pktType : ℤ) (pktLen : ℕ) : List UInt8 :=
  let first := bitOr (bitOr (bitOr seq (shiftLeft ((seq + 1) % 8 : ℕ) 3)) (shiftLeft dip 6)) (shiftLeft rp 7)
  let second := bitOr pktType (shiftLeft (bitAnd pktLen 0x000f) 4)
  let third := shiftRight (bitAnd pktLen 0x0ff0) 4
  uint8Array [first, second, third, bitAnd (bitNot (first + second + third) + 1) 0xff]

def bytesAsNumbers (bytes : List UInt8) : List ℤ := bytes.map fun b => (b.toNat : ℤ)

-- `written` is what the port has taken.
structure Nrf52DfuFlasher where
  sequenceNumber : ℕ := 0
  written : List UInt8 := []
deriving DecidableEq, Repr

namespace Nrf52DfuFlasher

def sendPacket (flasher : Nrf52DfuFlasher) (data : List ℤ) : Nrf52DfuFlasher :=
  { flasher with written := flasher.written ++ uint8Array data }

def hciPacket (sequenceNumber : ℕ) (frame : List ℤ) : List ℤ :=
  let slipHeaderBytes := createSlipHeader sequenceNumber DATA_INTEGRITY_CHECK_PRESENT RELIABLE_PACKET HCI_PACKET_TYPE
    frame.length
  let data := bytesAsNumbers slipHeaderBytes ++ frame
  let crc := nrf52DfuCrc16 (uint8Array data) 0xffff
  [0xc0] ++ slipEncodeEscChars (data ++ [bitAnd crc 0xff, shiftRight (bitAnd crc 0xff00) 8]) ++ [0xc0]

def createHciPacketFromFrame (flasher : Nrf52DfuFlasher) (frame : List ℤ) : Nrf52DfuFlasher × List ℤ :=
  let sequenceNumber := (flasher.sequenceNumber + 1) % 8
  ({ flasher with sequenceNumber }, hciPacket sequenceNumber frame)

def sendFrame (flasher : Nrf52DfuFlasher) (frame : List ℤ) : Nrf52DfuFlasher :=
  let (flasher, packet) := flasher.createHciPacketFromFrame frame
  flasher.sendPacket packet

def sendStartDfu (flasher : Nrf52DfuFlasher) (mode softdeviceSize bootloaderSize appSize : ℕ) : Nrf52DfuFlasher :=
  flasher.sendFrame (int32ToBytes DFU_START_PACKET ++ int32ToBytes mode ++
    (int32ToBytes softdeviceSize ++ int32ToBytes bootloaderSize ++ int32ToBytes appSize))

def sendInitPacket (flasher : Nrf52DfuFlasher) (initPacket : List UInt8) : Nrf52DfuFlasher :=
  flasher.sendFrame (int32ToBytes DFU_INIT_PACKET ++ bytesAsNumbers initPacket ++ int16ToBytes 0x0000)

-- `firmware.slice(i, i + DFU_PACKET_MAX_SIZE)` for each index of the loop
def slices (firmware : List UInt8) (i : ℕ) : List (List UInt8) :=
  if i < firmware.length then (firmware.drop i).take DFU_PACKET_MAX_SIZE :: slices firmware (i + DFU_PACKET_MAX_SIZE)
  else []
termination_by firmware.length - i
decreasing_by
  have : 0 < DFU_PACKET_MAX_SIZE := by decide
  omega

def dataPackets (flasher : Nrf52DfuFlasher) : List (List UInt8) → Nrf52DfuFlasher × List (List ℤ)
  | [] => (flasher, [])
  | slice :: rest =>
      let (flasher, packet) := flasher.createHciPacketFromFrame (int32ToBytes DFU_DATA_PACKET ++ bytesAsNumbers slice)
      let (flasher, packets) := dataPackets flasher rest
      (flasher, packet :: packets)

-- All data packets are made before the first is sent.
def sendFirmware (flasher : Nrf52DfuFlasher) (firmware : List UInt8) : Nrf52DfuFlasher :=
  let (flasher, packets) := flasher.dataPackets (slices firmware 0)
  (packets.foldl sendPacket flasher).sendFrame (int32ToBytes DFU_STOP_DATA_PACKET)

def dfuSendImage (flasher : Nrf52DfuFlasher) (firmware initPacket : List UInt8) : Nrf52DfuFlasher :=
  ((flasher.sendStartDfu HEX_TYPE_APPLICATION 0 0 firmware.length).sendInitPacket initPacket).sendFirmware firmware

end Nrf52DfuFlasher

-- What a reader of the serial line makes of the bytes; KISS escapes as SLIP does.
def slipPackets (stream : List UInt8) : Option (List (List UInt8)) :=
  ((stream.splitOn KISS_FEND).filter (· ≠ [])).mapM decodeKissFrame

def littleEndian : List UInt8 → ℕ
  | [] => 0
  | b :: rest => b.toNat + 256 * littleEndian rest

-- A packet of the transport: header, payload and CRC-16/CCITT.
structure IsPacket (seq : ℕ) (payload packet : List UInt8) : Prop where
  parts : ∃ first second third check low high : UInt8,
    packet = [first, second, third, check] ++ payload ++ [low, high] ∧
    first.toNat % 8 = seq ∧
    (first.toNat + second.toNat + third.toNat + check.toNat) % 256 = 0 ∧
    second.toNat / 16 + 16 * third.toNat = payload.length ∧
    littleEndian [low, high] = (crc 0x1021#16 0xFFFF#16 ([first, second, third, check] ++ payload)).toNat

def Sequenced (seq : ℕ) : List (List UInt8) → List (List UInt8) → Prop
  | [], packets => packets = []
  | payload :: payloads, packets =>
      ∃ packet rest, packets = packet :: rest ∧ IsPacket (seq % 8) payload packet ∧ Sequenced (seq + 1) payloads rest

-- The packets bring the firmware and the init packet.
def Carries (seq : ℕ) (firmware initPacket : List UInt8) (packets : List (List UInt8)) : Prop :=
  ∃ (size : List UInt8) (chunks : List (List UInt8)), size.length = 4 ∧ littleEndian size = firmware.length ∧
    (∀ chunk ∈ chunks, 1 ≤ chunk.length ∧ chunk.length ≤ 512) ∧ chunks.flatten = firmware ∧
    Sequenced seq
      (([3, 0, 0, 0] ++ [4, 0, 0, 0] ++ [0, 0, 0, 0] ++ [0, 0, 0, 0] ++ size) ::
        ([1, 0, 0, 0] ++ initPacket ++ [0, 0]) :: (chunks.map ([4, 0, 0, 0] ++ ·) ++ [[5, 0, 0, 0]]))
      packets

def Delivers (seq : ℕ) (firmware initPacket : List UInt8) : Prop :=
  ∃ packets, slipPackets (Nrf52DfuFlasher.dfuSendImage { sequenceNumber := seq } firmware initPacket).written =
    some packets ∧ Carries (seq + 1) firmware initPacket packets

end MeshClient.Flasher
