import MeshClient.Flasher.Nrf52Dfu

namespace MeshClient.Flasher

open Js XorLinear

-- The bytes of the checksum swapped, on 32 bits.
def swapped (x : BitVec 32) : BitVec 32 := (x.sshiftRight 8 &&& 0xff#32) ^^^ (x <<< 8 &&& 0xff00#32)

def mixLow (x : BitVec 32) : BitVec 32 := x ^^^ (x &&& 0xff#32).sshiftRight 4

def mixHigh (x : BitVec 32) : BitVec 32 := x ^^^ (x <<< 8) <<< 4

def mixMiddle (x : BitVec 32) : BitVec 32 := x ^^^ ((x &&& 0xff#32) <<< 4) <<< 1

def mixed (x : BitVec 32) : BitVec 32 := mixMiddle (mixHigh (mixLow x))

theorem linear_swapped : Linear swapped :=
  ((linear_and _).comp (linear_sshiftRight 8)).xor ((linear_and _).comp (linear_shiftLeft 8))

theorem linear_mixed : Linear mixed := by
  have hlow : Linear mixLow := linear_id.xor ((linear_sshiftRight 4).comp (linear_and _))
  have hhigh : Linear mixHigh := linear_id.xor ((linear_shiftLeft 4).comp (linear_shiftLeft 8))
  have hmiddle : Linear mixMiddle :=
    linear_id.xor ((linear_shiftLeft 1).comp ((linear_shiftLeft 4).comp (linear_and _)))
  exact hmiddle.comp (hhigh.comp hlow)

theorem toInt32_crcOfByte (crc : ℤ) (b : UInt8) :
    toInt32 (crcOfByte crc b) = mixed (swapped (toInt32 crc) ^^^ b.toBitVec.setWidth 32) := by
  have hbyte : toInt32 (b.toNat : ℤ) = b.toBitVec.setWidth 32 := by
    apply BitVec.eq_of_toNat_eq
    have hlt : b.toNat < 256 := b.toNat_lt
    rw [toNat_toInt32, BitVec.toNat_setWidth]
    rfl
  have hapart : (toInt32 crc).sshiftRight 8 &&& 0xff#32 &&& (toInt32 crc <<< 8 &&& 0xff00#32) = 0#32 := by
    rw [show (toInt32 crc).sshiftRight 8 &&& 0xff#32 &&& (toInt32 crc <<< 8 &&& 0xff00#32) =
      (toInt32 crc).sshiftRight 8 &&& toInt32 crc <<< 8 &&& (0xff#32 &&& 0xff00#32) by ac_rfl,
      show 0xff#32 &&& 0xff00#32 = 0#32 by decide, BitVec.and_zero]
  simp only [crcOfByte, toInt32_bitXor, toInt32_bitOr, toInt32_bitAnd, toInt32_shiftLeft, toInt32_shiftRight, hbyte,
    show toInt32 0x00ff = 0xff#32 by decide, show toInt32 0xff00 = 0xff00#32 by decide, or_eq_xor hapart]
  rfl

-- A byte of the loop is eight rounds of the bitwise checksum.
theorem setWidth_crcOfByte (crc : ℤ) (b : UInt8) :
    (toInt32 (crcOfByte crc b)).setWidth 16 = crcByte 0x1021#16 ((toInt32 crc).setWidth 16) b := by
  have hrounds := linear_rounds 0x1021#16 8
  have hstate : (fun x : BitVec 32 => (mixed (swapped x)).setWidth 16) =
      fun x : BitVec 32 => rounds 0x1021#16 8 (x.setWidth 16) :=
    ((linear_setWidth.comp (linear_mixed.comp linear_swapped)).ext (hrounds.comp linear_setWidth)) (by decide)
  have hbyte : (fun y : BitVec 8 => (mixed (y.setWidth 32)).setWidth 16) =
      fun y : BitVec 8 => rounds 0x1021#16 8 (y.setWidth 16 <<< 8) :=
    ((linear_setWidth.comp (linear_mixed.comp linear_setWidth)).ext
      (hrounds.comp ((linear_shiftLeft 8).comp linear_setWidth))) (by decide)
  rw [toInt32_crcOfByte, linear_mixed, BitVec.setWidth_xor, crcByte, hrounds, show 16 - 8 = 8 from rfl]
  exact congrArg₂ (· ^^^ ·) (congrFun hstate (toInt32 crc)) (congrFun hbyte b.toBitVec)

theorem nrf52DfuCrc16_eq (data : List UInt8) :
    nrf52DfuCrc16 data 0xffff = ((crc 0x1021#16 0xFFFF#16 data).toNat : ℤ) := by
  have hfold : ∀ start : ℤ, (toInt32 (data.foldl crcOfByte start)).setWidth 16 =
      crc 0x1021#16 ((toInt32 start).setWidth 16) data := by
    induction data with
    | nil => intro start; rfl
    | cons b data ih =>
        intro start
        rw [List.foldl_cons, ih, setWidth_crcOfByte]
        rfl
  have hall := hfold 0xffff
  rw [show (toInt32 0xffff).setWidth 16 = 0xFFFF#16 by decide] at hall
  rw [← hall, nrf52DfuCrc16, bitAnd]
  generalize toInt32 (data.foldl crcOfByte 0xffff) = x
  have hmask : x &&& toInt32 0xffff = (x.setWidth 16).setWidth 32 := by
    apply BitVec.eq_of_toNat_eq
    rw [BitVec.toNat_and, show (toInt32 0xffff).toNat = 2 ^ 16 - 1 by decide, Nat.and_two_pow_sub_one_eq_mod,
      BitVec.toNat_setWidth, BitVec.toNat_setWidth, Nat.mod_eq_of_lt (show x.toNat % 2 ^ 16 < 2 ^ 32 by omega)]
  have hlt := (x.setWidth 16).isLt
  have hnat : ((x.setWidth 16).setWidth 32).toNat = (x.setWidth 16).toNat := by
    rw [BitVec.toNat_setWidth, Nat.mod_eq_of_lt (by omega)]
  rw [hmask, BitVec.toInt_eq_toNat_of_lt (by omega), hnat]

-- A number that is escaped as the byte it is written as.
def Faithful (n : ℤ) : Prop := uint8Array (slipEncodeEscChar n) = escapeKissByte (UInt8.ofInt n)

theorem ofInt_natCast (n : ℕ) : UInt8.ofInt (n : ℤ) = UInt8.ofNat n := by
  rw [UInt8.ofInt]
  apply UInt8.toNat_inj.mp
  rw [UInt8.toNat_ofNat', UInt8.toNat_ofNat']
  omega

theorem faithful_of_ne {n : ℤ} (hend : n ≠ 0xc0) (hescape : n ≠ 0xdb) (hend' : UInt8.ofInt n ≠ KISS_FEND)
    (hescape' : UInt8.ofInt n ≠ KISS_FESC) : Faithful n := by
  unfold Faithful slipEncodeEscChar escapeKissByte
  rw [if_neg hend, if_neg hescape, if_neg hend', if_neg hescape', uint8Array, List.map_singleton]

theorem ofInt_ne {n : ℤ} {b : UInt8} (h : n % 256 ≠ b.toNat) : UInt8.ofInt n ≠ b := by
  rintro rfl
  apply h
  rw [UInt8.ofInt, UInt8.toNat_ofNat']
  omega

theorem faithful_natCast {n : ℕ} (hn : n < 256) : Faithful (n : ℤ) := by
  by_cases hend : n = 0xc0
  · subst hend
    rfl
  · by_cases hescape : n = 0xdb
    · subst hescape
      rfl
    · refine faithful_of_ne (by omega) (by omega) (ofInt_ne ?_) (ofInt_ne ?_)
      · rw [show KISS_FEND.toNat = 0xc0 from rfl]
        omega
      · rw [show KISS_FESC.toNat = 0xdb from rfl]
        omega

theorem uint8Array_slip {data : List ℤ} (h : ∀ n ∈ data, Faithful n) :
    uint8Array (slipEncodeEscChars data) = (uint8Array data).flatMap escapeKissByte := by
  rw [slipEncodeEscChars, uint8Array, uint8Array, List.map_flatMap, List.flatMap_map]
  exact List.flatMap_congr h

theorem uint8Array_append (data data' : List ℤ) :
    uint8Array (data ++ data') = uint8Array data ++ uint8Array data' := List.map_append

theorem uint8Array_bytesAsNumbers (bytes : List UInt8) : uint8Array (bytesAsNumbers bytes) = bytes := by
  rw [uint8Array, bytesAsNumbers, List.map_map]
  have hback : (UInt8.ofInt ∘ fun b : UInt8 => (b.toNat : ℤ)) = id := by
    funext b
    rw [Function.comp, ofInt_natCast, UInt8.ofNat_toNat]
    rfl
  rw [hback, List.map_id]

theorem faithful_bytes {bytes : List UInt8} : ∀ n ∈ bytesAsNumbers bytes, Faithful n := by
  intro n hn
  obtain ⟨b, -, rfl⟩ := List.mem_map.mp hn
  exact faithful_natCast b.toNat_lt

-- The four bytes of a number, as they are written.
def word (n : ℕ) : List UInt8 :=
  [UInt8.ofNat n, UInt8.ofNat (n / 2 ^ 8), UInt8.ofNat (n / 2 ^ 16), UInt8.ofNat (n / 2 ^ 24)]

theorem int32ToBytes_eq (n : ℕ) :
    int32ToBytes n = [((n % 2 ^ 8 : ℕ) : ℤ), ((n % 2 ^ 32 / 2 ^ 8 % 2 ^ 8 : ℕ) : ℤ),
      ((n % 2 ^ 32 / 2 ^ 16 % 2 ^ 8 : ℕ) : ℤ), shiftRight (bitAnd n 0xff000000) 24] := by
  have hfirst := low_eq n (show 8 < 32 by decide)
  have hsecond := field_eq n (show 8 + 8 < 32 by decide)
  have hthird := field_eq n (show 16 + 8 < 32 by decide)
  rw [int32ToBytes]
  exact congrArg₂ List.cons hfirst (congrArg₂ List.cons hsecond (congrArg₂ List.cons hthird rfl))

theorem uint8Array_int32ToBytes (n : ℕ) : uint8Array (int32ToBytes n) = word n := by
  have hbyte : ∀ k l : ℕ, k % 256 = l % 256 → UInt8.ofNat k = UInt8.ofNat l := by
    intro k l h
    apply UInt8.toNat_inj.mp
    rw [UInt8.toNat_ofNat', UInt8.toNat_ofNat']
    exact h
  have htop : UInt8.ofInt (shiftRight (bitAnd n 0xff000000) 24) = UInt8.ofNat (n / 2 ^ 24) := by
    rw [top_eq]
    split_ifs with hsmall
    · rw [ofInt_natCast]
      exact hbyte _ _ (by omega)
    · apply UInt8.toNat_inj.mp
      rw [UInt8.ofInt, UInt8.toNat_ofNat', UInt8.toNat_ofNat']
      omega
  rw [int32ToBytes_eq]
  simp only [uint8Array, List.map_cons, List.map_nil, ofInt_natCast, htop, word]
  rw [hbyte (n % 2 ^ 8) n (by omega), hbyte (n % 2 ^ 32 / 2 ^ 8 % 2 ^ 8) (n / 2 ^ 8) (by omega),
    hbyte (n % 2 ^ 32 / 2 ^ 16 % 2 ^ 8) (n / 2 ^ 16) (by omega)]

-- The highest byte is a signed number, and one of the two escaped bytes is missed then.
theorem faithful_int32ToBytes {n : ℕ} (hend : n % 2 ^ 32 / 2 ^ 24 ≠ 0xc0) (hescape : n % 2 ^ 32 / 2 ^ 24 ≠ 0xdb) :
    ∀ k ∈ int32ToBytes n, Faithful k := by
  have htop : Faithful (shiftRight (bitAnd n 0xff000000) 24) := by
    have hlt : n % 2 ^ 32 / 2 ^ 24 < 256 := by omega
    rw [top_eq]
    generalize n % 2 ^ 32 / 2 ^ 24 = v at *
    split_ifs with hsmall
    · exact faithful_natCast hlt
    · refine faithful_of_ne (by omega) (by omega) (ofInt_ne ?_) (ofInt_ne ?_)
      · rw [show KISS_FEND.toNat = 0xc0 from rfl]
        omega
      · rw [show KISS_FESC.toNat = 0xdb from rfl]
        omega
  rw [int32ToBytes_eq]
  simp only [List.mem_cons, List.not_mem_nil, or_false, forall_eq_or_imp, forall_eq]
  exact ⟨faithful_natCast (by omega), faithful_natCast (by omega), faithful_natCast (by omega), htop⟩

theorem negated_eq (n : ℕ) : bitAnd (bitNot n + 1) 0xff = ((2 ^ 32 - n % 2 ^ 32) % 256 : ℕ) := by
  have hneg : toInt32 (bitNot n + 1) = -toInt32 n := by
    rw [BitVec.neg_eq_not_add, toInt32, BitVec.ofInt_add]
    exact congrArg (· + 1#32) (toInt32_toInt _)
  have hnat : (toInt32 (bitNot n + 1) &&& toInt32 0xff).toNat = (2 ^ 32 - n % 2 ^ 32) % 256 := by
    rw [hneg, BitVec.toNat_and, BitVec.toNat_neg, toNat_toInt32, show (toInt32 0xff).toNat = 2 ^ 8 - 1 by decide,
      Nat.and_two_pow_sub_one_eq_mod]
    omega
  rw [bitAnd, BitVec.toInt_eq_toNat_of_lt (by omega), hnat]

theorem createSlipHeader_eq {seq len : ℕ} (hseq : seq < 8) (hlen : len < 4096) :
    ∃ first second third check : UInt8,
      createSlipHeader seq DATA_INTEGRITY_CHECK_PRESENT RELIABLE_PACKET HCI_PACKET_TYPE len =
        [first, second, third, check] ∧ first.toNat % 8 = seq ∧
      (first.toNat + second.toNat + third.toNat + check.toNat) % 256 = 0 ∧
      second.toNat / 16 + 16 * third.toNat = len := by
  have hfirst : bitOr (bitOr (bitOr seq (shiftLeft ((seq + 1) % 8 : ℕ) 3)) (shiftLeft DATA_INTEGRITY_CHECK_PRESENT 6))
      (shiftLeft RELIABLE_PACKET 7) = ((192 + 8 * ((seq + 1) % 8) + seq : ℕ) : ℤ) := by
    interval_cases seq <;> decide
  have hnibble : ∀ r < 16, bitOr HCI_PACKET_TYPE (shiftLeft ((r : ℕ) : ℤ) 4) = ((14 + 16 * r : ℕ) : ℤ) := by decide
  have hsecond : bitOr HCI_PACKET_TYPE (shiftLeft (bitAnd len 0x000f) 4) = ((14 + 16 * (len % 16) : ℕ) : ℤ) := by
    have hlow := low_eq len (show 4 < 32 by decide)
    rw [show (0x000f : ℤ) = ((2 ^ 4 - 1 : ℕ) : ℤ) from rfl, hlow]
    exact hnibble (len % 16) (by omega)
  have hthird : shiftRight (bitAnd len 0x0ff0) 4 = ((len / 16 : ℕ) : ℤ) := by
    have hfield := field_eq len (show 4 + 8 < 32 by decide)
    rw [show (0x0ff0 : ℤ) = (((2 ^ 8 - 1) <<< 4 : ℕ) : ℤ) from rfl, hfield]
    congr 1
    omega
  have hcheck := negated_eq (192 + 8 * ((seq + 1) % 8) + seq + (14 + 16 * (len % 16)) + len / 16)
  rw [Nat.cast_add, Nat.cast_add] at hcheck
  simp only [createSlipHeader]
  rw [hfirst, hsecond, hthird, hcheck]
  refine ⟨_, _, _, _, rfl, ?_, ?_, ?_⟩
  · rw [ofInt_natCast, UInt8.toNat_ofNat']
    omega
  · simp only [ofInt_natCast, UInt8.toNat_ofNat']
    omega
  · simp only [ofInt_natCast, UInt8.toNat_ofNat']
    omega

theorem crcBytes_eq (data : List UInt8) :
    ∃ low high : UInt8,
      bytesAsNumbers [low, high] =
        [bitAnd (nrf52DfuCrc16 data 0xffff) 0xff, shiftRight (bitAnd (nrf52DfuCrc16 data 0xffff) 0xff00) 8] ∧
      littleEndian [low, high] = (crc 0x1021#16 0xFFFF#16 data).toNat := by
  have hlt := (crc 0x1021#16 0xFFFF#16 data).isLt
  rw [nrf52DfuCrc16_eq]
  generalize (crc 0x1021#16 0xFFFF#16 data).toNat = c at hlt ⊢
  have hlow := low_eq c (show 8 < 32 by decide)
  have hhigh := field_eq c (show 8 + 8 < 32 by decide)
  refine ⟨UInt8.ofNat (c % 256), UInt8.ofNat (c / 256), ?_, ?_⟩
  · rw [show (0xff : ℤ) = ((2 ^ 8 - 1 : ℕ) : ℤ) from rfl, show (0xff00 : ℤ) = (((2 ^ 8 - 1) <<< 8 : ℕ) : ℤ) from rfl,
      hlow, hhigh]
    simp only [bytesAsNumbers, List.map_cons, List.map_nil, UInt8.toNat_ofNat']
    rw [show c % 256 % 2 ^ 8 = c % 2 ^ 8 by omega, show c / 256 % 2 ^ 8 = c % 2 ^ 32 / 2 ^ 8 % 2 ^ 8 by omega]
  · simp only [littleEndian, UInt8.toNat_ofNat']
    omega

-- What is written for a frame: the packet with its delimiters, escaped but for the numbers that are missed.
theorem uint8Array_hciPacket {seq : ℕ} (hseq : seq < 8) {frame : List ℤ} (hlen : frame.length < 4096) :
    ∃ header trailer : List UInt8, header.length = 4 ∧ trailer.length = 2 ∧
      IsPacket seq (uint8Array frame) (header ++ uint8Array frame ++ trailer) ∧
      uint8Array (Nrf52DfuFlasher.hciPacket seq frame) =
        KISS_FEND :: (header.flatMap escapeKissByte ++ uint8Array (slipEncodeEscChars frame) ++
          trailer.flatMap escapeKissByte) ++ [KISS_FEND] := by
  obtain ⟨first, second, third, check, hheader, hfirst, hsum, hlength⟩ := createSlipHeader_eq hseq hlen
  obtain ⟨low, high, hcrc, hvalue⟩ := crcBytes_eq ([first, second, third, check] ++ uint8Array frame)
  refine ⟨[first, second, third, check], [low, high], rfl, rfl, ⟨first, second, third, check, low, high, rfl, hfirst,
    hsum, ?_, hvalue⟩, ?_⟩
  · rw [hlength, uint8Array, List.length_map]
  · simp only [Nrf52DfuFlasher.hciPacket]
    rw [hheader, uint8Array_append, uint8Array_append, uint8Array_append, uint8Array_bytesAsNumbers, ← hcrc,
      slipEncodeEscChars, List.flatMap_append, List.flatMap_append, uint8Array_append, uint8Array_append,
      ← slipEncodeEscChars, ← slipEncodeEscChars, ← slipEncodeEscChars, uint8Array_slip faithful_bytes,
      uint8Array_slip faithful_bytes, uint8Array_bytesAsNumbers, uint8Array_bytesAsNumbers]
    rfl

-- The frames as they go out, one packet after the other.
def wire : ℕ → List (List ℤ) → List UInt8
  | _, [] => []
  | seq, frame :: frames =>
      uint8Array (Nrf52DfuFlasher.hciPacket ((seq + 1) % 8) frame) ++ wire ((seq + 1) % 8) frames

theorem Sequenced.congr {seq seq' : ℕ} (hmod : seq % 8 = seq' % 8) {payloads packets : List (List UInt8)}
    (h : Sequenced seq payloads packets) : Sequenced seq' payloads packets := by
  induction payloads generalizing seq seq' packets with
  | nil => exact h
  | cons payload payloads ih =>
      obtain ⟨packet, rest, hpackets, hpacket, hrest⟩ := h
      exact ⟨packet, rest, hpackets, hmod ▸ hpacket, ih (by omega) hrest⟩

theorem IsPacket.length {seq : ℕ} {payload packet : List UInt8} (h : IsPacket seq payload packet) :
    packet.length = payload.length + 6 := by
  obtain ⟨first, second, third, check, low, high, rfl, -⟩ := h.parts
  simp only [List.length_append, List.length_cons, List.length_nil]
  omega

theorem wire_faithful {frames : List (List ℤ)} (hfaithful : ∀ frame ∈ frames, ∀ n ∈ frame, Faithful n)
    (hlen : ∀ frame ∈ frames, frame.length < 4096) (seq : ℕ) :
    ∃ packets, wire seq frames = packets.flatMap createKissFrame ∧
      Sequenced (seq + 1) (frames.map uint8Array) packets ∧ ∀ packet ∈ packets, packet ≠ [] := by
  induction frames generalizing seq with
  | nil => exact ⟨[], rfl, rfl, by simp⟩
  | cons frame frames ih =>
      obtain ⟨rest, hwire, hrest, hne⟩ := ih (fun f hf => hfaithful f (List.mem_cons_of_mem _ hf))
        (fun f hf => hlen f (List.mem_cons_of_mem _ hf)) ((seq + 1) % 8)
      obtain ⟨header, trailer, hheader, -, hpacket, hwritten⟩ := @uint8Array_hciPacket ((seq + 1) % 8)
        (Nat.mod_lt _ (by decide)) frame (hlen frame (List.mem_cons_self ..))
      rw [uint8Array_slip (hfaithful frame (List.mem_cons_self ..)), ← List.flatMap_append, ← List.flatMap_append]
        at hwritten
      refine ⟨(header ++ uint8Array frame ++ trailer) :: rest, ?_, ⟨_, rest, rfl, hpacket, hrest.congr (by omega)⟩, ?_⟩
      · rw [wire, hwire, hwritten, List.flatMap_cons, createKissFrame]
      · intro packet hmem
        rw [List.mem_cons] at hmem
        cases hmem with
        | inl h =>
            rintro rfl
            have hlength := hpacket.length
            rw [← h, List.length_nil] at hlength
            omega
        | inr h => exact hne packet h

theorem splitOn_frame (packet rest : List UInt8) :
    (createKissFrame packet ++ rest).splitOn KISS_FEND = [] :: packet.flatMap escapeKissByte :: rest.splitOn KISS_FEND := by
  have hsecond := List.splitOn_append_cons_self_of_not_mem (Reader.not_mem_escape packet) rest
  have hfirst : ([] ++ KISS_FEND :: (packet.flatMap escapeKissByte ++ KISS_FEND :: rest)).splitOn KISS_FEND =
      [] :: (packet.flatMap escapeKissByte ++ KISS_FEND :: rest).splitOn KISS_FEND :=
    List.splitOn_append_cons_self_of_not_mem List.not_mem_nil _
  have hshape : createKissFrame packet ++ rest =
      [] ++ KISS_FEND :: (packet.flatMap escapeKissByte ++ KISS_FEND :: rest) := by simp [createKissFrame]
  rw [hshape, hfirst, hsecond]

-- Cut at the delimiters and unescaped, the packets come back.
theorem slipPackets_frames {packets : List (List UInt8)} (hne : ∀ packet ∈ packets, packet ≠ []) :
    slipPackets (packets.flatMap createKissFrame) = some packets := by
  induction packets with
  | nil => rfl
  | cons packet packets ih =>
      have hrest := ih fun p hp => hne p (List.mem_cons_of_mem _ hp)
      have hescaped : packet.flatMap escapeKissByte ≠ [] := by
        intro hnil
        have hdecode := Reader.decodeKissFrame_escape packet
        rw [hnil] at hdecode
        exact hne packet (List.mem_cons_self ..) (Option.some.inj hdecode).symm
      rw [slipPackets] at hrest ⊢
      rw [List.flatMap_cons, splitOn_frame, List.filter_cons, if_neg (by simp), List.filter_cons,
        if_pos (decide_eq_true hescaped), List.mapM_cons, hrest, Reader.decodeKissFrame_escape]
      rfl

theorem slices_flatten (firmware : List UInt8) (i : ℕ) :
    (Nrf52DfuFlasher.slices firmware i).flatten = firmware.drop i ∧
      ∀ chunk ∈ Nrf52DfuFlasher.slices firmware i, 1 ≤ chunk.length ∧ chunk.length ≤ 512 := by
  induction i using Nrf52DfuFlasher.slices.induct firmware with
  | case1 i hi ih =>
      rw [Nrf52DfuFlasher.slices, if_pos hi, List.flatten_cons, ih.1, ← List.drop_drop, List.take_append_drop]
      refine ⟨rfl, fun chunk hchunk => ?_⟩
      rw [List.mem_cons] at hchunk
      cases hchunk with
      | inl h =>
          rw [h, List.length_take, List.length_drop, DFU_PACKET_MAX_SIZE]
          omega
      | inr h => exact ih.2 chunk h
  | case2 i hi =>
      rw [Nrf52DfuFlasher.slices, if_neg hi, List.drop_eq_nil_of_le (by omega)]
      exact ⟨rfl, by simp⟩

namespace Nrf52DfuFlasher

theorem sendPacket_foldl (flasher : Nrf52DfuFlasher) (packets : List (List ℤ)) :
    packets.foldl sendPacket flasher =
      { flasher with written := flasher.written ++ (packets.map uint8Array).flatten } := by
  induction packets generalizing flasher with
  | nil => rw [List.map_nil, List.flatten_nil, List.append_nil]; rfl
  | cons packet packets ih =>
      rw [List.foldl_cons, ih, sendPacket, List.map_cons, List.flatten_cons, List.append_assoc]

def dataFrame (slice : List UInt8) : List ℤ := int32ToBytes DFU_DATA_PACKET ++ bytesAsNumbers slice

theorem dataPackets_wire (flasher : Nrf52DfuFlasher) (chunks : List (List UInt8)) (frames : List (List ℤ)) :
    (flasher.dataPackets chunks).1.written = flasher.written ∧
      ((flasher.dataPackets chunks).2.map uint8Array).flatten ++
          wire (flasher.dataPackets chunks).1.sequenceNumber frames =
        wire flasher.sequenceNumber (chunks.map dataFrame ++ frames) := by
  induction chunks generalizing flasher with
  | nil => exact ⟨rfl, rfl⟩
  | cons chunk chunks ih =>
      obtain ⟨hwritten, hwire⟩ := ih (flasher.createHciPacketFromFrame (dataFrame chunk)).1
      refine ⟨hwritten, ?_⟩
      rw [List.map_cons, List.cons_append, wire]
      have hseq : (flasher.createHciPacketFromFrame (dataFrame chunk)).1.sequenceNumber =
          (flasher.sequenceNumber + 1) % 8 := rfl
      rw [hseq] at hwire
      rw [← hwire, ← List.append_assoc]
      rfl

def startFrame (mode appSize : ℕ) : List ℤ :=
  int32ToBytes DFU_START_PACKET ++ int32ToBytes mode ++ (int32ToBytes 0 ++ int32ToBytes 0 ++ int32ToBytes appSize)

def initFrame (initPacket : List UInt8) : List ℤ :=
  int32ToBytes DFU_INIT_PACKET ++ bytesAsNumbers initPacket ++ int16ToBytes 0x0000

theorem sendFirmware_written (flasher : Nrf52DfuFlasher) (firmware : List UInt8) :
    (flasher.sendFirmware firmware).written = flasher.written ++
      wire flasher.sequenceNumber ((slices firmware 0).map dataFrame ++ [int32ToBytes DFU_STOP_DATA_PACKET]) := by
  obtain ⟨hwritten, hwire⟩ := dataPackets_wire flasher (slices firmware 0) [int32ToBytes DFU_STOP_DATA_PACKET]
  rw [wire, wire, List.append_nil] at hwire
  rw [← hwire, ← List.append_assoc, ← hwritten]
  have hsend : flasher.sendFirmware firmware =
      ((flasher.dataPackets (slices firmware 0)).2.foldl sendPacket (flasher.dataPackets (slices firmware 0)).1).sendFrame
        (int32ToBytes DFU_STOP_DATA_PACKET) := rfl
  rw [hsend, sendPacket_foldl]
  rfl

theorem dfuSendImage_written (seq : ℕ) (firmware initPacket : List UInt8) :
    (dfuSendImage { sequenceNumber := seq } firmware initPacket).written =
      wire seq (startFrame HEX_TYPE_APPLICATION firmware.length :: initFrame initPacket ::
        ((slices firmware 0).map dataFrame ++ [int32ToBytes DFU_STOP_DATA_PACKET])) := by
  rw [dfuSendImage, sendFirmware_written, wire, wire, ← List.append_assoc]
  rfl

end Nrf52DfuFlasher

open Nrf52DfuFlasher

theorem littleEndian_word {n : ℕ} (hn : n < 2 ^ 32) : littleEndian (word n) = n := by
  simp only [word, littleEndian, UInt8.toNat_ofNat']
  omega

theorem littleEndian_lt (bytes : List UInt8) : littleEndian bytes < 256 ^ bytes.length := by
  induction bytes with
  | nil => exact Nat.one_pos
  | cons b bytes ih =>
      have hb : b.toNat < 256 := b.toNat_lt
      rw [littleEndian, List.length_cons, Nat.pow_succ]
      omega

theorem faithful_small {n : ℕ} (hn : n < 256) : ∀ k ∈ int32ToBytes n, Faithful k :=
  faithful_int32ToBytes (by omega) (by omega)

theorem uint8Array_small {n : ℕ} (hn : n < 256) : uint8Array (int32ToBytes n) = [UInt8.ofNat n, 0, 0, 0] := by
  rw [uint8Array_int32ToBytes, word, show n / 2 ^ 8 = 0 by omega, show n / 2 ^ 16 = 0 by omega,
    show n / 2 ^ 24 = 0 by omega]
  rfl

theorem length_int32ToBytes (n : ℕ) : (int32ToBytes n).length = 4 := rfl

theorem int16ToBytes_zero : int16ToBytes 0x0000 = [0, 0] := by decide

theorem delivers_of_plain {seq : ℕ} {firmware initPacket : List UInt8} (hinit : initPacket.length ≤ 4000)
    (hlength : firmware.length < 2 ^ 32) (hend : firmware.length / 2 ^ 24 ≠ 0xc0)
    (hescape : firmware.length / 2 ^ 24 ≠ 0xdb) : Delivers seq firmware initPacket := by
  obtain ⟨hflatten, hchunks⟩ := slices_flatten firmware 0
  have hsize : ∀ k ∈ int32ToBytes firmware.length, Faithful k :=
    faithful_int32ToBytes (by rwa [Nat.mod_eq_of_lt hlength]) (by rwa [Nat.mod_eq_of_lt hlength])
  have hzero := @faithful_small 0 (by decide)
  have hfaithful : ∀ frame ∈ startFrame HEX_TYPE_APPLICATION firmware.length :: initFrame initPacket ::
      ((slices firmware 0).map dataFrame ++ [int32ToBytes DFU_STOP_DATA_PACKET]),
      (∀ n ∈ frame, Faithful n) ∧ frame.length < 4096 := by
    intro frame hframe
    simp only [List.mem_cons, List.mem_append, List.mem_map, List.not_mem_nil, or_false] at hframe
    obtain rfl | rfl | ⟨chunk, hchunk, rfl⟩ | rfl := hframe
    · refine ⟨fun n hn => ?_, show 20 < 4096 by decide⟩
      simp only [startFrame, List.mem_append] at hn
      obtain (hn | hn) | (hn | hn) | hn := hn
      · exact @faithful_small DFU_START_PACKET (by decide) n hn
      · exact @faithful_small HEX_TYPE_APPLICATION (by decide) n hn
      · exact hzero n hn
      · exact hzero n hn
      · exact hsize n hn
    · refine ⟨fun n hn => ?_, ?_⟩
      · simp only [initFrame, List.mem_append, int16ToBytes_zero] at hn
        obtain (hn | hn) | hn := hn
        · exact @faithful_small DFU_INIT_PACKET (by decide) n hn
        · exact faithful_bytes n hn
        · obtain rfl : n = 0 := by simpa using hn
          exact @faithful_natCast 0 (by decide)
      · simp only [initFrame, List.length_append, length_int32ToBytes, bytesAsNumbers, List.length_map,
          int16ToBytes_zero, List.length_cons, List.length_nil]
        omega
    · refine ⟨fun n hn => ?_, ?_⟩
      · rw [dataFrame, List.mem_append] at hn
        cases hn with
        | inl hn => exact @faithful_small DFU_DATA_PACKET (by decide) n hn
        | inr hn => exact faithful_bytes n hn
      · have hle := (hchunks chunk hchunk).2
        rw [dataFrame, List.length_append, length_int32ToBytes, bytesAsNumbers, List.length_map]
        omega
    · exact ⟨@faithful_small DFU_STOP_DATA_PACKET (by decide), by decide⟩
  obtain ⟨packets, hwire, hsequenced, hne⟩ := wire_faithful (fun frame h => (hfaithful frame h).1)
    (fun frame h => (hfaithful frame h).2) seq
  refine ⟨packets, ?_, word firmware.length, slices firmware 0, rfl, littleEndian_word hlength, hchunks, hflatten, ?_⟩
  · rw [dfuSendImage_written, hwire, slipPackets_frames hne]
  · have hstart : uint8Array (startFrame HEX_TYPE_APPLICATION firmware.length) =
        [3, 0, 0, 0] ++ [4, 0, 0, 0] ++ [0, 0, 0, 0] ++ [0, 0, 0, 0] ++ word firmware.length := by
      simp only [startFrame, uint8Array_append]
      rw [uint8Array_small (by decide), uint8Array_small (by decide), uint8Array_small (by decide),
        uint8Array_int32ToBytes]
      rfl
    have hinit' : uint8Array (initFrame initPacket) = [1, 0, 0, 0] ++ initPacket ++ [0, 0] := by
      simp only [initFrame, uint8Array_append, uint8Array_bytesAsNumbers, int16ToBytes_zero]
      rw [uint8Array_small (by decide)]
      rfl
    have hdata : (slices firmware 0).map (fun slice => uint8Array (dataFrame slice)) =
        (slices firmware 0).map ([4, 0, 0, 0] ++ ·) := by
      apply List.map_congr_left
      intro chunk _
      rw [dataFrame, uint8Array_append, uint8Array_bytesAsNumbers, uint8Array_small (by decide)]
      rfl
    have hstop : uint8Array (int32ToBytes DFU_STOP_DATA_PACKET) = [5, 0, 0, 0] := uint8Array_small (by decide)
    rw [List.map_cons, List.map_cons, List.map_append, List.map_map, List.map_singleton, hstart, hinit', hstop] at hsequenced
    rw [← hdata]
    exact hsequenced

theorem decode_escape_append (acc data rest : List UInt8) :
    decodeKissBytes acc (data.flatMap escapeKissByte ++ rest) false = decodeKissBytes (acc ++ data) rest false := by
  induction data generalizing acc with
  | nil => rw [List.flatMap_nil, List.nil_append, List.append_nil]
  | cons b data ih =>
      rw [List.flatMap_cons, List.append_assoc, Reader.decode_escape_byte, ih, List.append_assoc, List.singleton_append]

-- An escape that no byte was written for takes the first byte of the checksum with it.
theorem length_of_lost_escape {acc p : List UInt8} {low high : UInt8}
    (h : decodeKissBytes acc ([low, high].flatMap escapeKissByte) true = some p) : p.length = acc.length + 2 := by
  have hrest : ∀ acc', decodeKissBytes acc' (escapeKissByte high) false = some (acc' ++ [high]) := by
    intro acc'
    have hone := Reader.decode_escape [high] acc'
    rwa [List.flatMap_cons, List.flatMap_nil, List.append_nil] at hone
  have hlow : escapeKissByte low = if low = KISS_FEND then [KISS_FESC, KISS_TFEND]
    else if low = KISS_FESC then [KISS_FESC, KISS_TFESC] else [low] := rfl
  rw [List.flatMap_cons, List.flatMap_cons, List.flatMap_nil, List.append_nil, hlow] at h
  by_cases hend : low = KISS_FEND
  · rw [if_pos hend] at h
    cases h
  · by_cases hescape : low = KISS_FESC
    · rw [if_neg hend, if_pos hescape] at h
      cases h
    · rw [if_neg hend, if_neg hescape, List.singleton_append, decodeKissBytes, hrest, hrest] at h
      split_ifs at h
      · rw [← Option.some.inj h]
        simp
      · rw [← Option.some.inj h]
        simp

-- A first piece that does not come back as 26 bytes is no Start packet.
theorem not_delivers_of_piece {seq : ℕ} {firmware initPacket piece more : List UInt8}
    (hwritten : (dfuSendImage { sequenceNumber := seq } firmware initPacket).written =
      KISS_FEND :: (piece ++ KISS_FEND :: more))
    (hplain : KISS_FEND ∉ piece) (hne : piece ≠ []) (hlen : ∀ p, decodeKissFrame piece = some p → p.length ≠ 26) :
    ¬Delivers seq firmware initPacket := by
  rintro ⟨packets, hpackets, size, chunks, hsize, -, -, -, first, rest, rfl, hfirst, -⟩
  have hsplit : (KISS_FEND :: (piece ++ KISS_FEND :: more)).splitOn KISS_FEND = [] :: piece :: more.splitOn KISS_FEND := by
    have hhead : ([] ++ KISS_FEND :: (piece ++ KISS_FEND :: more)).splitOn KISS_FEND =
        [] :: (piece ++ KISS_FEND :: more).splitOn KISS_FEND :=
      List.splitOn_append_cons_self_of_not_mem List.not_mem_nil _
    rw [List.nil_append] at hhead
    rw [hhead, List.splitOn_append_cons_self_of_not_mem hplain]
  rw [slipPackets, hwritten, hsplit, List.filter_cons, if_neg (by simp), List.filter_cons, if_pos (decide_eq_true hne),
    List.mapM_cons] at hpackets
  cases hdecode : decodeKissFrame piece with
  | none =>
      rw [hdecode] at hpackets
      cases hpackets
  | some p =>
      rw [hdecode] at hpackets
      cases hmore : ((more.splitOn KISS_FEND).filter (· ≠ [])).mapM decodeKissFrame with
      | none =>
          rw [hmore] at hpackets
          cases hpackets
      | some others =>
          rw [hmore] at hpackets
          obtain rfl : p = first := (List.cons.inj (Option.some.inj hpackets)).1
          have hlength := hfirst.length
          simp only [List.length_append, List.length_cons, List.length_nil, hsize] at hlength
          exact hlen p hdecode hlength

-- The first packet up to the highest byte of the size, which goes out unescaped.
theorem written_of_top {seq : ℕ} {firmware initPacket : List UInt8} (hhigh : 128 ≤ firmware.length % 2 ^ 32 / 2 ^ 24) :
    ∃ (front : List UInt8) (low high : UInt8) (more : List UInt8), front.length = 23 ∧
      (dfuSendImage { sequenceNumber := seq } firmware initPacket).written =
        KISS_FEND :: (front.flatMap escapeKissByte ++
          UInt8.ofNat (firmware.length / 2 ^ 24) :: ([low, high].flatMap escapeKissByte ++ KISS_FEND :: more)) := by
  have hframe : (startFrame HEX_TYPE_APPLICATION firmware.length).length < 4096 := show 20 < 4096 by decide
  obtain ⟨header, trailer, hheader, htrailer, -, hpacket⟩ := @uint8Array_hciPacket ((seq + 1) % 8)
    (Nat.mod_lt _ (by decide)) _ hframe
  obtain ⟨low, high, rfl⟩ := List.length_eq_two.mp htrailer
  obtain ⟨numbers, hnumbers, hlength, hfaithful⟩ : ∃ numbers : List ℤ,
      startFrame HEX_TYPE_APPLICATION firmware.length =
        numbers ++ [((firmware.length % 2 ^ 32 / 2 ^ 24 : ℕ) : ℤ) - 256] ∧ numbers.length = 19 ∧
        ∀ n ∈ numbers, Faithful n := by
    refine ⟨int32ToBytes DFU_START_PACKET ++ int32ToBytes HEX_TYPE_APPLICATION ++ (int32ToBytes 0 ++ int32ToBytes 0 ++
      (int32ToBytes firmware.length).take 3), ?_, rfl, fun n hn => ?_⟩
    · rw [startFrame, int32ToBytes_eq firmware.length, top_eq, if_neg (by omega)]
      simp only [List.append_assoc, List.take_succ_cons, List.take_zero, List.cons_append, List.nil_append]
    · simp only [List.mem_append] at hn
      obtain (hn | hn) | (hn | hn) | hn := hn
      · exact @faithful_small DFU_START_PACKET (by decide) n hn
      · exact @faithful_small HEX_TYPE_APPLICATION (by decide) n hn
      · exact @faithful_small 0 (by decide) n hn
      · exact @faithful_small 0 (by decide) n hn
      · rw [int32ToBytes_eq] at hn
        simp only [List.take_succ_cons, List.take_zero, List.mem_cons, List.not_mem_nil, or_false] at hn
        obtain rfl | rfl | rfl := hn
        · exact faithful_natCast (by omega)
        · exact faithful_natCast (by omega)
        · exact faithful_natCast (by omega)
  have hlast : uint8Array (slipEncodeEscChar (((firmware.length % 2 ^ 32 / 2 ^ 24 : ℕ) : ℤ) - 256)) =
      [UInt8.ofNat (firmware.length / 2 ^ 24)] := by
    rw [slipEncodeEscChar, if_neg (by omega), if_neg (by omega), uint8Array, List.map_singleton]
    congr 1
    apply UInt8.toNat_inj.mp
    rw [UInt8.ofInt, UInt8.toNat_ofNat', UInt8.toNat_ofNat']
    omega
  refine ⟨header ++ uint8Array numbers, low, high, wire ((seq + 1) % 8) (initFrame initPacket ::
    ((slices firmware 0).map dataFrame ++ [int32ToBytes DFU_STOP_DATA_PACKET])), ?_, ?_⟩
  · rw [List.length_append, uint8Array, List.length_map, hheader, hlength]
  · rw [dfuSendImage_written, wire, hpacket, hnumbers, slipEncodeEscChars, List.flatMap_append, uint8Array_append,
      ← slipEncodeEscChars, uint8Array_slip hfaithful, List.flatMap_singleton, hlast, List.flatMap_append]
    simp only [List.append_assoc, List.cons_append, List.nil_append]

theorem not_delivers_of_top {seq : ℕ} {firmware initPacket : List UInt8} (hlength : firmware.length < 2 ^ 32)
    (htop : firmware.length / 2 ^ 24 = 0xc0 ∨ firmware.length / 2 ^ 24 = 0xdb) : ¬Delivers seq firmware initPacket := by
  obtain ⟨front, low, high, more, hfront, hwritten⟩ := @written_of_top seq firmware initPacket
    (by rw [Nat.mod_eq_of_lt hlength]; omega)
  have hne : ∀ rest, front.flatMap escapeKissByte ++ rest ≠ [] := by
    intro rest hnil
    have hdecode := Reader.decodeKissFrame_escape front
    rw [(List.append_eq_nil_iff.mp hnil).1] at hdecode
    have hempty : [] = front := Option.some.inj hdecode
    rw [← hempty] at hfront
    cases hfront
  cases htop with
  | inl htop =>
      rw [htop] at hwritten
      apply not_delivers_of_piece hwritten (Reader.not_mem_escape front)
      · have := hne []
        rwa [List.append_nil] at this
      · intro p hp
        rw [Reader.decodeKissFrame_escape] at hp
        rw [← Option.some.inj hp]
        omega
  | inr htop =>
      have hshape : front.flatMap escapeKissByte ++
          KISS_FESC :: ([low, high].flatMap escapeKissByte ++ KISS_FEND :: more) =
            (front.flatMap escapeKissByte ++ KISS_FESC :: [low, high].flatMap escapeKissByte) ++ KISS_FEND :: more := by
        rw [List.append_assoc, List.cons_append]
      rw [htop, show UInt8.ofNat 0xdb = KISS_FESC from rfl, hshape] at hwritten
      apply not_delivers_of_piece hwritten
      · simp only [List.mem_append, List.mem_cons, not_or]
        exact ⟨Reader.not_mem_escape front, by decide, Reader.not_mem_escape _⟩
      · exact hne _
      · intro p hp
        rw [decodeKissFrame, decode_escape_append, List.nil_append, decodeKissBytes, if_pos rfl] at hp
        rw [length_of_lost_escape hp]
        omega

theorem delivers_iff (seq : ℕ) (firmware initPacket : List UInt8) (hinit : initPacket.length ≤ 4000) :
    Delivers seq firmware initPacket ↔
      firmware.length < 2 ^ 32 ∧ firmware.length / 2 ^ 24 ≠ 0xc0 ∧ firmware.length / 2 ^ 24 ≠ 0xdb := by
  constructor
  · intro h
    have hlength : firmware.length < 2 ^ 32 := by
      obtain ⟨packets, -, size, chunks, hsize, hvalue, -⟩ := h
      have hlt := littleEndian_lt size
      rw [hsize, hvalue] at hlt
      omega
    exact ⟨hlength, fun htop => not_delivers_of_top hlength (.inl htop) h,
      fun htop => not_delivers_of_top hlength (.inr htop) h⟩
  · rintro ⟨hlength, hend, hescape⟩
    exact delivers_of_plain hinit hlength hend hescape

theorem delivers_small : Delivers 7 [0xc0, 0x01, 0xdb] [0xdb, 0xdc] :=
  (delivers_iff 7 [0xc0, 0x01, 0xdb] [0xdb, 0xdc] (by decide)).mpr (by decide)

-- The highest byte of this size is the delimiter.
theorem not_delivers_long_image : ¬Delivers 0 (List.replicate 0xc0000000 0) [] := by
  apply not_delivers_of_top
  · rw [List.length_replicate]
    decide
  · rw [List.length_replicate]
    decide

end MeshClient.Flasher
