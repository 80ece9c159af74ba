import MeshClient.Lib.OrderedMap
import MeshClient.Lib.Base64

namespace MeshClient.Reticulum.VoiceMemo

def VOICE_MEMO_MAX_OGG_BYTES : Nat := 240 * 1024
def VOICE_MEMO_MAX_FRAME_COUNT : Nat := 4000
def FRAME_MS : Nat := 60
def SAMPLE_RATE_HZ : Nat := 24000
def OPUS_GRANULE_HZ : Nat := 48000
def CHANNELS : Nat := 1
def SAMPLES_PER_FRAME : Nat := SAMPLE_RATE_HZ * FRAME_MS / 1000
def MAX_OPUS_PACKET_BYTES : Nat := 60
def IDLE_TIMEOUT_MS : Nat := 5 * 60 * 1000
def OGG_FIXED_OVERHEAD : Nat := 128
def OGG_PAGE_OVERHEAD : Nat := 32
def MAX_SESSIONS : Nat := 4
def SERIAL : Nat := 0x10000001

abbrev Packet := List UInt8

inductive PacketWriteEndInfo where
  | EndPage
  | EndStream
deriving DecidableEq

-- What is handed to the Ogg writer.
structure OggPacket where
  data : Packet
  serial : Nat := SERIAL
  inf : PacketWriteEndInfo := .EndPage
  granule : Nat := 0
deriving DecidableEq

-- The crates below: the Opus encoder with its state, its frames, base64 and the Ogg writer,
-- which is told how many packets it wrote before. A sample is the bits of its `f32`.
structure Crates (σ φ : Type) where
  newEncoder : Except String σ
  rawAudioFrame : Nat → List UInt32 → Except String φ
  encodeFrame : σ → φ → Except String Packet × σ
  base64Decode : List Char → Except String (List UInt8)
  writePacket : Nat → OggPacket → Except String (List UInt8)
  AM_OPUS_OGG : Nat

structure VoiceMemoSession (σ : Type) where
  encoder : σ
  opusPackets : List Packet
  startedMs : Nat
  lastActivityMs : Nat

abbrev Sessions (σ : Type) := OrderedMap String (VoiceMemoSession σ)

structure PushReply where
  frames : Nat
  durationMs : Nat
deriving DecidableEq

structure StopReply where
  sessionId : String
  oggBase64 : List Char
  durationMs : Nat
  sizeBytes : Nat
  startedMs : Nat
  mode : Nat
deriving DecidableEq

variable {σ φ : Type} (crates : Crates σ φ)

def pruneIdleSessions (sessions : Sessions σ) (now : Nat) : Sessions σ :=
  sessions.filter fun _ session => now - session.lastActivityMs ≤ IDLE_TIMEOUT_MS

def estimateOggBytes (packets : List Packet) : Nat :=
  (packets.map List.length).sum + OGG_FIXED_OVERHEAD + packets.length * OGG_PAGE_OVERHEAD

def f32FromLeBytes : List UInt8 → List UInt32
  | a :: b :: c :: d :: rest =>
      UInt32.ofNat (a.toNat + 256 * b.toNat + 65536 * c.toNat + 16777216 * d.toNat) :: f32FromLeBytes rest
  | _ => []

def decodeF32LeBase64 (samplesB64 : List Char) : Except String (List UInt32) :=
  match crates.base64Decode samplesB64 with
  | .error e => .error ("samples_b64_decode: " ++ e)
  | .ok bytes => if bytes.length % 4 ≠ 0 then .error "samples_b64_misaligned" else .ok (f32FromLeBytes bytes)

-- Little-endian, in so many bytes.
def toLeBytes : Nat → Nat → List UInt8
  | 0, _ => []
  | width + 1, n => UInt8.ofNat n :: toLeBytes width (n / 256)

def ascii (text : String) : List UInt8 := text.toList.map fun c => UInt8.ofNat c.toNat

def opusHeadPacket : Packet :=
  ascii "OpusHead" ++ [1, UInt8.ofNat CHANNELS] ++ toLeBytes 2 0 ++ toLeBytes 4 SAMPLE_RATE_HZ ++ toLeBytes 2 0 ++ [0]

def opusTagsPacket : Packet :=
  ascii "OpusTags" ++ toLeBytes 4 (ascii "Ratspeak").length ++ ascii "Ratspeak" ++ toLeBytes 4 0

def granulePerPacket : Nat := OPUS_GRANULE_HZ * FRAME_MS / 1000

-- The audio packets from index `i` on, when so many come after them: one to a page.
def audioPackets : Nat → List Packet → List OggPacket
  | _, [] => []
  | i, packet :: rest =>
      { data := packet, inf := if rest = [] then .EndStream else .EndPage, granule := granulePerPacket * (i + 1) } ::
        audioPackets (i + 1) rest

def writeAudio : Nat → List OggPacket → Except String (List UInt8)
  | _, [] => .ok []
  | written, packet :: rest =>
      match crates.writePacket written packet with
      | .error e => .error ("ogg_write_audio: " ++ e)
      | .ok page => (writeAudio (written + 1) rest).map (page ++ ·)

def muxOpusOgg (opusPackets : List Packet) : Except String (List UInt8) :=
  if opusPackets = [] then .error "voice_memo_empty"
  else
    match crates.writePacket 0 { data := opusHeadPacket } with
    | .error e => .error ("ogg_write_head: " ++ e)
    | .ok head =>
        match crates.writePacket 1 { data := opusTagsPacket } with
        | .error e => .error ("ogg_write_tags: " ++ e)
        | .ok tags =>
            match writeAudio crates 2 (audioPackets 0 opusPackets) with
            | .error e => .error e
            | .ok audio =>
                if (ascii "OggS").isPrefixOf (head ++ tags ++ audio) then .ok (head ++ tags ++ audio)
                else .error "ogg_missing_magic"

-- The new session's id is a fresh Uuid.
def start (sessions : Sessions σ) (now : Nat) (sessionId : String) : Except String String × Sessions σ :=
  match crates.newEncoder with
  | .error e => (.error ("voice_memo_encoder: " ++ e), sessions)
  | .ok encoder =>
      let pruned := pruneIdleSessions sessions now
      if MAX_SESSIONS ≤ pruned.size then (.error "voice_memo_busy", pruned)
      else (.ok sessionId, pruned.set sessionId { encoder, opusPackets := [], startedMs := now, lastActivityMs := now })

-- What is checked before the sessions are locked.
def frameSamples (channels : Nat) (samplesB64 : List Char) : Except String (List UInt32) :=
  if channels ≠ CHANNELS then .error ("invalid_channels: expected " ++ toString CHANNELS)
  else
    match decodeF32LeBase64 crates samplesB64 with
    | .error e => .error e
    | .ok samples =>
        if samples.length ≠ SAMPLES_PER_FRAME then
          .error ("invalid_frame_samples: " ++ toString samples.length ++ " (expected " ++ toString SAMPLES_PER_FRAME ++ ")")
        else .ok samples

def pushFrame (session : VoiceMemoSession σ) (now : Nat) (samples : List UInt32) :
    Except String PushReply × VoiceMemoSession σ :=
  if VOICE_MEMO_MAX_FRAME_COUNT ≤ session.opusPackets.length then (.error "voice_memo_too_long", session)
  else
    match crates.rawAudioFrame CHANNELS samples with
    | .error e => (.error ("voice_memo_frame: " ++ e), session)
    | .ok frame =>
        let encoded := crates.encodeFrame session.encoder frame
        let session := { session with encoder := encoded.2 }
        match encoded.1 with
        | .error e => (.error ("voice_memo_encode: " ++ e), session)
        | .ok payload =>
            if payload.length > MAX_OPUS_PACKET_BYTES then
              (.error ("voice_memo_packet_too_large: " ++ toString payload.length), session)
            else
              let session := { session with opusPackets := session.opusPackets ++ [payload], lastActivityMs := now }
              if estimateOggBytes session.opusPackets > VOICE_MEMO_MAX_OGG_BYTES then (.error "voice_memo_too_large", session)
              else
                (.ok { frames := session.opusPackets.length, durationMs := session.opusPackets.length * FRAME_MS }, session)

def pushAudio (sessions : Sessions σ) (now : Nat) (sessionId : String) (channels : Nat) (samplesB64 : List Char) :
    Except String PushReply × Sessions σ :=
  match frameSamples crates channels samplesB64 with
  | .error e => (.error e, sessions)
  | .ok samples =>
      let pruned := pruneIdleSessions sessions now
      match pruned.get? sessionId with
      | none => (.error "voice_memo_session_unknown", pruned)
      | some session =>
          let pushed := pushFrame crates session now samples
          (pushed.1, pruned.set sessionId pushed.2)

def stop (sessions : Sessions σ) (now : Nat) (sessionId : String) : Except String StopReply × Sessions σ :=
  let pruned := pruneIdleSessions sessions now
  match pruned.get? sessionId with
  | none => (.error "voice_memo_session_unknown", pruned)
  | some session =>
      let removed := pruned.erase sessionId
      if session.opusPackets = [] then (.error "voice_memo_empty", removed)
      else
        match muxOpusOgg crates session.opusPackets with
        | .error e => (.error e, removed)
        | .ok ogg =>
            if ogg.length > VOICE_MEMO_MAX_OGG_BYTES then
              (.error ("voice_memo_too_large: " ++ toString ogg.length ++ " > " ++ toString VOICE_MEMO_MAX_OGG_BYTES), removed)
            else
              (.ok { sessionId, oggBase64 := Base64.encode ogg, durationMs := session.opusPackets.length * FRAME_MS,
                     sizeBytes := ogg.length, startedMs := session.startedMs, mode := crates.AM_OPUS_OGG }, removed)

def cancel (sessions : Sessions σ) (now : Nat) (sessionId : String) : Bool × Sessions σ :=
  let pruned := pruneIdleSessions sessions now
  ((pruned.get? sessionId).isSome, pruned.erase sessionId)

-- A call, with the clock it reads.
inductive Op where
  | start (now : Nat) (sessionId : String)
  | pushAudio (now : Nat) (sessionId : String) (channels : Nat) (samplesB64 : List Char)
  | stop (now : Nat) (sessionId : String)
  | cancel (now : Nat) (sessionId : String)

def Op.now : Op → Nat
  | .start now _ | .pushAudio now _ _ _ | .stop now _ | .cancel now _ => now

def step (sessions : Sessions σ) : Op → Sessions σ
  | .start now id => (start crates sessions now id).2
  | .pushAudio now id channels samplesB64 => (pushAudio crates sessions now id channels samplesB64).2
  | .stop now id => (stop crates sessions now id).2
  | .cancel now id => (cancel sessions now id).2

-- What the Ogg crate does with a packet of one segment: a page of 28 bytes more than the packet.
def WritesPages : Prop :=
  ∀ written (packet : OggPacket), packet.data.length < 255 →
    ∃ page, crates.writePacket written packet = .ok page ∧ page.length = 28 + packet.data.length ∧ ascii "OggS" <+: page

section Prune

variable {sessions : Sessions σ} {now : Nat}

theorem get?_pruneIdleSessions {id : String} {session : VoiceMemoSession σ} :
    (pruneIdleSessions sessions now).get? id = some session ↔
      sessions.get? id = some session ∧ now - session.lastActivityMs ≤ IDLE_TIMEOUT_MS := by
  rw [pruneIdleSessions, OrderedMap.get?_filter, Option.filter_eq_some_iff, decide_eq_true_eq]

end Prune

section Mux

variable {crates}

-- The audio pages, one behind the other.
theorem writeAudio_ok (hwriter : WritesPages crates) (packets : List OggPacket)
    (hsmall : ∀ packet ∈ packets, packet.data.length < 255) (written : Nat) :
    ∃ audio, writeAudio crates written packets = .ok audio ∧
      audio.length = (packets.map fun packet => 28 + packet.data.length).sum := by
  induction packets generalizing written with
  | nil => exact ⟨[], rfl, rfl⟩
  | cons packet rest ih =>
      obtain ⟨page, hpage, hlength, -⟩ := hwriter written packet (hsmall packet List.mem_cons_self)
      obtain ⟨audio, haudio, hsum⟩ := ih (fun p hp => hsmall p (List.mem_cons_of_mem _ hp)) (written + 1)
      refine ⟨page ++ audio, ?_, ?_⟩
      · rw [writeAudio, hpage]
        simp only [haudio, Except.map]
      · rw [List.length_append, hlength, hsum, List.map_cons, List.sum_cons]

theorem audioPackets_data (i : Nat) (packets : List Packet) :
    (audioPackets i packets).map OggPacket.data = packets := by
  induction packets generalizing i with
  | nil => rfl
  | cons packet rest ih => rw [audioPackets, List.map_cons, ih]

theorem audioPackets_granule (i : Nat) (packets : List Packet) :
    (audioPackets i packets).map OggPacket.granule = (List.range' (i + 1) packets.length).map (2880 * ·) := by
  induction packets generalizing i with
  | nil => rfl
  | cons packet rest ih => rw [audioPackets, List.map_cons, ih, List.length_cons, List.range'_succ, List.map_cons]; rfl

theorem audioPackets_sum (i : Nat) (packets : List Packet) :
    ((audioPackets i packets).map fun packet => 28 + packet.data.length).sum =
      28 * packets.length + (packets.map List.length).sum := by
  induction packets generalizing i with
  | nil => rfl
  | cons packet rest ih =>
      rw [audioPackets, List.map_cons, List.sum_cons, ih, List.map_cons, List.sum_cons, List.length_cons]
      show 28 + packet.length + (28 * rest.length + (rest.map List.length).sum) = _
      omega

-- The container is at most as long as it was estimated.
theorem muxOpusOgg_ok (hwriter : WritesPages crates) {packets : List Packet} (hsome : packets ≠ [])
    (hsmall : ∀ packet ∈ packets, packet.length ≤ MAX_OPUS_PACKET_BYTES) :
    ∃ head tags audio, crates.writePacket 0 { data := opusHeadPacket } = .ok head ∧
      crates.writePacket 1 { data := opusTagsPacket } = .ok tags ∧
      writeAudio crates 2 (audioPackets 0 packets) = .ok audio ∧
      muxOpusOgg crates packets = .ok (head ++ tags ++ audio) ∧
      (head ++ tags ++ audio).length ≤ estimateOggBytes packets := by
  obtain ⟨head, hhead, hheadLength, hmagic⟩ := hwriter 0 { data := opusHeadPacket } (by decide)
  obtain ⟨tags, htags, htagsLength, -⟩ := hwriter 1 { data := opusTagsPacket } (by decide)
  have hdata : ∀ packet ∈ audioPackets 0 packets, packet.data.length < 255 := by
    intro packet hpacket
    have hmem : packet.data ∈ packets := by
      rw [← audioPackets_data 0 packets]
      exact List.mem_map_of_mem hpacket
    have hle := hsmall packet.data hmem
    unfold MAX_OPUS_PACKET_BYTES at hle
    omega
  obtain ⟨audio, haudio, hsum⟩ := writeAudio_ok hwriter (audioPackets 0 packets) hdata 2
  have hmagicFirst : (ascii "OggS").isPrefixOf (head ++ tags ++ audio) = true := by
    rw [List.isPrefixOf_iff_prefix, List.append_assoc]
    exact hmagic.trans (List.prefix_append _ _)
  refine ⟨head, tags, audio, hhead, htags, haudio, ?_, ?_⟩
  · rw [muxOpusOgg, if_neg hsome, hhead, htags, haudio]
    simp only [hmagicFirst, if_true]
  · have hheadBytes : opusHeadPacket.length = 19 := by decide
    have htagsBytes : opusTagsPacket.length = 24 := by decide
    simp only [hheadBytes] at hheadLength
    simp only [htagsBytes] at htagsLength
    rw [audioPackets_sum] at hsum
    simp only [List.length_append, hheadLength, htagsLength, hsum, estimateOggBytes, OGG_FIXED_OVERHEAD, OGG_PAGE_OVERHEAD]
    omega

end Mux

end MeshClient.Reticulum.VoiceMemo
