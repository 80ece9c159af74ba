import MeshClient.Lib.FirstStep
import MeshClient.Reticulum.VoiceMemo

namespace MeshClient.Reticulum.VoiceMemo

open Run

variable {σ φ : Type} {crates : Crates σ φ}

-- A push leaves its session's list alone, or it puts the encoder's packet at its end. It is
-- refused after that when the list is then estimated too long.
inductive Pushed (crates : Crates σ φ) (session : VoiceMemoSession σ) (now : Nat) (samples : List UInt32) :
    Except String PushReply × VoiceMemoSession σ → Prop
  | refused (e : String) (session' : VoiceMemoSession σ) (hpackets : session'.opusPackets = session.opusPackets)
      (hactive : session'.lastActivityMs = session.lastActivityMs) : Pushed crates session now samples (.error e, session')
  | listed (frame : φ) (payload : Packet) (reply : Except String PushReply)
      (hcount : session.opusPackets.length < VOICE_MEMO_MAX_FRAME_COUNT)
      (hframe : crates.rawAudioFrame CHANNELS samples = .ok frame)
      (hencoded : (crates.encodeFrame session.encoder frame).1 = .ok payload)
      (hsmall : payload.length ≤ MAX_OPUS_PACKET_BYTES)
      (hreply : reply.isOk = true ↔ estimateOggBytes (session.opusPackets ++ [payload]) ≤ VOICE_MEMO_MAX_OGG_BYTES) :
      Pushed crates session now samples
        (reply, { session with
          encoder := (crates.encodeFrame session.encoder frame).2
          opusPackets := session.opusPackets ++ [payload]
          lastActivityMs := now })

theorem pushFrame_pushed (crates : Crates σ φ) (session : VoiceMemoSession σ) (now : Nat) (samples : List UInt32) :
    Pushed crates session now samples (pushFrame crates session now samples) := by
  unfold pushFrame
  by_cases hcount : VOICE_MEMO_MAX_FRAME_COUNT ≤ session.opusPackets.length
  · rw [if_pos hcount]
    exact .refused _ _ rfl rfl
  rw [if_neg hcount]
  cases hframe : crates.rawAudioFrame CHANNELS samples with
  | error e => exact .refused _ _ rfl rfl
  | ok frame =>
      cases hencoded : (crates.encodeFrame session.encoder frame).1 with
      | error e =>
          simp only [hencoded]
          exact .refused _ _ rfl rfl
      | ok payload =>
          simp only [hencoded]
          by_cases hlarge : payload.length > MAX_OPUS_PACKET_BYTES
          · rw [if_pos hlarge]
            exact .refused _ _ rfl rfl
          · rw [if_neg hlarge]
            have hlisted := fun reply hreply =>
              @Pushed.listed σ φ crates session now samples frame payload reply (by omega) hframe hencoded (by omega) hreply
            split_ifs with hestimate
            · exact hlisted _ (by simp only [Except.isOk, Except.toBool]; simp; omega)
            · exact hlisted _ (by simp only [Except.isOk, Except.toBool]; simp; omega)

-- What a caller knows of a memo from the answers alone: the packets of the pushes that were
-- answered with Ok, and when its session was last used.
structure Memo where
  packets : List Packet
  lastActivityMs : Nat
deriving DecidableEq

structure Watched (σ : Type) where
  sessions : Sessions σ
  memos : String → Option Memo
  clock : Nat

-- What the session's encoder makes of the samples.
def encodedPacket (crates : Crates σ φ) (sessions : Sessions σ) (id : String) (channels : Nat) (samplesB64 : List Char) :
    Option Packet :=
  match frameSamples crates channels samplesB64, sessions.get? id with
  | .ok samples, some session =>
      match crates.rawAudioFrame CHANNELS samples with
      | .ok frame => (crates.encodeFrame session.encoder frame).1.toOption
      | .error _ => none
  | _, _ => none

def record (crates : Crates σ φ) (w : Watched σ) : Op → String → Option Memo
  | .start now id =>
      if (start crates w.sessions now id).1.isOk then Function.update w.memos id (some ⟨[], now⟩) else w.memos
  | .pushAudio now id channels samplesB64 =>
      if (pushAudio crates w.sessions now id channels samplesB64).1.isOk then
        Function.update w.memos id
          ((w.memos id).map fun memo =>
            ⟨memo.packets ++ (encodedPacket crates w.sessions id channels samplesB64).toList, now⟩)
      else w.memos
  | .stop _ id | .cancel _ id => Function.update w.memos id none

def watch (crates : Crates σ φ) (w : Watched σ) (op : Op) : Watched σ where
  sessions := step crates w.sessions op
  memos := record crates w op
  clock := op.now

def noSessions : Watched σ := ⟨∅, fun _ => none, 0⟩

def Later (w : Watched σ) (op : Op) : Prop := w.clock ≤ op.now

-- The push is refused, or the list with the encoder's packet behind it is not estimated too long.
def FitsEstimate (crates : Crates σ φ) (w : Watched σ) : Op → Prop
  | .pushAudio now id channels samplesB64 =>
      ∀ samples session frame payload, frameSamples crates channels samplesB64 = .ok samples →
        w.sessions.get? id = some session → now - session.lastActivityMs ≤ IDLE_TIMEOUT_MS →
        session.opusPackets.length < VOICE_MEMO_MAX_FRAME_COUNT → crates.rawAudioFrame CHANNELS samples = .ok frame →
        (crates.encodeFrame session.encoder frame).1 = .ok payload → payload.length ≤ MAX_OPUS_PACKET_BYTES →
        estimateOggBytes (session.opusPackets ++ [payload]) ≤ VOICE_MEMO_MAX_OGG_BYTES
  | _ => True

def packetsOf (sessions : Sessions σ) (id : String) : Option (List Packet) := (sessions.get? id).map (·.opusPackets)

-- An error leaves the packets of every session that is not idle-expired.
def ErrorCostsNothing (crates : Crates σ φ) (w : Watched σ) : Op → Prop
  | .pushAudio now id channels samplesB64 =>
      (pushAudio crates w.sessions now id channels samplesB64).1.isOk = false →
      ∀ other session, w.sessions.get? other = some session → now - session.lastActivityMs ≤ IDLE_TIMEOUT_MS →
        packetsOf (pushAudio crates w.sessions now id channels samplesB64).2 other = some session.opusPackets
  | _ => True

-- The Ogg stream of a memo: two header pages, and the audio packets one to a page, the i-th at 2880 i.
structure OggOf (crates : Crates σ φ) (packets : List Packet) (ogg : List UInt8) : Prop where
  small : ogg.length ≤ VOICE_MEMO_MAX_OGG_BYTES
  pages : ∃ (head tags audio : List UInt8) (written : List OggPacket),
    ogg = head ++ tags ++ audio ∧ crates.writePacket 0 { data := opusHeadPacket } = .ok head ∧
    crates.writePacket 1 { data := opusTagsPacket } = .ok tags ∧ writeAudio crates 2 written = .ok audio ∧
    written.map OggPacket.data = packets ∧ written.map OggPacket.granule = (List.range' 1 packets.length).map (2880 * ·)

-- A stop of a memo that is not idle-expired gives the packets of its successful pushes.
def StopGivesMemo (crates : Crates σ φ) (w : Watched σ) : Prop :=
  ∀ now id memo, w.clock ≤ now → w.memos id = some memo → now - memo.lastActivityMs ≤ IDLE_TIMEOUT_MS →
    memo.packets ≠ [] → ∃ reply ogg, (stop crates w.sessions now id).1 = .ok reply ∧
      reply.oggBase64 = Base64.encode ogg ∧ OggOf crates memo.packets ogg

-- Every list could be sent: no packet is too large, nor are they together.
structure Sendable (session : VoiceMemoSession σ) : Prop where
  small : ∀ packet ∈ session.opusPackets, packet.length ≤ MAX_OPUS_PACKET_BYTES
  fits : session.opusPackets ≠ [] → estimateOggBytes session.opusPackets ≤ VOICE_MEMO_MAX_OGG_BYTES

-- The sessions are the memos that were in use lately.
structure Agrees (w : Watched σ) : Prop where
  listed : ∀ id session, w.sessions.get? id = some session →
    w.memos id = some ⟨session.opusPackets, session.lastActivityMs⟩
  kept : ∀ id memo, w.memos id = some memo → w.clock - memo.lastActivityMs ≤ IDLE_TIMEOUT_MS →
    ∃ session, w.sessions.get? id = some session
  sendable : ∀ id session, w.sessions.get? id = some session → Sendable session

theorem agrees_noSessions : Agrees (noSessions : Watched σ) where
  listed := fun _ _ h => by cases h
  kept := fun _ _ h => by cases h
  sendable := fun _ _ h => by cases h

section Agrees

variable {w : Watched σ} (hagrees : Agrees w)
include hagrees

theorem Agrees.later {now : Nat} (hlater : w.clock ≤ now) : Agrees { w with clock := now } where
  listed := hagrees.listed
  kept := by
    intro id memo hmemo hactive
    simp only at hactive
    exact hagrees.kept id memo hmemo (by omega)
  sendable := hagrees.sendable

-- What is pruned was idle for too long.
theorem Agrees.prune {now : Nat} (hlater : w.clock ≤ now) :
    Agrees { w with sessions := pruneIdleSessions w.sessions now, clock := now } where
  listed := fun id session h => hagrees.listed id session (get?_pruneIdleSessions.mp h).1
  kept := by
    intro id memo hmemo hactive
    simp only at hmemo hactive
    obtain ⟨session, hsession⟩ := hagrees.kept id memo hmemo (by omega)
    have hlisted := hagrees.listed id session hsession
    rw [hmemo, Option.some.injEq] at hlisted
    subst hlisted
    exact ⟨session, get?_pruneIdleSessions.mpr ⟨hsession, hactive⟩⟩
  sendable := fun id session h => hagrees.sendable id session (get?_pruneIdleSessions.mp h).1

-- A session and its memo are written together.
theorem Agrees.set (id : String) (session : VoiceMemoSession σ) (hsendable : Sendable session) :
    Agrees { w with
      sessions := w.sessions.set id session
      memos := Function.update w.memos id (some ⟨session.opusPackets, session.lastActivityMs⟩) } where
  listed := by
    intro other found hfound
    simp only [OrderedMap.get?_set] at hfound
    by_cases hother : other = id
    · rw [if_pos hother, Option.some.injEq] at hfound
      subst hother hfound
      exact Function.update_self ..
    · rw [if_neg hother] at hfound
      exact (Function.update_of_ne hother ..).trans (hagrees.listed other found hfound)
  kept := by
    intro other memo hmemo hactive
    simp only [OrderedMap.get?_set]
    by_cases hother : other = id
    · exact ⟨session, if_pos hother⟩
    · rw [if_neg hother]
      exact hagrees.kept other memo ((Function.update_of_ne hother ..).symm.trans hmemo) hactive
  sendable := by
    intro other found hfound
    simp only [OrderedMap.get?_set] at hfound
    by_cases hother : other = id
    · rw [if_pos hother, Option.some.injEq] at hfound
      exact hfound ▸ hsendable
    · rw [if_neg hother] at hfound
      exact hagrees.sendable other found hfound

theorem Agrees.erase (id : String) :
    Agrees { w with sessions := w.sessions.erase id, memos := Function.update w.memos id none } where
  listed := by
    intro other found hfound
    simp only [OrderedMap.get?_erase] at hfound
    split_ifs at hfound with hother
    exact (Function.update_of_ne hother ..).trans (hagrees.listed other found hfound)
  kept := by
    intro other memo hmemo hactive
    simp only [OrderedMap.get?_erase]
    by_cases hother : other = id
    · simp only [hother, Function.update_self] at hmemo
      cases hmemo
    · rw [if_neg hother]
      exact hagrees.kept other memo ((Function.update_of_ne hother ..).symm.trans hmemo) hactive
  sendable := by
    intro other found hfound
    simp only [OrderedMap.get?_erase] at hfound
    split_ifs at hfound with hother
    exact hagrees.sendable other found hfound

theorem Agrees.forget {id : String} (hnone : w.sessions.get? id = none) :
    Agrees { w with memos := Function.update w.memos id none } := by
  have hsame : w.sessions.erase id = w.sessions := by
    refine OrderedMap.filter_eq_self _ _ fun key session hkey => ?_
    have hne : key ≠ id := by
      intro heq
      rw [heq, hnone] at hkey
      cases hkey
    exact decide_eq_true hne
  have herase := hagrees.erase id
  rw [hsame] at herase
  exact herase

theorem agrees_start (crates : Crates σ φ) {now : Nat} (id : String) (hlater : w.clock ≤ now) :
    Agrees (watch crates w (.start now id)) := by
  simp only [watch, step, record, Op.now]
  unfold start
  cases crates.newEncoder with
  | error e => exact hagrees.later hlater
  | ok encoder =>
      have hprune := hagrees.prune hlater
      by_cases hbusy : MAX_SESSIONS ≤ (pruneIdleSessions w.sessions now).size
      · simp only [if_pos hbusy]
        exact hprune
      · simp only [if_neg hbusy]
        exact hprune.set id ⟨encoder, [], now, now⟩ ⟨fun _ h => absurd h List.not_mem_nil, fun h => absurd rfl h⟩

theorem agrees_push {now : Nat} {id : String} {channels : Nat} {samplesB64 : List Char} (hlater : w.clock ≤ now)
    (hfits : FitsEstimate crates w (.pushAudio now id channels samplesB64)) :
    Agrees (watch crates w (.pushAudio now id channels samplesB64)) := by
  simp only [watch, step, record, Op.now]
  have hprune := hagrees.prune hlater
  cases hsamples : frameSamples crates channels samplesB64 with
  | error e =>
      simp only [pushAudio, hsamples]
      exact hagrees.later hlater
  | ok samples =>
      cases hsession : (pruneIdleSessions w.sessions now).get? id with
      | none =>
          simp only [pushAudio, hsamples, hsession]
          exact hprune
      | some session =>
          have hpushed := pushFrame_pushed crates session now samples
          simp only [pushAudio, hsamples, hsession]
          obtain ⟨hbefore, hactive⟩ := get?_pruneIdleSessions.mp hsession
          have hmemo := hagrees.listed id session hbefore
          have hsendable := hagrees.sendable id session hbefore
          generalize pushFrame crates session now samples = pushed at hpushed
          cases hpushed with
          | refused e session' hpackets hlast =>
              have hset := hprune.set id session' ⟨hpackets ▸ hsendable.small, hpackets ▸ hsendable.fits⟩
              simp only [hpackets, hlast, ← hmemo, Function.update_eq_self] at hset
              exact hset
          | listed frame payload reply hcount hframe hencoded hsmall hreply =>
              have hestimate := hfits samples session frame payload hsamples hbefore hactive hcount hframe hencoded hsmall
              have hpacket : encodedPacket crates w.sessions id channels samplesB64 = some payload := by
                simp only [encodedPacket, hsamples, hbefore, hframe, hencoded]
                rfl
              have hset := hprune.set id { session with
                encoder := (crates.encodeFrame session.encoder frame).2
                opusPackets := session.opusPackets ++ [payload]
                lastActivityMs := now } ⟨by
                  intro packet hpacket
                  rcases List.mem_append.mp hpacket with hold | hnew
                  · exact hsendable.small packet hold
                  · exact List.mem_singleton.mp hnew ▸ hsmall, fun _ => hestimate⟩
              simp only [hreply.mpr hestimate, if_true, hmemo, hpacket, Option.map_some, Option.toList_some]
              exact hset

theorem agrees_stop (crates : Crates σ φ) {now : Nat} (id : String) (hlater : w.clock ≤ now) :
    Agrees (watch crates w (.stop now id)) := by
  have hprune := hagrees.prune hlater
  have hsessions : (stop crates w.sessions now id).2 = (pruneIdleSessions w.sessions now).erase id ∨
      (pruneIdleSessions w.sessions now).get? id = none ∧
        (stop crates w.sessions now id).2 = pruneIdleSessions w.sessions now := by
    cases hsession : (pruneIdleSessions w.sessions now).get? id with
    | none => exact .inr ⟨rfl, by simp only [stop, hsession]⟩
    | some session =>
        refine .inl ?_
        simp only [stop, hsession]
        by_cases hempty : session.opusPackets = []
        · rw [if_pos hempty]
        · rw [if_neg hempty]
          cases muxOpusOgg crates session.opusPackets with
          | error e => rfl
          | ok ogg =>
              simp only
              split_ifs <;> rfl
  simp only [watch, step, record, Op.now]
  obtain herased | ⟨hnone, hsame⟩ := hsessions
  · rw [herased]
    exact hprune.erase id
  · rw [hsame]
    exact hprune.forget hnone

-- One call keeps the sessions and the memos together.
theorem agrees_watch {op : Op} (hlater : Later w op) (hfits : FitsEstimate crates w op) : Agrees (watch crates w op) := by
  cases op with
  | start now id => exact agrees_start hagrees crates id hlater
  | pushAudio now id channels samplesB64 => exact agrees_push hagrees hlater hfits
  | stop now id => exact agrees_stop hagrees crates id hlater
  | cancel now id => exact (hagrees.prune hlater).erase id

theorem stopGivesMemo (hwriter : WritesPages crates) : StopGivesMemo crates w := by
  intro now id memo hlater hmemo hactive hsome
  have hprune := hagrees.prune hlater
  obtain ⟨session, hsession⟩ := hprune.kept id memo hmemo hactive
  have hlisted := hprune.listed id session hsession
  simp only [hmemo, Option.some.injEq] at hlisted
  subst hlisted
  have hsendable := hprune.sendable id session hsession
  obtain ⟨head, tags, audio, hhead, htags, haudio, hmux, hle⟩ := muxOpusOgg_ok hwriter hsome hsendable.small
  have hfits := hle.trans (hsendable.fits hsome)
  have hstop : ∃ reply, (stop crates w.sessions now id).1 = .ok reply ∧
      reply.oggBase64 = Base64.encode (head ++ tags ++ audio) := by
    simp only [stop, hsession, if_neg hsome, hmux, if_neg (Nat.not_lt.mpr hfits)]
    exact ⟨_, rfl, rfl⟩
  obtain ⟨reply, hreply, hogg⟩ := hstop
  exact ⟨reply, head ++ tags ++ audio, hreply, hogg, hfits, head, tags, audio, _, rfl, hhead, htags, haudio,
    audioPackets_data 0 _, audioPackets_granule 0 _⟩

end Agrees

-- Only the packet that makes its list too long is kept in spite of the error.
theorem errorCostsNothing_iff (crates : Crates σ φ) (w : Watched σ) (op : Op) :
    ErrorCostsNothing crates w op ↔ FitsEstimate crates w op := by
  cases op with
  | start => exact Iff.rfl
  | stop => exact Iff.rfl
  | cancel => exact Iff.rfl
  | pushAudio now id channels samplesB64 =>
      have hother : ∀ {other session} (sessions : Sessions σ), sessions.get? other = some session →
          packetsOf sessions other = some session.opusPackets := by
        intro other session sessions h
        rw [packetsOf, h]
        rfl
      constructor
      · intro hnothing samples session frame payload hsamples hsession hactive hcount hframe hencoded hsmall
        have hkept := get?_pruneIdleSessions.mpr ⟨hsession, hactive⟩
        by_contra hlong
        have hpush : (pushAudio crates w.sessions now id channels samplesB64) =
            (.error "voice_memo_too_large", (pruneIdleSessions w.sessions now).set id { session with
              encoder := (crates.encodeFrame session.encoder frame).2
              opusPackets := session.opusPackets ++ [payload]
              lastActivityMs := now }) := by
          simp only [pushAudio, hsamples, hkept, pushFrame, if_neg (Nat.not_le.mpr hcount), hframe, hencoded,
            if_neg (Nat.not_lt.mpr hsmall), if_pos (Nat.not_le.mp hlong)]
        have hleft := hnothing (by rw [hpush]; rfl) id session hsession hactive
        rw [hpush, hother _ (OrderedMap.get?_set_self ..), Option.some.injEq] at hleft
        exact absurd (congrArg List.length hleft) (by simp)
      · intro hfits herror other found hfound hlately
        have hkept := get?_pruneIdleSessions.mpr ⟨hfound, hlately⟩
        cases hsamples : frameSamples crates channels samplesB64 with
        | error e =>
            simp only [pushAudio, hsamples]
            exact hother _ hfound
        | ok samples =>
            cases hsession : (pruneIdleSessions w.sessions now).get? id with
            | none =>
                simp only [pushAudio, hsamples, hsession]
                exact hother _ hkept
            | some session =>
                have hpushed := pushFrame_pushed crates session now samples
                simp only [pushAudio, hsamples, hsession] at herror ⊢
                obtain ⟨hbefore, hactive⟩ := get?_pruneIdleSessions.mp hsession
                generalize pushFrame crates session now samples = pushed at hpushed herror
                cases hpushed with
                | refused e session' hpackets hlast =>
                    simp only [packetsOf, OrderedMap.get?_set]
                    split_ifs with hsame
                    · rw [hsame, hbefore, Option.some.injEq] at hfound
                      rw [Option.map_some, hpackets, hfound]
                    · exact hother _ hkept
                | listed frame payload reply hcount hframe hencoded hsmall hreply =>
                    have hestimate :=
                      hfits samples session frame payload hsamples hbefore hactive hcount hframe hencoded hsmall
                    simp only [hreply.mpr hestimate, Bool.true_eq_false] at herror

theorem refused_frame_costs_nothing_iff (crates : Crates σ φ) (hwriter : WritesPages crates) (ops : List Op)
    (htimes : Each (watch crates) Later noSessions ops) :
    Each (watch crates) (ErrorCostsNothing crates) noSessions ops ∧
        Visits (watch crates) (StopGivesMemo crates) noSessions ops ↔
      Each (watch crates) (FitsEstimate crates) noSessions ops := by
  have hsame : ErrorCostsNothing crates = FitsEstimate crates :=
    funext fun w => funext fun op => propext (errorCostsNothing_iff crates w op)
  rw [hsame, and_iff_left_iff_imp]
  intro hfits
  have hsteps : Each (watch crates) (fun w op => Later w op ∧ FitsEstimate crates w op) noSessions ops := htimes.and hfits
  exact visits_of_each (fun w op hagrees h => agrees_watch hagrees h.1 h.2) (fun w hagrees => stopGivesMemo hagrees hwriter)
    hsteps agrees_noSessions

section Steady

-- The checksum of a page, most significant bit first.
def oggCrc (bytes : List UInt8) : UInt32 :=
  bytes.foldl (fun crc byte =>
    (List.range 8).foldl (fun crc _ => if crc &&& 0x80000000 = 0 then crc <<< 1 else crc <<< 1 ^^^ 0x04c11db7)
      (crc ^^^ byte.toUInt32 <<< (24 : UInt32))) (0 : UInt32)

def oggHeader (written : Nat) (packet : OggPacket) (crc : Nat) : List UInt8 :=
  ascii "OggS" ++ [0, (if written = 0 then 2 else 0) + (if packet.inf = .EndStream then 4 else 0)] ++
    toLeBytes 8 packet.granule ++ toLeBytes 4 packet.serial ++ toLeBytes 4 written ++ toLeBytes 4 crc ++ [1, UInt8.ofNat packet.data.length]

def oggPage (written : Nat) (packet : OggPacket) : List UInt8 :=
  oggHeader written packet (oggCrc (oggHeader written packet 0 ++ packet.data)).toNat ++ packet.data

-- An encoder that makes the largest packet it may of every frame.
def steadyCrates : Crates Unit (List UInt32) where
  newEncoder := .ok ()
  rawAudioFrame := fun _ samples => .ok samples
  encodeFrame := fun _ _ => (.ok (List.replicate 60 0), ())
  base64Decode := fun text => .ok (Base64.decode text)
  writePacket := fun written packet => .ok (oggPage written packet)
  AM_OPUS_OGG := 16

theorem writesPages_steady : WritesPages steadyCrates := by
  intro written packet _
  refine ⟨oggPage written packet, rfl, ?_, ?_⟩
  · rw [oggPage, List.length_append]
    rfl
  · simp only [oggPage, oggHeader, List.append_assoc]
    exact List.prefix_append _ _

-- A frame of silence.
def silence : List Char := Base64.encode (List.replicate (4 * 1440) 0)

theorem f32FromLeBytes_silence (n : Nat) : f32FromLeBytes (List.replicate (4 * n) 0) = List.replicate n 0 := by
  induction n with
  | zero => rfl
  | succ n ih =>
      rw [show 4 * (n + 1) = 4 * n + 1 + 1 + 1 + 1 by omega]
      simp only [List.replicate_succ, f32FromLeBytes, ih]
      rfl

theorem frameSamples_silence : frameSamples steadyCrates 1 silence = .ok (List.replicate 1440 0) := by
  have hdecode : decodeF32LeBase64 steadyCrates silence = .ok (List.replicate 1440 0) := by
    simp only [decodeF32LeBase64, steadyCrates, silence, Base64.decode_encode, List.length_replicate, f32FromLeBytes_silence]
    rfl
  simp only [frameSamples, hdecode, List.length_replicate]
  rfl

def pushSilence : Op := .pushAudio 0 "memo" 1 silence

def memoAfter (frames : Nat) : VoiceMemoSession Unit where
  encoder := ()
  opusPackets := List.replicate frames (List.replicate 60 0)
  startedMs := 0
  lastActivityMs := 0

def memoRun : List Op := [.start 0 "memo", pushSilence, .stop 60 "memo"]

theorem memo_of_one_frame : Each (watch steadyCrates) Later noSessions memoRun ∧
    (Each (watch steadyCrates) (ErrorCostsNothing steadyCrates) noSessions memoRun ∧
        Visits (watch steadyCrates) (StopGivesMemo steadyCrates) noSessions memoRun ↔
      Each (watch steadyCrates) (FitsEstimate steadyCrates) noSessions memoRun) := by
  have htimes : Each (watch steadyCrates) Later noSessions memoRun := ⟨Nat.le_refl 0, Nat.le_refl 0, Nat.zero_le 60, trivial⟩
  exact ⟨htimes, refused_frame_costs_nothing_iff steadyCrates writesPages_steady memoRun htimes⟩

theorem fits_pushSilence {w : Watched Unit} {frames : Nat} (hmemo : w.sessions.get? "memo" = some (memoAfter frames))
    (hcount : frames < VOICE_MEMO_MAX_FRAME_COUNT) (hfits : FitsEstimate steadyCrates w pushSilence) :
    estimateOggBytes (memoAfter (frames + 1)).opusPackets ≤ VOICE_MEMO_MAX_OGG_BYTES ∧
      (watch steadyCrates w pushSilence).sessions.get? "memo" = some (memoAfter (frames + 1)) := by
  have hpackets : (memoAfter frames).opusPackets ++ [List.replicate 60 0] = (memoAfter (frames + 1)).opusPackets :=
    List.replicate_succ'.symm
  have hlength : (memoAfter frames).opusPackets.length < VOICE_MEMO_MAX_FRAME_COUNT := by
    rw [memoAfter, List.length_replicate]
    exact hcount
  have hestimate := hfits _ _ _ _ frameSamples_silence hmemo (Nat.zero_le _) hlength rfl rfl (by decide)
  rw [hpackets] at hestimate
  refine ⟨hestimate, ?_⟩
  have hkept : (pruneIdleSessions w.sessions 0).get? "memo" = some (memoAfter frames) :=
    get?_pruneIdleSessions.mpr ⟨hmemo, Nat.zero_le _⟩
  simp only [watch, step, pushSilence, pushAudio, frameSamples_silence, hkept, OrderedMap.get?_set_self, Option.some.injEq]
  simp only [pushFrame, if_neg (Nat.not_le.mpr hlength), steadyCrates, List.length_replicate, hpackets,
    if_neg (Nat.not_lt.mpr hestimate)]
  rfl

theorem fits_silence (frames : Nat) (hframes : frames ≤ VOICE_MEMO_MAX_FRAME_COUNT) (n : Nat) (hn : n < frames)
    (w : Watched Unit)
    (hmemo : w.sessions.get? "memo" = some (memoAfter n))
    (hfits : Each (watch steadyCrates) (FitsEstimate steadyCrates) w (List.replicate (frames - n) pushSilence)) :
    estimateOggBytes (memoAfter frames).opusPackets ≤ VOICE_MEMO_MAX_OGG_BYTES := by
  obtain ⟨rest, hrest⟩ : ∃ rest, frames - n = rest + 1 := ⟨frames - n - 1, by omega⟩
  induction rest generalizing n w with
  | zero =>
      rw [hrest] at hfits
      rw [show frames = n + 1 by omega]
      exact (fits_pushSilence hmemo (by omega) hfits.1).1
  | succ rest ih =>
      rw [hrest] at hfits
      have hnext := (fits_pushSilence hmemo (by omega) hfits.1).2
      have hafter : frames - (n + 1) = rest + 1 := by omega
      exact ih (n + 1) (by omega) _ hnext (hafter ▸ hfits.2) hafter

-- The 2670th frame is refused, and it stays.
theorem refused_frame_stays :
    ¬ ∀ ops, Each (watch steadyCrates) Later noSessions ops →
      Each (watch steadyCrates) (ErrorCostsNothing steadyCrates) noSessions ops := by
  intro hall
  have htimes : ∀ n (w : Watched Unit), w.clock = 0 →
      Each (watch steadyCrates) Later w (List.replicate n pushSilence) := by
    intro n
    induction n with
    | zero => exact fun _ _ => trivial
    | succ n ih => exact fun w hclock => ⟨Nat.le_of_eq hclock, ih _ rfl⟩
  have hnothing := hall (.start 0 "memo" :: List.replicate 2670 pushSilence) ⟨Nat.le_refl 0, htimes 2670 _ rfl⟩
  rw [funext fun w => funext fun op => propext (errorCostsNothing_iff steadyCrates w op)] at hnothing
  have hestimate :=
    fits_silence 2670 (by decide) 0 (by decide) (watch steadyCrates noSessions (.start 0 "memo")) rfl hnothing.2
  simp only [memoAfter, estimateOggBytes, List.map_replicate, List.length_replicate, List.sum_replicate] at hestimate
  exact absurd hestimate (by decide)

end Steady

end MeshClient.Reticulum.VoiceMemo
