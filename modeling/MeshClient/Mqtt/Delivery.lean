import MeshClient.Lib.FirstStep
import MeshClient.Mqtt.Inbound

namespace MeshClient.Mqtt

open Js Meshtastic Run

-- A message of the broker, or a publish of our own, with the clock it meets.
inductive Inbound where
  | message (topic : String) (payload : Bytes) (now : Int)
  | publish (packetId : Nat) (now : Int)

def Inbound.now : Inbound → Int
  | .message _ _ now => now
  | .publish _ now => now

-- A copy of a packet as it comes to the duplicate check: its id, zero for none, and the text it gives if it passes.
structure PacketCopy where
  packetId : Nat := 0
  text : Option InboundText := none

namespace InboundState

variable (s : InboundState)

def takeCopy (copy : PacketCopy) (now : Int) : InboundState :=
  let (duplicate, s) := if copy.packetId ≠ 0 then s.isDuplicate copy.packetId now else (false, s)
  if duplicate then s else s.emit copy.text

-- Two states that differ at most in the envelopes remembered as bad and in the session.
def Agrees (a b : InboundState) : Prop := a.seenPacketIds = b.seenPacketIds ∧ a.messages = b.messages

end InboundState

section

variable (env : InboundEnv)

def packetText (packet : MeshPacket) (topic : String) (now : Int) : Option InboundText :=
  let data := match packet.payloadVariant with
    | some (.decoded data) => some data
    | some (.encrypted encrypted) => tryDecryptAllKeys env encrypted packet.id packet.from'
    | none => none
  data.bind fun data =>
    handleDecoded env packet.from' packet.id data (clampMeshtasticRfChannel (.ofNat packet.channel)) topic now

def envelopeCopy (envelope : ServiceEnvelope) (topic : String) (now : Int) : PacketCopy :=
  ((envelope.packet.filter fun packet => packet.from' ≠ 0).map fun packet =>
    ⟨packet.id, packetText env packet topic now⟩).getD {}

-- The envelope behind the bytes, with nulls at the end taken off where it needs that.
def peelNulls : Nat → Bytes → Option ServiceEnvelope
  | 0, _ => none
  | n + 1, bytes =>
      match env.decodeEnvelope bytes.dropLast with
      | .ok envelope => some envelope
      | .error msg => if isIllegalTagFieldZero msg then peelNulls n bytes.dropLast else none

def decodedEnvelope (bytes : Bytes) : Option ServiceEnvelope :=
  match env.decodeEnvelope bytes with
  | .ok envelope => some envelope
  | .error msg =>
      if isIllegalTagFieldZero msg then peelNulls env (InboundState.trailingNulls bytes) bytes else none

def jsonCopy (json : Json) (topic : String) (now : Int) : PacketCopy :=
  ((readJsonText env json topic now).map fun msg => ⟨msg.packetId, some msg⟩).getD {}

def jsonMessageCopy (json : Json) (topic : String) (now : Int) : PacketCopy :=
  let typeLower := env.toLowerCase ((((json.get "type").bind Json.string?).map trim).getD "")
  if json.isObject && !(["longName", "long_name", "shortName", "short_name"].any fun name => (json.get name).isSome) &&
      (typeLower = "text" || typeLower = "alert") then jsonCopy env json topic now
  else {}

-- The copy that the bytes hold, if they are not skipped.
def copyOf (skip : Bool) (topic : String) (payload : Bytes) (now : Int) : PacketCopy :=
  let bytes := payload.dropWhile (· = 0)
  if MQTT_MAX_PACKET_BYTES < payload.length then {}
  else if bytes.head? = some 0x7b then ((env.parseJson bytes).map fun json => jsonMessageCopy env json topic now).getD {}
  else if bytes.head? = some 0x0a ∧ skip = false then
    ((decodedEnvelope env bytes).map fun envelope => envelopeCopy env envelope topic now).getD {}
  else {}

namespace InboundState

variable {env : InboundEnv} (s : InboundState)

theorem takeCopy_none (now : Int) : s.takeCopy {} now = s := by
  simp [takeCopy, emit]

theorem handleEnvelope_eq (envelope : ServiceEnvelope) (topic : String) (now : Int) :
    s.handleEnvelope env envelope topic now = s.takeCopy (envelopeCopy env envelope topic now) now := by
  unfold handleEnvelope envelopeCopy
  cases hpacket : envelope.packet.filter fun packet => packet.from' ≠ 0 with
  | none => exact (takeCopy_none s now).symm
  | some packet =>
      simp only [Option.map_some, Option.getD_some, takeCopy, packetText]
      cases packet.payloadVariant with
      | none => simp [emit]
      | some variant =>
          cases variant with
          | decoded data => rfl
          | encrypted encrypted =>
              cases htext : tryDecryptAllKeys env encrypted packet.id packet.from' with
              | none => simp [emit, htext]
              | some data => simp [htext]

theorem handleJsonText_eq (json : Json) (topic : String) (now : Int) :
    s.handleJsonText env json topic now = s.takeCopy (jsonCopy env json topic now) now := by
  unfold handleJsonText jsonCopy
  cases readJsonText env json topic now with
  | none => exact (takeCopy_none s now).symm
  | some msg => rfl

theorem handleJsonMessage_eq (json : Json) (topic : String) (now : Int) :
    s.handleJsonMessage env json topic now = s.takeCopy (jsonMessageCopy env json topic now) now := by
  unfold handleJsonMessage jsonMessageCopy
  simp only
  by_cases hobject : json.isObject = true
  · by_cases hnode : (["longName", "long_name", "shortName", "short_name"].any fun name => (json.get name).isSome) = true
    · simp only [hobject, hnode, Bool.not_true, Bool.and_false, Bool.false_and, Bool.false_eq_true, if_false, if_true]
      exact (takeCopy_none s now).symm
    · by_cases htype : env.toLowerCase ((((json.get "type").bind Json.string?).map trim).getD "") = "text" ∨
          env.toLowerCase ((((json.get "type").bind Json.string?).map trim).getD "") = "alert"
      · simp only [hobject, hnode, htype, Bool.not_true, Bool.not_false, Bool.and_true, Bool.true_and,
          Bool.false_eq_true, if_false, if_true, Bool.or_eq_true, decide_eq_true_eq]
        exact handleJsonText_eq s json topic now
      · simp only [hobject, hnode, htype, Bool.not_true, Bool.not_false, Bool.and_true, Bool.true_and,
          Bool.false_eq_true, if_false, Bool.or_eq_true, decide_eq_true_eq]
        exact (takeCopy_none s now).symm
  · simp only [hobject, Bool.not_false, if_true, Bool.false_and, Bool.false_eq_true, if_false]
    exact (takeCopy_none s now).symm

theorem decodeAndHandle_eq (bytes : Bytes) (topic : String) (now : Int) :
    s.decodeAndHandleServiceEnvelope env bytes topic now =
      (env.decodeEnvelope bytes).map fun envelope => s.takeCopy (envelopeCopy env envelope topic now) now := by
  unfold decodeAndHandleServiceEnvelope
  simp only [handleEnvelope_eq]

theorem retryWithoutNulls_eq (topic : String) (now : Int) (n : Nat) (bytes : Bytes) :
    s.retryWithoutNulls env topic now n bytes =
      (peelNulls env n bytes).map fun envelope => s.takeCopy (envelopeCopy env envelope topic now) now := by
  induction n generalizing bytes with
  | zero => rfl
  | succ n ih =>
      rw [retryWithoutNulls, peelNulls, decodeAndHandle_eq]
      cases env.decodeEnvelope bytes.dropLast with
      | ok envelope => rfl
      | error msg =>
          simp only [Except.map]
          by_cases hnull : isIllegalTagFieldZero msg = true
          · rw [if_pos hnull, if_pos hnull, ih]
          · rw [if_neg hnull, if_neg hnull, Option.map_none]

-- Where the bytes hold no envelope, they are only remembered as bad.
theorem decodeServiceEnvelope_eq (bytes : Bytes) (topic : String) (now : Int) :
    s.decodeServiceEnvelopeWithTrailingNullRetry env bytes topic now =
      ((decodedEnvelope env bytes).map fun envelope => s.takeCopy (envelopeCopy env envelope topic now) now).getD
        (s.rememberBadEnvelope topic bytes now) := by
  unfold decodeServiceEnvelopeWithTrailingNullRetry decodedEnvelope
  rw [decodeAndHandle_eq]
  cases env.decodeEnvelope bytes with
  | ok envelope => rfl
  | error msg =>
      simp only [Except.map]
      by_cases hnull : isIllegalTagFieldZero msg = true
      · rw [if_pos hnull, if_pos hnull, retryWithoutNulls_eq]
      · rw [if_neg hnull, if_neg hnull]
        rfl

theorem Agrees.isDuplicate {a b : InboundState} (h : a.Agrees b) (packetId : Nat) (now : Int) :
    (a.isDuplicate packetId now).1 = (b.isDuplicate packetId now).1 ∧
      (a.isDuplicate packetId now).2.Agrees (b.isDuplicate packetId now).2 := by
  obtain ⟨hseen, hmessages⟩ := h
  unfold InboundState.isDuplicate
  rw [hseen]
  simp only
  generalize (if 50000 < _ then _ else _ : OrderedMap Nat Int) = seen
  by_cases hknown : (seen.get? packetId).any (now < ·) = true
  · rw [if_pos hknown, if_pos hknown]
    exact ⟨rfl, rfl, hmessages⟩
  · rw [if_neg hknown, if_neg hknown]
    exact ⟨rfl, rfl, hmessages⟩

theorem Agrees.emit {a b : InboundState} (h : a.Agrees b) (text : Option InboundText) :
    (a.emit text).Agrees (b.emit text) := ⟨h.1, congrArg (· ++ text.toList) h.2⟩

theorem Agrees.takeCopy {a b : InboundState} (h : a.Agrees b) (copy : PacketCopy) (now : Int) :
    (a.takeCopy copy now).Agrees (b.takeCopy copy now) := by
  unfold InboundState.takeCopy
  by_cases hid : copy.packetId ≠ 0
  · obtain ⟨hsame, hagrees⟩ := h.isDuplicate copy.packetId now
    simp only [if_pos hid, hsame]
    split
    · exact hagrees
    · exact hagrees.emit copy.text
  · simp only [if_neg hid]
    exact h.emit copy.text

theorem shouldSkip_agrees (topic : String) (bytes : Bytes) (now : Int) :
    (s.shouldSkipKnownBadEnvelope topic bytes now).2.Agrees s := by
  unfold shouldSkipKnownBadEnvelope
  simp only
  split
  · split <;> exact ⟨rfl, rfl⟩
  · exact ⟨rfl, rfl⟩

-- A message does what the copy it holds does.
theorem onMessage_agrees (topic : String) (payload : Bytes) (now : Int) :
    (s.onMessage env topic payload now).Agrees (s.takeCopy
      (copyOf env (s.shouldSkipKnownBadEnvelope topic (payload.dropWhile (· = 0)) now).1 topic payload now) now) := by
  unfold onMessage copyOf
  simp only
  generalize payload.dropWhile (· = 0) = bytes
  by_cases hsize : MQTT_MAX_PACKET_BYTES < payload.length
  · rw [if_pos hsize, if_pos hsize, takeCopy_none]
    exact ⟨rfl, rfl⟩
  · rw [if_neg hsize, if_neg hsize]
    cases bytes with
    | nil => simp [takeCopy_none, Agrees]
    | cons first rest =>
        simp only [List.head?_cons, Option.some.injEq]
        by_cases hjson : first = 0x7b
        · rw [if_pos hjson, if_pos hjson]
          cases env.parseJson (first :: rest) with
          | none => simp [takeCopy_none, Agrees]
          | some json => simp [handleJsonMessage_eq, Agrees]
        · rw [if_neg hjson, if_neg hjson]
          by_cases henvelope : first = 0x0a
          · have hagrees := shouldSkip_agrees s topic (first :: rest) now
            generalize s.shouldSkipKnownBadEnvelope topic (first :: rest) now = skipped at hagrees ⊢
            obtain ⟨skip, t⟩ := skipped
            have hknown : ¬ first ≠ 0x0a := not_not.mpr henvelope
            rw [if_neg hknown]
            cases skip with
            | true =>
                have hskipped : ¬ (first = 0x0a ∧ true = false) := by simp
                rw [if_neg hskipped, takeCopy_none]
                exact hagrees
            | false =>
                have hread : first = 0x0a ∧ false = false := ⟨henvelope, rfl⟩
                rw [if_pos hread]
                simp only [Bool.false_eq_true, if_false, decodeServiceEnvelope_eq]
                cases decodedEnvelope env (first :: rest) with
                | none =>
                    rw [Option.map_none, Option.getD_none, Option.map_none, Option.getD_none, takeCopy_none]
                    exact hagrees
                | some envelope => exact hagrees.takeCopy _ now
          · rw [if_pos henvelope, if_neg fun h => henvelope h.1, takeCopy_none]
            exact ⟨rfl, rfl⟩

end InboundState

-- The text of a copy carries the copy's id.
def PacketCopy.Consistent (copy : PacketCopy) : Prop := ∀ msg, copy.text = some msg → msg.packetId = copy.packetId

theorem consistent_none : PacketCopy.Consistent {} := by
  intro msg hmsg
  cases hmsg

variable {env : InboundEnv}

theorem handleDecoded_packetId {nodeId packetId rfChannel : Nat} {data : Data} {topic : String} {now : Int}
    {msg : InboundText} (h : handleDecoded env nodeId packetId data rfChannel topic now = some msg) :
    msg.packetId = packetId := by
  unfold handleDecoded at h
  split at h
  · obtain ⟨resolved, _, rfl⟩ := Option.map_eq_some_iff.mp h
    rfl
  · cases h

theorem envelopeCopy_consistent (envelope : ServiceEnvelope) (topic : String) (now : Int) :
    (envelopeCopy env envelope topic now).Consistent := by
  unfold envelopeCopy
  cases envelope.packet.filter fun packet => packet.from' ≠ 0 with
  | none => exact consistent_none
  | some packet =>
      intro msg hmsg
      simp only [Option.map_some, Option.getD_some, packetText] at hmsg ⊢
      obtain ⟨data, _, hdecoded⟩ := Option.bind_eq_some_iff.mp hmsg
      exact handleDecoded_packetId hdecoded

theorem jsonMessageCopy_consistent (json : Json) (topic : String) (now : Int) :
    (jsonMessageCopy env json topic now).Consistent := by
  unfold jsonMessageCopy jsonCopy
  simp only
  split
  · cases readJsonText env json topic now with
    | none => exact consistent_none
    | some read =>
        intro msg hmsg
        simp only [Option.map_some, Option.getD_some, Option.some.injEq] at hmsg ⊢
        rw [hmsg]
  · exact consistent_none

theorem copyOf_consistent (skip : Bool) (topic : String) (payload : Bytes) (now : Int) :
    (copyOf env skip topic payload now).Consistent := by
  unfold copyOf
  simp only
  split_ifs
  · exact consistent_none
  · cases env.parseJson (payload.dropWhile (· = 0)) with
    | none => exact consistent_none
    | some json => exact jsonMessageCopy_consistent json topic now
  · cases decodedEnvelope env (payload.dropWhile (· = 0)) with
    | none => exact consistent_none
    | some envelope => exact envelopeCopy_consistent envelope topic now
  · exact consistent_none

-- A copy that is skipped is none, and skipping changes no other copy.
theorem copyOf_skip (skip : Bool) (topic : String) (payload : Bytes) (now : Int) :
    copyOf env skip topic payload now = {} ∨
      copyOf env skip topic payload now = copyOf env false topic payload now := by
  cases skip with
  | false => exact .inr rfl
  | true =>
      unfold copyOf
      simp only
      by_cases hsize : MQTT_MAX_PACKET_BYTES < payload.length
      · exact .inl (if_pos hsize)
      · rw [if_neg hsize, if_neg hsize]
        by_cases hjson : (payload.dropWhile (· = 0)).head? = some 0x7b
        · rw [if_pos hjson, if_pos hjson]
          exact .inr rfl
        · rw [if_neg hjson]
          exact .inl (if_neg fun h => absurd h.2 (by decide))

section

variable (env : InboundEnv)

def step (s : InboundState) : Inbound → InboundState
  | .message topic payload now => if s.connected then s.onMessage env topic payload now else s
  | .publish packetId now => if s.connected then s.publishEncryptedData packetId now else s

-- The copy that an event brings to the table of packet ids; a publish of our own brings no text.
def presents (s : InboundState) : Inbound → PacketCopy
  | .message topic payload now =>
      if s.connected then
        copyOf env (s.shouldSkipKnownBadEnvelope topic (payload.dropWhile (· = 0)) now).1 topic payload now
      else {}
  | .publish packetId _ => if s.connected then ⟨packetId, none⟩ else {}

def packetIdOf (event : Inbound) : Nat := (presents env {} event).packetId

def FewPacketIds (events : List Inbound) : Prop := ((events.map (packetIdOf env)).toFinset.erase 0).card < 10000

instance (events : List Inbound) : Decidable (FewPacketIds env events) :=
  inferInstanceAs (Decidable (_ < 10000))

-- All events come while the first one's entry would still stand.
def OneWindow (events : List Inbound) : Prop :=
  ∃ start, ∀ event ∈ events, start ≤ event.now ∧ event.now < start + DEDUP_TTL_MS

end

theorem presents_eq (s : InboundState) (event : Inbound) :
    presents env s event = {} ∨ presents env s event = presents env {} event := by
  cases event with
  | message topic payload now =>
      by_cases hconnected : s.connected = true
      · have hfresh : presents env {} (.message topic payload now) = copyOf env false topic payload now := rfl
        rw [hfresh, presents, if_pos hconnected]
        exact copyOf_skip _ topic payload now
      · exact .inl (if_neg hconnected)
  | publish packetId now =>
      by_cases hconnected : s.connected = true
      · exact .inr (if_pos hconnected)
      · exact .inl (if_neg hconnected)

theorem presents_consistent (s : InboundState) (event : Inbound) : (presents env s event).Consistent := by
  by_cases hconnected : s.connected = true
  · cases event with
    | message topic payload now =>
        rw [presents, if_pos hconnected]
        exact copyOf_consistent _ topic payload now
    | publish packetId now =>
        rw [presents, if_pos hconnected]
        intro msg hmsg
        cases hmsg
  · have hnone : presents env s event = {} := by
      cases event with
      | message topic payload now => exact if_neg hconnected
      | publish packetId now => exact if_neg hconnected
    rw [hnone]
    exact consistent_none

-- What the table holds during a window that begins at `start`.
structure Within (start : Int) (ids : Finset Nat) (s : InboundState) : Prop where
  expiry : ∀ id expiry, s.seenPacketIds.get? id = some expiry → start + DEDUP_TTL_MS ≤ expiry
  known : ∀ id ∈ s.seenPacketIds.keys, id ∈ ids

def InboundState.knows (s : InboundState) (id : Nat) : Bool := (s.seenPacketIds.get? id).isSome

theorem Within.size_le {start : Int} {ids : Finset Nat} {s : InboundState} (h : Within start ids s)
    (hfew : ids.card ≤ 10000) : s.seenPacketIds.size ≤ 10000 := by
  rw [OrderedMap.size_eq_keys_length, ← List.toFinset_card_of_nodup s.seenPacketIds.keys_nodup]
  refine le_trans (Finset.card_le_card fun id hid => ?_) hfew
  exact h.known id (List.mem_toFinset.mp hid)

-- In a window nothing is thrown out of the table, and what is in it still stands.
theorem Within.isDuplicate {start now : Int} {ids : Finset Nat} {s : InboundState} (h : Within start ids s)
    (hfew : ids.card ≤ 10000) (hnow : now < start + DEDUP_TTL_MS) (packetId : Nat) :
    s.isDuplicate packetId now =
      if s.knows packetId then (true, s)
      else (false, { s with seenPacketIds := s.seenPacketIds.set packetId (now + DEDUP_TTL_MS) }) := by
  have hsize := h.size_le hfew
  unfold InboundState.isDuplicate InboundState.knows
  simp only [if_neg (show ¬ 10000 < s.seenPacketIds.size by omega),
    if_neg (show ¬ 50000 < s.seenPacketIds.size by omega)]
  cases hget : s.seenPacketIds.get? packetId with
  | none => rfl
  | some expiry =>
      have hstands : now < expiry := lt_of_lt_of_le hnow (h.expiry packetId expiry hget)
      simp [hstands]

theorem Within.set {start now : Int} {ids : Finset Nat} {s : InboundState} (h : Within start ids s)
    (hstart : start ≤ now) {packetId : Nat} (hid : packetId ∈ ids) :
    Within start ids { s with seenPacketIds := s.seenPacketIds.set packetId (now + DEDUP_TTL_MS) } := by
  constructor
  · intro id expiry hget
    simp only [OrderedMap.get?_set] at hget
    by_cases hsame : id = packetId
    · rw [if_pos hsame, Option.some.injEq] at hget
      omega
    · rw [if_neg hsame] at hget
      exact h.expiry id expiry hget
  · intro id hmem
    rw [OrderedMap.mem_keys_iff] at hmem
    obtain ⟨expiry, hget⟩ := hmem
    simp only [OrderedMap.get?_set] at hget
    by_cases hsame : id = packetId
    · exact hsame ▸ hid
    · rw [if_neg hsame] at hget
      exact h.known id ((OrderedMap.mem_keys_iff _ _).mpr ⟨expiry, hget⟩)

theorem Within.of_agrees {start : Int} {ids : Finset Nat} {a b : InboundState} (h : Within start ids b)
    (hab : a.Agrees b) : Within start ids a :=
  ⟨fun id expiry => hab.1 ▸ h.expiry id expiry, fun id => hab.1 ▸ h.known id⟩

-- Whether a text is one of the sender with the packet id.
def InboundText.isFrom (sender id : Nat) (msg : InboundText) : Bool := msg.sender_id = sender && msg.packetId = id

def InboundState.given (s : InboundState) (sender id : Nat) : Nat := s.messages.countP (InboundText.isFrom sender id)

def PacketCopy.gives (copy : PacketCopy) (sender id : Nat) : Nat :=
  copy.text.toList.countP (InboundText.isFrom sender id)

theorem PacketCopy.Consistent.gives_other {copy : PacketCopy} (h : copy.Consistent) {sender id : Nat}
    (hid : copy.packetId ≠ id) : copy.gives sender id = 0 := by
  unfold PacketCopy.gives
  cases htext : copy.text with
  | none => rfl
  | some msg =>
      have hmsg : msg.packetId ≠ id := fun hsame => hid ((h msg htext).symm.trans hsame)
      simp [InboundText.isFrom, hmsg]

-- What a step does to the table and to the events for one sender and one packet id.
def Effect (copy : PacketCopy) (sender id : Nat) (before after : InboundState) : Prop :=
  after.knows id = (before.knows id || decide (copy.packetId = id)) ∧
  after.given sender id =
    before.given sender id + if copy.packetId = id ∧ before.knows id = false then copy.gives sender id else 0

theorem knows_set (s : InboundState) (packetId id : Nat) (expiry : Int) :
    ({ s with seenPacketIds := s.seenPacketIds.set packetId expiry } : InboundState).knows id =
      (s.knows id || decide (packetId = id)) := by
  unfold InboundState.knows
  simp only [OrderedMap.get?_set]
  by_cases hsame : id = packetId
  · simp [hsame]
  · simp [hsame, Ne.symm hsame]

theorem given_emit (s : InboundState) (text : Option InboundText) (sender id : Nat) :
    (s.emit text).given sender id = s.given sender id + text.toList.countP (InboundText.isFrom sender id) := by
  simp [InboundState.given, InboundState.emit, List.countP_append]

theorem Within.takeCopy {start now : Int} {ids : Finset Nat} {s : InboundState} (h : Within start ids s)
    (hfew : ids.card ≤ 10000) (hstart : start ≤ now) (hnow : now < start + DEDUP_TTL_MS) {copy : PacketCopy}
    (hids : copy.packetId ≠ 0 → copy.packetId ∈ ids) (hcopy : copy.Consistent) {sender id : Nat} (hid : id ≠ 0) :
    Within start ids (s.takeCopy copy now) ∧ Effect copy sender id s (s.takeCopy copy now) := by
  unfold InboundState.takeCopy
  by_cases hzero : copy.packetId ≠ 0
  · rw [if_pos hzero, h.isDuplicate hfew hnow]
    by_cases hknown : s.knows copy.packetId = true
    · simp only [if_pos hknown, if_true]
      refine ⟨h, ?_, ?_⟩
      · by_cases hsame : copy.packetId = id
        · rw [← hsame, hknown, Bool.true_or]
        · rw [decide_eq_false hsame, Bool.or_false]
      · rw [if_neg, Nat.add_zero]
        rintro ⟨rfl, hnew⟩
        rw [hknown] at hnew
        cases hnew
    · rw [if_neg hknown]
      simp only [Bool.false_eq_true, if_false]
      refine ⟨⟨(h.set hstart (hids hzero)).expiry, (h.set hstart (hids hzero)).known⟩, ?_, ?_⟩
      · exact knows_set s copy.packetId id _
      · rw [given_emit]
        by_cases hsame : copy.packetId = id
        · rw [if_pos ⟨hsame, by rw [← hsame]; simpa using hknown⟩]
          rfl
        · rw [if_neg fun hboth => hsame hboth.1]
          exact congrArg (s.given sender id + ·) (hcopy.gives_other hsame)
  · rw [if_neg hzero]
    have hother : copy.packetId ≠ id := fun hsame => hid (hsame ▸ not_not.mp hzero)
    simp only [Bool.false_eq_true, if_false]
    refine ⟨⟨h.expiry, h.known⟩, ?_, ?_⟩
    · rw [decide_eq_false hother, Bool.or_false]
      rfl
    · rw [given_emit, if_neg fun hboth => hother hboth.1]
      exact congrArg (s.given sender id + ·) (hcopy.gives_other hother)

theorem Effect.of_agrees {copy : PacketCopy} {sender id : Nat} {s a b : InboundState}
    (h : Effect copy sender id s b) (hab : a.Agrees b) : Effect copy sender id s a := by
  unfold Effect InboundState.knows InboundState.given at h ⊢
  rwa [hab.1, hab.2]

-- The steps of a window.
theorem Within.next {start : Int} {ids : Finset Nat} {s : InboundState} (h : Within start ids s)
    (hfew : ids.card ≤ 10000) {event : Inbound} (hstart : start ≤ event.now)
    (hnow : event.now < start + DEDUP_TTL_MS) (hids : packetIdOf env event ∈ ids) {sender id : Nat} (hid : id ≠ 0) :
    Within start ids (step env s event) ∧ Effect (presents env s event) sender id s (step env s event) := by
  have hcopy : (presents env s event).Consistent := presents_consistent s event
  have hpresented : (presents env s event).packetId ≠ 0 → (presents env s event).packetId ∈ ids := by
    intro hzero
    obtain hnone | hsame : presents env s event = {} ∨ presents env s event = presents env {} event :=
      presents_eq s event
    · rw [hnone] at hzero
      exact absurd rfl hzero
    · rwa [hsame]
  by_cases hconnected : s.connected = true
  · cases event with
    | message topic payload now =>
        obtain ⟨hwithin, heffect⟩ := @Within.takeCopy start now ids s h hfew hstart hnow _ hpresented hcopy sender id hid
        have hagrees := @InboundState.onMessage_agrees env s topic payload now
        rw [presents, if_pos hconnected] at hwithin heffect ⊢
        rw [step, if_pos hconnected]
        exact ⟨hwithin.of_agrees hagrees, heffect.of_agrees hagrees⟩
    | publish packetId now =>
        rw [step, if_pos hconnected, presents, if_pos hconnected]
        refine ⟨h.set hstart hids, knows_set s packetId id _, ?_⟩
        exact (Nat.add_zero _).symm.trans (congrArg (s.given sender id + ·) (ite_self 0).symm)
  · have hnone : presents env s event = {} := by
      cases event with
      | message topic payload now => exact if_neg hconnected
      | publish packetId now => exact if_neg hconnected
    have hidle : step env s event = s := by
      cases event with
      | message topic payload now => exact if_neg hconnected
      | publish packetId now => exact if_neg hconnected
    have hother : (0 : Nat) ≠ id := Ne.symm hid
    rw [hnone, hidle]
    refine ⟨h, ?_, ?_⟩
    · rw [decide_eq_false hother, Bool.or_false]
    · rw [if_neg fun hboth => hother hboth.1, Nat.add_zero]

-- A fresh client with the same keys would show the text.
def Readable (env : InboundEnv) (event : Inbound) (sender id : Nat) : Prop :=
  (step env {} event).given sender id ≠ 0

instance (event : Inbound) (sender id : Nat) : Decidable (Readable env event sender id) :=
  inferInstanceAs (Decidable (_ ≠ 0))

-- The first event that brings the packet id to the table is a readable copy of the sender's text.
def ReadableFirst (env : InboundEnv) (events : List Inbound) (sender id : Nat) : Prop :=
  ∃ front event back, events = front ++ event :: back ∧
    Each (step env) (fun s event => ¬ (presents env s event).packetId = id) {} front ∧
    (presents env (run (step env) {} front) event).packetId = id ∧ Readable env event sender id

theorem within_fresh (start : Int) (ids : Finset Nat) : Within start ids {} := by
  constructor
  · intro id expiry h
    cases h
  · intro id h
    exact absurd h List.not_mem_nil

section

variable {events : List Inbound} {sender id : Nat}

-- An event that lies in the window.
def InWindow (env : InboundEnv) (start : Int) (ids : Finset Nat) (event : Inbound) : Prop :=
  start ≤ event.now ∧ event.now < start + DEDUP_TTL_MS ∧ packetIdOf env event ∈ ids

theorem Within.next_of_inWindow {start : Int} {ids : Finset Nat} {s : InboundState} (h : Within start ids s)
    (hfew : ids.card ≤ 10000) {event : Inbound} (hevent : InWindow env start ids event) (hid : id ≠ 0) :
    Within start ids (step env s event) ∧ Effect (presents env s event) sender id s (step env s event) :=
  h.next hfew hevent.1 hevent.2.1 hevent.2.2 hid

theorem given_fresh_of_presents {event : Inbound} (hid : id ≠ 0)
    (hpresents : (presents env {} event).packetId = id) :
    (step env {} event).given sender id = (presents env {} event).gives sender id := by
  have hevent : InWindow env event.now {packetIdOf env event} event :=
    ⟨le_rfl, by unfold DEDUP_TTL_MS; omega, Finset.mem_singleton_self _⟩
  have heffect : Effect (presents env {} event) sender id {} (step env {} event) :=
    ((within_fresh event.now _).next_of_inWindow (by simp) hevent hid).2
  rw [heffect.2, if_pos ⟨hpresents, rfl⟩]
  exact Nat.zero_add _

-- Once the table knows a packet id, no event for it follows; before, none has come.
theorem given_run_of_known {start : Int} {ids : Finset Nat} (hfew : ids.card ≤ 10000) (hid : id ≠ 0)
    {s : InboundState} (hs : Within start ids s) (hknown : s.knows id = true) {later : List Inbound}
    (hlater : ∀ event ∈ later, InWindow env start ids event) :
    (run (step env) s later).given sender id = s.given sender id := by
  induction later generalizing s with
  | nil => rfl
  | cons event rest ih =>
      have heffect : Within start ids (step env s event) ∧
          Effect (presents env s event) sender id s (step env s event) :=
        hs.next_of_inWindow hfew (hlater event List.mem_cons_self) hid
      obtain ⟨hnext, hknows, hgiven⟩ := heffect
      rw [hknown, Bool.true_or] at hknows
      rw [if_neg (by simp [hknown]), Nat.add_zero] at hgiven
      rw [run_cons, ih hnext hknows fun event hevent => hlater event (List.mem_cons_of_mem _ hevent), hgiven]

theorem run_of_unpresented {start : Int} {ids : Finset Nat} (hfew : ids.card ≤ 10000) (hid : id ≠ 0)
    {front : List Inbound} (hfront : ∀ event ∈ front, InWindow env start ids event)
    (hunpresented : Each (step env) (fun s event => ¬ (presents env s event).packetId = id) {} front) :
    Within start ids (run (step env) {} front) ∧ (run (step env) {} front).knows id = false ∧
      (run (step env) {} front).given sender id = 0 := by
  have hkeep : ∀ s event, (InWindow env start ids event ∧ ¬ (presents env s event).packetId = id) →
      (Within start ids s ∧ s.knows id = false ∧ s.given sender id = 0) →
      Within start ids (step env s event) ∧ (step env s event).knows id = false ∧
        (step env s event).given sender id = 0 := by
    rintro s event ⟨hevent, hother⟩ ⟨hwithin, hunknown, hnone⟩
    have heffect : Within start ids (step env s event) ∧
        Effect (presents env s event) sender id s (step env s event) :=
      hwithin.next_of_inWindow hfew hevent hid
    obtain ⟨hnext, hknows, hgiven⟩ := heffect
    refine ⟨hnext, ?_, ?_⟩
    · rw [hknows, hunknown, decide_eq_false hother, Bool.false_or]
    · rw [hgiven, if_neg fun hboth => hother hboth.1, hnone]
  exact invariant_of_each hkeep ((Each.of_forall hfront).and hunpresented) ⟨within_fresh start ids, rfl, rfl⟩

-- The first event for a packet id decides what is given for it.
theorem given_run_of_first {start : Int} {ids : Finset Nat} (hfew : ids.card ≤ 10000) (hid : id ≠ 0)
    {front back : List Inbound} {event : Inbound}
    (hevents : ∀ e ∈ front ++ event :: back, InWindow env start ids e)
    (hunpresented : Each (step env) (fun s event => ¬ (presents env s event).packetId = id) {} front)
    (hpresents : (presents env (run (step env) {} front) event).packetId = id) :
    (run (step env) {} (front ++ event :: back)).given sender id = (step env {} event).given sender id := by
  have hevent := hevents event (by simp)
  have hbefore : Within start ids (run (step env) {} front) ∧ (run (step env) {} front).knows id = false ∧
      (run (step env) {} front).given sender id = 0 :=
    run_of_unpresented hfew hid (fun e he => hevents e (List.mem_append_left _ he)) hunpresented
  obtain ⟨hwithin, hunknown, hnone⟩ := hbefore
  have heffect : Within start ids (step env (run (step env) {} front) event) ∧
      Effect (presents env (run (step env) {} front) event) sender id (run (step env) {} front)
        (step env (run (step env) {} front) event) := hwithin.next_of_inWindow hfew hevent hid
  obtain ⟨hnext, hknows, hgiven⟩ := heffect
  rw [hpresents, decide_eq_true rfl, Bool.or_true] at hknows
  rw [run_append, run_cons, given_run_of_known hfew hid hnext hknows fun e he => hevents e (by simp [he])]
  rw [hgiven, hnone, if_pos ⟨hpresents, hunknown⟩, Nat.zero_add]
  obtain habsent | hsame : presents env (run (step env) {} front) event = {} ∨
      presents env (run (step env) {} front) event = presents env {} event := presents_eq _ event
  · rw [habsent] at hpresents
    exact absurd hpresents.symm hid
  · rw [hsame] at hpresents ⊢
    exact (given_fresh_of_presents hid hpresents).symm

-- A client that has seen nothing shows at most one text for an event.
theorem given_fresh_le_one (event : Inbound) (hid : id ≠ 0) : (step env {} event).given sender id ≤ 1 := by
  by_cases hpresents : (presents env {} event).packetId = id
  · rw [given_fresh_of_presents hid hpresents, PacketCopy.gives]
    refine le_trans List.countP_le_length ?_
    cases (presents env {} event).text <;> simp
  · have hevent : InWindow env event.now {packetIdOf env event} event :=
      ⟨le_rfl, by unfold DEDUP_TTL_MS; omega, Finset.mem_singleton_self _⟩
    have heffect : Effect (presents env {} event) sender id {} (step env {} event) :=
      ((within_fresh event.now _).next_of_inWindow (by simp) hevent hid).2
    rw [heffect.2, if_neg fun hboth => hpresents hboth.1]
    exact Nat.zero_le 1

end

end

-- A packet of node 7 with a channel's key that we do not have, and the JSON mirror of its gateway.
def strangeEnvelope : Bytes := [0x0a, 0x0d, 0x0d, 7, 0, 0, 0, 0x2a, 1, 0xff, 0x35, 42, 0, 0, 0]

def mirroredJson : String := "\x7b\"from\":7,\"id\":42,\"type\":\"text\",\"payload\":\x7b\"text\":\"hello\"\x7d\x7d"

def mirror : Json :=
  .object [("from", .number (.finite 7)), ("id", .number (.finite 42)), ("type", .string "text"),
    ("payload", .object [("text", .string "hello")])]

def gatewayEnv : InboundEnv where
  toLowerCase := asciiRuntime.toLowerCase
  parseJson bytes := if bytes = Utf8.encode mirroredJson.toList then some mirror else none
  decodeEnvelope bytes :=
    if bytes = strangeEnvelope then .ok ⟨some { from' := 7, id := 42, payloadVariant := some (.encrypted [0xff]) }⟩
    else .error "premature EOF"
  decodeData _ := none
  decodesAs _ _ := false
  decrypt _ _ _ bytes := some bytes
  keys := {}

def strangeFirst : List Inbound :=
  [.message "msh/2/e/Team/!00000007" strangeEnvelope 0,
    .message "msh/2/json/Team/!00000007" (Utf8.encode mirroredJson.toList) 1]

theorem strangeFirst_window : OneWindow strangeFirst := by
  refine ⟨0, ?_⟩
  intro event hevent
  obtain rfl | rfl : event = _ ∨ event = _ := by simpa [strangeFirst] using hevent
  · exact ⟨by decide, by decide⟩
  · exact ⟨by decide, by decide⟩

end MeshClient.Mqtt
