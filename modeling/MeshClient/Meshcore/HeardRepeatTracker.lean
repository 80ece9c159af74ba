import MeshClient.Lib.Run
import MeshClient.Meshcore.PathHash
import MeshClient.Meshcore.RelayCoverage
import MeshClient.Meshcore.RfPacketParse

namespace MeshClient.Meshcore

structure MeshcoreGroupTextDecoded where
  timestampSec : Nat
  flags : UInt8
  text : String
deriving DecidableEq

-- The group-text cipher: the hash of a channel's secret and the decryption with one.
structure GroupTextCodec where
  meshcoreChannelHash : Bytes → UInt8
  decodeMeshcoreGroupText : Bytes → Bytes → Option MeshcoreGroupTextDecoded

def MESHCORE_HEARD_REPEAT_WINDOW_MS : Int := 120000
def OWN_GRP_TXT_TIMESTAMP_EARLY_SEC : Int := 2

structure MeshcoreOwnChannelFloodExpectation where
  channelIndex : Int
  senderName : String
  wireText : String
  sentAtSec : Int
deriving DecidableEq

structure PendingWindow where
  messageId : String
  openedAt : Int
  windowMs : Int
  expect : Option MeshcoreOwnChannelFloodExpectation
  payloadIdentity : Option MeshCorePathInvariantPayloadId
deriving DecidableEq

abbrev Windows := OrderedMap String PendingWindow

abbrev ChannelSecrets := OrderedMap Int Bytes

structure Tracker where
  pendingByIdentity : Windows
  channelSecretsByIndex : ChannelSecrets
  coverage : Coverage

def setMeshcoreHeardRepeatChannelSecrets (channels : List (Int × Bytes)) : ChannelSecrets :=
  (∅ : ChannelSecrets).setAll (channels.filter fun ch => ch.2.length = 16)

-- `Math.ceil(windowMs / 1000)`
def ceilSec (windowMs : Int) : Int := (windowMs + 999) / 1000

def grpTxtMatchesExpectation (codec : GroupTextCodec) (secrets : ChannelSecrets) (innerPayload : Bytes)
    (expect : MeshcoreOwnChannelFloodExpectation) (windowMs : Int) : Bool :=
  match secrets.get? expect.channelIndex with
  | none => false
  | some secret =>
      if innerPayload.head? ≠ some (codec.meshcoreChannelHash secret) then false
      else match codec.decodeMeshcoreGroupText secret innerPayload with
        | none => false
        | some decoded =>
            if decoded.timestampSec < expect.sentAtSec - OWN_GRP_TXT_TIMESTAMP_EARLY_SEC ∨
                decoded.timestampSec > expect.sentAtSec + ceilSec windowMs then false
            else decoded.text = expect.senderName ++ ": " ++ expect.wireText

namespace Tracker

def clearHeardRepeatWindow (s : Tracker) (identityId : String) : Tracker :=
  { s with pendingByIdentity := s.pendingByIdentity.erase identityId }

def clearHeardRepeatWindowIfMessage (s : Tracker) (identityId messageId : String) : Tracker :=
  match s.pendingByIdentity.get? identityId with
  | none => s
  | some w => if w.messageId = messageId then s.clearHeardRepeatWindow identityId else s

def renameHeardRepeatWindowMessageId (s : Tracker) (identityId fromMessageId toMessageId : String) : Tracker :=
  if fromMessageId = toMessageId then s
  else match s.pendingByIdentity.get? identityId with
    | none => s
    | some w =>
        if w.messageId ≠ fromMessageId then s
        else { s with pendingByIdentity := s.pendingByIdentity.set identityId { w with messageId := toMessageId } }

-- Nothing was credited to the message yet.
def emptyConfirmedSeed (coverage : Coverage) (identityId messageId : String) : Bool :=
  match coverage.coverageFor identityId messageId with
  | none => false
  | some prior =>
      prior.protocol = .meshcore && prior.mode = .confirmed && (prior.heardRepeaters.getD []).length = 0

-- The coverage left by the window that the new one takes the place of.
def supersededCoverage (s : Tracker) (identityId messageId : String) (openedAt : Int) : Coverage :=
  match s.pendingByIdentity.get? identityId with
  | none => s.coverage
  | some prev =>
      if openedAt - prev.openedAt > prev.windowMs ∨ prev.messageId = messageId then s.coverage
      else if emptyConfirmedSeed s.coverage identityId prev.messageId then
        s.coverage.remove identityId prev.messageId
      else s.coverage

-- An expired window is deleted first, so that the new one moves to the end of the map.
def openHeardRepeatWindow (s : Tracker) (identityId messageId : String) (windowMs openedAt : Int)
    (expect : Option MeshcoreOwnChannelFloodExpectation) (clock : Int) : Tracker :=
  let expired := (s.pendingByIdentity.get? identityId).any fun prev =>
    decide (openedAt - prev.openedAt > prev.windowMs)
  let pending := if expired then s.pendingByIdentity.erase identityId else s.pendingByIdentity
  { s with
    pendingByIdentity := pending.set identityId ⟨messageId, openedAt, windowMs, expect, none⟩
    coverage := (s.supersededCoverage identityId messageId openedAt).setPatch identityId messageId
      { protocol := .meshcore, mode := .confirmed, heardRepeaters := some [] } clock }

-- The window that is open now, and the map without it once it has expired.
def activeWindow (s : Tracker) (identityId : String) (now : Int) : Option PendingWindow × Tracker :=
  match s.pendingByIdentity.get? identityId with
  | none => (none, s)
  | some w =>
      if now - w.openedAt > w.windowMs then (none, s.clearHeardRepeatWindow identityId) else (some w, s)

end Tracker

def syntheticHeardNodeIdFromPathSegment (segment : Bytes) : Int :=
  let h := segment.foldl (fun (h : BitVec 32) byte => (h ^^^ byte.toBitVec.setWidth 32) * 0x01000193#32) 0x811c9dc5#32
  (h ||| 0x80000000#32).toInt

def pathSegmentHex (segment : Bytes) : String := String.join (segment.map fun b => hex 2 b.toNat)

def meshcorePathOriginIsSelf (firstSegment : Bytes) (myNodeNum : Int) (pathHashSizeBytes : Nat)
    (myPubKey : Option Bytes) : Bool :=
  match firstSegment with
  | [] => false
  | first :: _ =>
      if pathHashSizeBytes = 1 then
        match myPubKey with
        | some (own :: _) => first = own
        | _ => first = meshcoreNodeHash myNodeNum
      else
        match myPubKey with
        | none => false
        | some key => if key.length < pathHashSizeBytes then false else prefixMatches key firstSegment

structure RecordMeshcoreRfRxArgs where
  identityId : String
  isOwnMeshcoreTx : Bool
  treatAsOwnChannelFlood : Bool
  pathBytes : Bytes
  pathHashSizeBytes : Nat
  myNodeNum : Int
  myPubKey : Option Bytes
  payloadIdentity : Option MeshCorePathInvariantPayloadId
  snr : Option ℚ
  rssi : Option ℚ
  now : Option Int
  candidates : List NodeHashCandidate
  pubKeyByNodeId : Option PubKeys
  resolveRepeater : Int → Option HeardRepeater

namespace RecordMeshcoreRfRxArgs

variable (args : RecordMeshcoreRfRxArgs)

-- The first of the matching nodes that is a repeater; this node itself is passed over.
def creditedMatch (nodeIds : List Int) : Option HeardRepeater :=
  (nodeIds.filter (· ≠ args.myNodeNum)).findSome? args.resolveRepeater

-- A match behind the credited one is never looked at, but a credit makes `skippedSelf` irrelevant.
def skippedSelf (nodeIds : List Int) (segment : Bytes) : Bool :=
  nodeIds.contains args.myNodeNum ||
    meshcorePathOriginIsSelf segment args.myNodeNum args.pathHashSizeBytes args.myPubKey

-- A forwarder that matches no known node is credited under an id of its own.
def creditedSegment (segment : Bytes) : Option HeardRepeater :=
  let nodeIds := listMeshcorePathPrefixMatches segment args.candidates args.pubKeyByNodeId
  match args.creditedMatch nodeIds with
  | some repeater => some repeater
  | none =>
      if !args.skippedSelf nodeIds segment && nodeIds.length = 0 && segment.length > 0 then
        some ⟨syntheticHeardNodeIdFromPathSegment segment, some (pathSegmentHex segment), none, none⟩
      else none

def heardNow (credited : HeardRepeater) : HeardRepeater :=
  { credited with snr := args.snr.or credited.snr, rssi := args.rssi.or credited.rssi }

-- One turn of the loop over the path's segments: the repeaters by id, and whether one changed.
def creditStep (acc : OrderedMap Int HeardRepeater × Bool) (segment : Bytes) :
    OrderedMap Int HeardRepeater × Bool :=
  match args.creditedSegment segment with
  | none => acc
  | some credited =>
      let next := args.heardNow credited
      if acc.1.get? next.nodeId = some next then acc else (acc.1.set next.nodeId next, true)

def ownGrpTxt (codec : GroupTextCodec) (secrets : ChannelSecrets) (w : PendingWindow)
    (incomingId : MeshCorePathInvariantPayloadId) : Bool :=
  !args.isOwnMeshcoreTx && args.treatAsOwnChannelFlood &&
    w.expect.any fun expect => grpTxtMatchesExpectation codec secrets incomingId.innerPayload expect w.windowMs

-- The identity that the packet binds an unbound window to.
def boundIdentity (codec : GroupTextCodec) (secrets : ChannelSecrets) (w : PendingWindow) :
    Option MeshCorePathInvariantPayloadId :=
  if w.payloadIdentity.isSome then none
  else args.payloadIdentity.filter fun incomingId => args.isOwnMeshcoreTx || args.ownGrpTxt codec secrets w incomingId

def mayCredit (w : PendingWindow) : Bool :=
  match w.payloadIdentity with
  | some bound => args.payloadIdentity.all fun incomingId => meshCorePathInvariantPayloadIdsEqual bound incomingId
  | none => args.isOwnMeshcoreTx

end RecordMeshcoreRfRxArgs

namespace Tracker

variable (codec : GroupTextCodec)

def bindWindow (s : Tracker) (args : RecordMeshcoreRfRxArgs) (w : PendingWindow) : PendingWindow × Tracker :=
  match args.boundIdentity codec s.channelSecretsByIndex w with
  | none => (w, s)
  | some incomingId =>
      let window := { w with payloadIdentity := some incomingId }
      (window, { s with pendingByIdentity := s.pendingByIdentity.set args.identityId window })

def creditPath (s : Tracker) (args : RecordMeshcoreRfRxArgs) (w : PendingWindow) (clock : Int) : Tracker :=
  let segments := meshcoreSplitPathHashSegments args.pathBytes args.pathHashSizeBytes
  if segments.length = 0 then s
  else
    let prev := ((s.coverage.coverageFor args.identityId w.messageId).bind (·.heardRepeaters)).getD []
    let byId := (∅ : OrderedMap Int HeardRepeater).setAll (prev.map fun r => (r.nodeId, r))
    let credited := segments.foldl args.creditStep (byId, false)
    if !credited.2 && credited.1.size = prev.length then s
    else
      { s with
        coverage := s.coverage.setPatch args.identityId w.messageId
          { protocol := .meshcore, mode := .confirmed, heardRepeaters := some credited.1.values } clock }

def recordMeshcoreRfRx (s : Tracker) (args : RecordMeshcoreRfRxArgs) (clock : Int) : Tracker :=
  if !args.isOwnMeshcoreTx && !args.treatAsOwnChannelFlood then s
  else
    match s.activeWindow args.identityId (args.now.getD clock) with
    | (none, s) => s
    | (some w, s) =>
        let (w, s) := s.bindWindow codec args w
        if args.mayCredit w then s.creditPath args w clock else s

end Tracker

inductive TrackerOp where
  | setMeshcoreHeardRepeatChannelSecrets (channels : List (Int × Bytes))
  | clearMeshcoreHeardRepeatChannelSecrets
  | clearHeardRepeatWindow (identityId : String)
  | clearHeardRepeatWindowIfMessage (identityId messageId : String)
  | renameHeardRepeatWindowMessageId (identityId fromMessageId toMessageId : String)
  | openHeardRepeatWindow (identityId messageId : String) (windowMs : Int) (openedAt : Option Int)
      (expect : Option MeshcoreOwnChannelFloodExpectation)
  | hasOpenHeardRepeatWindow (identityId : String) (now : Option Int)
  | recordMeshcoreRfRx (args : RecordMeshcoreRfRxArgs)

-- A call and what `Date.now()` says during it.
structure TrackerCall where
  op : TrackerOp
  clock : Int

-- The time a call goes by.
def TrackerCall.time (call : TrackerCall) : Int :=
  match call.op with
  | .openHeardRepeatWindow _ _ _ openedAt _ => openedAt.getD call.clock
  | .hasOpenHeardRepeatWindow _ now => now.getD call.clock
  | .recordMeshcoreRfRx args => args.now.getD call.clock
  | _ => call.clock

def Tracker.step (codec : GroupTextCodec) (s : Tracker) (call : TrackerCall) : Tracker :=
  match call.op with
  | .setMeshcoreHeardRepeatChannelSecrets channels =>
      { s with channelSecretsByIndex := MeshClient.Meshcore.setMeshcoreHeardRepeatChannelSecrets channels }
  | .clearMeshcoreHeardRepeatChannelSecrets => { s with channelSecretsByIndex := ∅ }
  | .clearHeardRepeatWindow identityId => s.clearHeardRepeatWindow identityId
  | .clearHeardRepeatWindowIfMessage identityId messageId =>
      s.clearHeardRepeatWindowIfMessage identityId messageId
  | .renameHeardRepeatWindowMessageId identityId fromMessageId toMessageId =>
      s.renameHeardRepeatWindowMessageId identityId fromMessageId toMessageId
  | .openHeardRepeatWindow identityId messageId windowMs _ expect =>
      s.openHeardRepeatWindow identityId messageId windowMs call.time expect call.clock
  | .hasOpenHeardRepeatWindow identityId _ => (s.activeWindow identityId call.time).2
  | .recordMeshcoreRfRx args => s.recordMeshcoreRfRx codec args call.clock

-- The listening that a window does, whatever its message is called and whatever it is bound to.
def PendingWindow.SameListen (w w' : PendingWindow) : Prop :=
  w'.openedAt = w.openedAt ∧ w'.windowMs = w.windowMs ∧ w'.expect = w.expect

def TrackerCall.Opens (call : TrackerCall) (identityId : String) : Prop :=
  ∃ messageId windowMs openedAt expect,
    call.op = .openHeardRepeatWindow identityId messageId windowMs openedAt expect

-- In `s` the packet of the call binds the unbound window, either because it is our own TX or because it
-- decrypts to the expectation.
def Binds (codec : GroupTextCodec) (s : Tracker) (call : TrackerCall) (identityId : String) (w : PendingWindow)
    (bound : MeshCorePathInvariantPayloadId) : Prop :=
  ∃ args unbound, call.op = .recordMeshcoreRfRx args ∧ args.identityId = identityId ∧
    s.pendingByIdentity.get? identityId = some unbound ∧ unbound.payloadIdentity = none ∧
    unbound.SameListen w ∧ call.time - w.openedAt ≤ w.windowMs ∧ args.payloadIdentity = some bound ∧
    (args.isOwnMeshcoreTx = true ∨ args.treatAsOwnChannelFlood = true ∧ ∃ expect, w.expect = some expect ∧
      grpTxtMatchesExpectation codec s.channelSecretsByIndex bound.innerPayload expect w.windowMs = true)

theorem PendingWindow.SameListen.refl (w : PendingWindow) : w.SameListen w := ⟨rfl, rfl, rfl⟩

theorem PendingWindow.SameListen.trans {w₁ w₂ w₃ : PendingWindow} (h : w₁.SameListen w₂) (h' : w₂.SameListen w₃) :
    w₁.SameListen w₃ :=
  ⟨h'.1.trans h.1, h'.2.1.trans h.2.1, h'.2.2.trans h.2.2⟩

namespace Tracker

variable {codec : GroupTextCodec}

theorem get?_clearHeardRepeatWindow (s : Tracker) (i i' : String) :
    (s.clearHeardRepeatWindow i).pendingByIdentity.get? i' =
      if i' = i then none else s.pendingByIdentity.get? i' :=
  OrderedMap.get?_erase _ _ _

theorem get?_of_clear {s : Tracker} {i i' : String} {w : PendingWindow}
    (h : (s.clearHeardRepeatWindow i).pendingByIdentity.get? i' = some w) :
    s.pendingByIdentity.get? i' = some w := by
  rw [get?_clearHeardRepeatWindow] at h
  by_cases hi : i' = i
  · simp [hi] at h
  · rwa [if_neg hi] at h

-- What looking for the open window can do.
theorem activeWindow_cases (s : Tracker) (i : String) (now : Int) :
    s.activeWindow i now = (none, s) ∨ s.activeWindow i now = (none, s.clearHeardRepeatWindow i) ∨
    ∃ w, s.activeWindow i now = (some w, s) ∧ s.pendingByIdentity.get? i = some w ∧
      now - w.openedAt ≤ w.windowMs := by
  unfold activeWindow
  cases s.pendingByIdentity.get? i with
  | none => exact .inl rfl
  | some w =>
      by_cases hexpired : now - w.openedAt > w.windowMs
      · exact .inr (.inl (by simp only [if_pos hexpired]))
      · exact .inr (.inr ⟨w, by simp only [if_neg hexpired], rfl, by omega⟩)

theorem creditPath_pending (s : Tracker) (args : RecordMeshcoreRfRxArgs) (w : PendingWindow) (clock : Int) :
    (s.creditPath args w clock).pendingByIdentity = s.pendingByIdentity := by
  unfold creditPath
  simp only
  split_ifs <;> rfl

theorem creditPath_heard {s : Tracker} {args : RecordMeshcoreRfRxArgs} {w : PendingWindow} {clock : Int}
    {key : String} {r : HeardRepeater} (h : r ∈ (s.creditPath args w clock).coverage.heardAt key) :
    r ∈ s.coverage.heardAt key ∨ key = relayCoverageKey args.identityId w.messageId := by
  unfold creditPath at h
  simp only at h
  split_ifs at h
  · exact .inl h
  · exact .inl h
  · exact (Coverage.heardAt_setPatch rfl h).imp id And.left

variable (codec) in
theorem bindWindow_cases (s : Tracker) (args : RecordMeshcoreRfRxArgs) (w : PendingWindow) :
    s.bindWindow codec args w = (w, s) ∧ args.boundIdentity codec s.channelSecretsByIndex w = none ∨
    ∃ bound, args.boundIdentity codec s.channelSecretsByIndex w = some bound ∧
      s.bindWindow codec args w =
        ({ w with payloadIdentity := some bound },
          { s with pendingByIdentity :=
              s.pendingByIdentity.set args.identityId { w with payloadIdentity := some bound } }) := by
  unfold bindWindow
  cases hbound : args.boundIdentity codec s.channelSecretsByIndex w with
  | none => exact .inl ⟨rfl, rfl⟩
  | some bound => exact .inr ⟨bound, rfl, rfl⟩

variable (codec) in
-- What receiving a packet can do.
theorem record_cases (s : Tracker) (args : RecordMeshcoreRfRxArgs) (clock : Int) :
    s.recordMeshcoreRfRx codec args clock = s ∨
    s.recordMeshcoreRfRx codec args clock = s.clearHeardRepeatWindow args.identityId ∨
    ∃ w, (args.isOwnMeshcoreTx = true ∨ args.treatAsOwnChannelFlood = true) ∧
      s.pendingByIdentity.get? args.identityId = some w ∧ args.now.getD clock - w.openedAt ≤ w.windowMs ∧
      (s.recordMeshcoreRfRx codec args clock = (s.bindWindow codec args w).2 ∨
        args.mayCredit (s.bindWindow codec args w).1 = true ∧
        s.recordMeshcoreRfRx codec args clock =
          (s.bindWindow codec args w).2.creditPath args (s.bindWindow codec args w).1 clock) := by
  unfold recordMeshcoreRfRx
  by_cases hours : (!args.isOwnMeshcoreTx && !args.treatAsOwnChannelFlood) = true
  · exact .inl (if_pos hours)
  · rw [if_neg hours]
    obtain hopen | hopen | ⟨w, hopen, hw, htime⟩ := activeWindow_cases s args.identityId (args.now.getD clock)
    · exact .inl (by rw [hopen])
    · exact .inr (.inl (by rw [hopen]))
    · refine .inr (.inr ⟨w, ?_, hw, htime, ?_⟩)
      · by_cases hown : args.isOwnMeshcoreTx = true
        · exact .inl hown
        · exact .inr (by simpa [hown] using hours)
      · rw [hopen]
        by_cases hcredit : args.mayCredit (s.bindWindow codec args w).1 = true
        · exact .inr ⟨hcredit, if_pos hcredit⟩
        · exact .inl (if_neg hcredit)

theorem get?_of_clearIfMessage {s : Tracker} {identityId messageId i : String} {w : PendingWindow}
    (h : (s.clearHeardRepeatWindowIfMessage identityId messageId).pendingByIdentity.get? i = some w) :
    s.pendingByIdentity.get? i = some w := by
  unfold clearHeardRepeatWindowIfMessage at h
  split at h
  · exact h
  · split at h
    · exact get?_of_clear h
    · exact h

theorem get?_of_activeWindow {s : Tracker} {identityId i : String} {now : Int} {w : PendingWindow}
    (h : (s.activeWindow identityId now).2.pendingByIdentity.get? i = some w) :
    s.pendingByIdentity.get? i = some w := by
  obtain hopen | hopen | ⟨_, hopen, _⟩ := activeWindow_cases s identityId now
  · rwa [hopen] at h
  · rw [hopen] at h
    exact get?_of_clear h
  · rwa [hopen] at h

theorem get?_of_rename {s : Tracker} {identityId fromMessageId toMessageId i : String} {w' : PendingWindow}
    (h : (s.renameHeardRepeatWindowMessageId identityId fromMessageId toMessageId).pendingByIdentity.get? i =
      some w') :
    ∃ w, s.pendingByIdentity.get? i = some w ∧ w.SameListen w' ∧ w'.payloadIdentity = w.payloadIdentity := by
  have hkept : s.pendingByIdentity.get? i = some w' →
      ∃ w, s.pendingByIdentity.get? i = some w ∧ w.SameListen w' ∧ w'.payloadIdentity = w.payloadIdentity :=
    fun hw => ⟨w', hw, .refl w', rfl⟩
  unfold renameHeardRepeatWindowMessageId at h
  split at h
  · exact hkept h
  · split at h
    · exact hkept h
    · rename_i w hw
      split at h
      · exact hkept h
      · rw [OrderedMap.get?_set] at h
        by_cases hi : i = identityId
        · rw [if_pos hi, Option.some.injEq] at h
          subst h hi
          exact ⟨w, hw, ⟨rfl, rfl, rfl⟩, rfl⟩
        · rw [if_neg hi] at h
          exact hkept h

theorem get?_of_open {s : Tracker} {identityId messageId i : String} {windowMs openedAt clock : Int}
    {expect : Option MeshcoreOwnChannelFloodExpectation} {w' : PendingWindow}
    (h : (s.openHeardRepeatWindow identityId messageId windowMs openedAt expect clock).pendingByIdentity.get? i =
      some w') :
    (i = identityId ∧ w' = ⟨messageId, openedAt, windowMs, expect, none⟩) ∨
    i ≠ identityId ∧ s.pendingByIdentity.get? i = some w' := by
  simp only [openHeardRepeatWindow, OrderedMap.get?_set] at h
  by_cases hi : i = identityId
  · rw [if_pos hi, Option.some.injEq] at h
    exact .inl ⟨hi, h.symm⟩
  · rw [if_neg hi] at h
    refine .inr ⟨hi, ?_⟩
    split at h
    · exact get?_of_clear h
    · exact h

-- An identity is only bound where none was, by our own TX or by what the expectation decrypts.
theorem boundIdentity_eq_some {args : RecordMeshcoreRfRxArgs} {secrets : ChannelSecrets} {w : PendingWindow}
    {bound : MeshCorePathInvariantPayloadId} (h : args.boundIdentity codec secrets w = some bound) :
    w.payloadIdentity = none ∧ args.payloadIdentity = some bound ∧
    (args.isOwnMeshcoreTx = true ∨ args.treatAsOwnChannelFlood = true ∧ ∃ expect, w.expect = some expect ∧
      grpTxtMatchesExpectation codec secrets bound.innerPayload expect w.windowMs = true) := by
  unfold RecordMeshcoreRfRxArgs.boundIdentity at h
  by_cases hbound : w.payloadIdentity.isSome = true
  · simp [hbound] at h
  · rw [if_neg hbound, Option.filter_eq_some_iff, Bool.or_eq_true] at h
    refine ⟨by simpa using hbound, h.1, h.2.imp id fun hgrp => ?_⟩
    simp only [RecordMeshcoreRfRxArgs.ownGrpTxt, Bool.and_eq_true, Option.any_eq_true] at hgrp
    exact ⟨hgrp.1.2, hgrp.2⟩

theorem get?_of_bind {s : Tracker} {args : RecordMeshcoreRfRxArgs} {w w' : PendingWindow} {i : String}
    (hw : s.pendingByIdentity.get? args.identityId = some w)
    (h : (s.bindWindow codec args w).2.pendingByIdentity.get? i = some w') :
    s.pendingByIdentity.get? i = some w' ∨
    i = args.identityId ∧ s.pendingByIdentity.get? i = some w ∧
      ∃ bound, args.boundIdentity codec s.channelSecretsByIndex w = some bound ∧
        w' = { w with payloadIdentity := some bound } := by
  obtain ⟨hsame, _⟩ | ⟨bound, hid, hsame⟩ := bindWindow_cases codec s args w
  · rw [hsame] at h
    exact .inl h
  · rw [hsame, OrderedMap.get?_set] at h
    by_cases hi : i = args.identityId
    · rw [if_pos hi, Option.some.injEq] at h
      exact .inr ⟨hi, by rwa [hi], bound, hid, h.symm⟩
    · rw [if_neg hi] at h
      exact .inl h

theorem bindWindow_self (s : Tracker) {args : RecordMeshcoreRfRxArgs} {w : PendingWindow}
    (hw : s.pendingByIdentity.get? args.identityId = some w) :
    (s.bindWindow codec args w).2.pendingByIdentity.get? args.identityId = some (s.bindWindow codec args w).1 := by
  obtain ⟨hsame, _⟩ | ⟨bound, _, hsame⟩ := bindWindow_cases codec s args w
  · rwa [hsame]
  · rw [hsame, OrderedMap.get?_set_self]

variable (codec) in
theorem bindWindow_messageId (s : Tracker) (args : RecordMeshcoreRfRxArgs) (w : PendingWindow) :
    (s.bindWindow codec args w).1.messageId = w.messageId ∧
    (s.bindWindow codec args w).2.coverage = s.coverage := by
  obtain ⟨hsame, _⟩ | ⟨bound, _, hsame⟩ := bindWindow_cases codec s args w
  · rw [hsame]
    exact ⟨rfl, rfl⟩
  · rw [hsame]
    exact ⟨rfl, rfl⟩

-- A window after a step is freshly opened, or it is the window of before, perhaps bound by the step.
theorem step_window {s : Tracker} {call : TrackerCall} {i : String} {w' : PendingWindow}
    (h : (s.step codec call).pendingByIdentity.get? i = some w') :
    (call.Opens i ∧ w'.payloadIdentity = none ∧ w'.openedAt = call.time) ∨
    ∃ w, ¬ call.Opens i ∧ s.pendingByIdentity.get? i = some w ∧ w.SameListen w' ∧
      (w'.payloadIdentity = w.payloadIdentity ∨
        ∃ bound, w.payloadIdentity = none ∧ w'.payloadIdentity = some bound ∧ Binds codec s call i w' bound) := by
  have hkept : ¬ call.Opens i → s.pendingByIdentity.get? i = some w' →
      ∃ w, ¬ call.Opens i ∧ s.pendingByIdentity.get? i = some w ∧ w.SameListen w' ∧
        (w'.payloadIdentity = w.payloadIdentity ∨
          ∃ bound, w.payloadIdentity = none ∧ w'.payloadIdentity = some bound ∧
            Binds codec s call i w' bound) :=
    fun hopens hw => ⟨w', hopens, hw, .refl w', .inl rfl⟩
  obtain ⟨op, clock⟩ := call
  cases op with
  | setMeshcoreHeardRepeatChannelSecrets channels => exact .inr (hkept (by rintro ⟨_, _, _, _, ⟨⟩⟩) h)
  | clearMeshcoreHeardRepeatChannelSecrets => exact .inr (hkept (by rintro ⟨_, _, _, _, ⟨⟩⟩) h)
  | clearHeardRepeatWindow identityId => exact .inr (hkept (by rintro ⟨_, _, _, _, ⟨⟩⟩) (get?_of_clear h))
  | clearHeardRepeatWindowIfMessage identityId messageId =>
      exact .inr (hkept (by rintro ⟨_, _, _, _, ⟨⟩⟩) (get?_of_clearIfMessage h))
  | renameHeardRepeatWindowMessageId identityId fromMessageId toMessageId =>
      obtain ⟨w, hw, hlisten, hid⟩ := get?_of_rename h
      exact .inr ⟨w, by rintro ⟨_, _, _, _, ⟨⟩⟩, hw, hlisten, .inl hid⟩
  | openHeardRepeatWindow identityId messageId windowMs openedAt expect =>
      obtain ⟨rfl, rfl⟩ | ⟨hi, hw⟩ := get?_of_open h
      · exact .inl ⟨⟨_, _, _, _, rfl⟩, rfl, rfl⟩
      · refine .inr (hkept ?_ hw)
        rintro ⟨_, _, _, _, hop⟩
        cases hop
        exact hi rfl
  | hasOpenHeardRepeatWindow identityId now =>
      exact .inr (hkept (by rintro ⟨_, _, _, _, ⟨⟩⟩) (get?_of_activeWindow h))
  | recordMeshcoreRfRx args =>
      have hopens : ¬ (TrackerCall.mk (.recordMeshcoreRfRx args) clock).Opens i := by
        rintro ⟨_, _, _, _, ⟨⟩⟩
      simp only [step] at h
      obtain hs | hs | ⟨w, _, hw, htime, hs⟩ := record_cases codec s args clock
      · rw [hs] at h
        exact .inr (hkept hopens h)
      · rw [hs] at h
        exact .inr (hkept hopens (get?_of_clear h))
      · have hbind : (s.bindWindow codec args w).2.pendingByIdentity.get? i = some w' := by
          obtain hs | ⟨_, hs⟩ := hs
          · rwa [hs] at h
          · rwa [hs, creditPath_pending] at h
        obtain hsame | ⟨rfl, hw, bound, hid, rfl⟩ := get?_of_bind hw hbind
        · exact .inr (hkept hopens hsame)
        · obtain ⟨hnone, hincoming, hsource⟩ := boundIdentity_eq_some hid
          exact .inr ⟨w, hopens, hw, ⟨rfl, rfl, rfl⟩, .inr ⟨bound, hnone, rfl, args, w, rfl, rfl, hw, hnone,
            ⟨rfl, rfl, rfl⟩, htime, hincoming, hsource⟩⟩

theorem supersededCoverage_subset (s : Tracker) (identityId messageId key : String) (openedAt : Int) :
    (s.supersededCoverage identityId messageId openedAt).heardAt key ⊆ s.coverage.heardAt key := by
  unfold supersededCoverage
  split
  · exact List.Subset.refl _
  · split
    · exact List.Subset.refl _
    · split
      · exact Coverage.heardAt_remove_subset s.coverage identityId _ key
      · exact List.Subset.refl _

theorem coverage_of_activeWindow (s : Tracker) (i : String) (now : Int) :
    (s.activeWindow i now).2.coverage = s.coverage := by
  obtain hopen | hopen | ⟨_, hopen, _⟩ := activeWindow_cases s i now
  · rw [hopen]
  · rw [hopen]
    rfl
  · rw [hopen]

-- A repeater is only credited by a packet that meets an open window.
theorem step_heard {s : Tracker} {call : TrackerCall} {key : String} {r : HeardRepeater}
    (h : r ∈ (s.step codec call).coverage.heardAt key) :
    r ∈ s.coverage.heardAt key ∨ ∃ args w, call.op = .recordMeshcoreRfRx args ∧
      (args.isOwnMeshcoreTx = true ∨ args.treatAsOwnChannelFlood = true) ∧
      s.pendingByIdentity.get? args.identityId = some w ∧ call.time - w.openedAt ≤ w.windowMs ∧
      key = relayCoverageKey args.identityId w.messageId ∧
      args.mayCredit (s.bindWindow codec args w).1 = true ∧
      (s.step codec call).pendingByIdentity.get? args.identityId = some (s.bindWindow codec args w).1 := by
  obtain ⟨op, clock⟩ := call
  cases op with
  | setMeshcoreHeardRepeatChannelSecrets channels => exact .inl h
  | clearMeshcoreHeardRepeatChannelSecrets => exact .inl h
  | clearHeardRepeatWindow identityId => exact .inl h
  | clearHeardRepeatWindowIfMessage identityId messageId =>
      simp only [step, clearHeardRepeatWindowIfMessage] at h
      split at h
      · exact .inl h
      · split at h <;> exact .inl h
  | renameHeardRepeatWindowMessageId identityId fromMessageId toMessageId =>
      simp only [step, renameHeardRepeatWindowMessageId] at h
      split at h
      · exact .inl h
      · split at h
        · exact .inl h
        · split at h <;> exact .inl h
  | openHeardRepeatWindow identityId messageId windowMs openedAt expect =>
      obtain hold | ⟨_, hnew⟩ := Coverage.heardAt_setPatch rfl h
      · exact .inl (supersededCoverage_subset s _ _ key _ hold)
      · cases hnew
  | hasOpenHeardRepeatWindow identityId now =>
      simp only [step, coverage_of_activeWindow] at h
      exact .inl h
  | recordMeshcoreRfRx args =>
      simp only [step] at h ⊢
      obtain hs | hs | ⟨w, hours, hw, htime, hs⟩ := record_cases codec s args clock
      · rw [hs] at h
        exact .inl h
      · rw [hs] at h
        exact .inl h
      · obtain ⟨hmessage, hcoverage⟩ := bindWindow_messageId codec s args w
        obtain hs | ⟨hcredit, hs⟩ := hs
        · rw [hs, hcoverage] at h
          exact .inl h
        · rw [hs] at h
          obtain hold | hkey := creditPath_heard h
          · rw [hcoverage] at hold
            exact .inl hold
          · rw [hmessage] at hkey
            refine .inr ⟨args, w, rfl, hours, hw, htime, hkey, hcredit, ?_⟩
            rw [hs, creditPath_pending]
            exact bindWindow_self s hw

end Tracker

def SamePayload (a b : MeshCorePathInvariantPayloadId) : Prop :=
  a.payloadTypeNibble = b.payloadTypeNibble ∧ a.innerPayload = b.innerPayload

theorem all_zip_eq {a b : Bytes} (hlen : a.length = b.length)
    (h : ((a.zip b).all fun (x, y) => decide (x = y)) = true) : a = b := by
  induction a generalizing b with
  | nil => exact (List.length_eq_zero_iff.mp hlen.symm).symm
  | cons x a ih =>
      obtain ⟨y, b, rfl⟩ := List.exists_cons_of_length_eq_add_one hlen.symm
      simp only [List.zip_cons_cons, List.all_cons, Bool.and_eq_true, decide_eq_true_eq] at h
      rw [h.1, ih (by simpa using hlen) h.2]

theorem samePayload_of_idsEqual {a b : MeshCorePathInvariantPayloadId}
    (h : meshCorePathInvariantPayloadIdsEqual a b = true) : SamePayload a b := by
  unfold meshCorePathInvariantPayloadIdsEqual at h
  split_ifs at h with _ htype hlen
  exact ⟨not_not.mp htype, all_zip_eq (not_not.mp hlen) h⟩

open Run

section

variable (codec : GroupTextCodec) (start : Tracker)

-- In the history the window got its identity from a packet that was our own, and it is still this window.
def OwnFlood (history : List TrackerCall) (identityId : String) (w : PendingWindow)
    (bound : MeshCorePathInvariantPayloadId) : Prop :=
  ∃ front binder rest, history = front ++ binder :: rest ∧ (∀ c ∈ rest, ¬ c.Opens identityId) ∧
    Binds codec (run (Tracker.step codec) start front) binder identityId w bound

-- Why the packet of a call may be credited to the message under `key`.
def OwnCredit (history : List TrackerCall) (call : TrackerCall) (key : String) : Prop :=
  ∃ args w w', call.op = .recordMeshcoreRfRx args ∧
    (run (Tracker.step codec) start history).pendingByIdentity.get? args.identityId = some w ∧
    key = relayCoverageKey args.identityId w.messageId ∧
    w.openedAt ≤ call.time ∧ call.time - w.openedAt ≤ w.windowMs ∧
    (run (Tracker.step codec) start (history ++ [call])).pendingByIdentity.get? args.identityId = some w' ∧
    w.SameListen w' ∧
    (args.isOwnMeshcoreTx = true ∧ (∀ incomingId, args.payloadIdentity = some incomingId →
        ∃ bound, w'.payloadIdentity = some bound ∧ SamePayload bound incomingId) ∨
      args.treatAsOwnChannelFlood = true ∧ ∃ incomingId bound, args.payloadIdentity = some incomingId ∧
        w'.payloadIdentity = some bound ∧ SamePayload bound incomingId ∧
        OwnFlood codec start (history ++ [call]) args.identityId w' bound)

-- A group text without an identity does not come while a bound window is open.
def Identified (s : Tracker) (call : TrackerCall) : Prop :=
  ∀ args, call.op = .recordMeshcoreRfRx args → args.isOwnMeshcoreTx = true ∨ args.payloadIdentity.isSome = true ∨
    ∀ w, (s.activeWindow args.identityId call.time).1 = some w → w.payloadIdentity = none

variable {codec start}

theorem Binds.sameListen {s : Tracker} {call : TrackerCall} {i : String} {w w' : PendingWindow}
    {bound : MeshCorePathInvariantPayloadId} (h : Binds codec s call i w bound) (hlisten : w.SameListen w') :
    Binds codec s call i w' bound := by
  obtain ⟨args, unbound, hop, hi, hw, hnone, hsame, htime, hincoming, hsource⟩ := h
  obtain ⟨hopened, hms, hexpect⟩ := hlisten
  refine ⟨args, unbound, hop, hi, hw, hnone, hsame.trans ⟨hopened, hms, hexpect⟩, ?_, hincoming, ?_⟩
  · rwa [hopened, hms]
  · rwa [hms, hexpect]

-- Every bound window of a run was bound by one of its own packets.
theorem ownFlood_of_bound (hstart : start.pendingByIdentity = ∅) (history : List TrackerCall) {i : String}
    {w : PendingWindow} {bound : MeshCorePathInvariantPayloadId}
    (hw : (run (Tracker.step codec) start history).pendingByIdentity.get? i = some w)
    (hbound : w.payloadIdentity = some bound) : OwnFlood codec start history i w bound := by
  induction history using List.reverseRecOn generalizing w with
  | nil =>
      rw [run_nil, hstart] at hw
      cases hw
  | append_singleton history call ih =>
      rw [run_concat] at hw
      obtain ⟨_, hnone, _⟩ | ⟨w₀, hopens, hw₀, hlisten, hid | ⟨bound', _, hbound', hbinds⟩⟩ :=
        Tracker.step_window hw
      · rw [hnone] at hbound
        cases hbound
      · obtain ⟨front, binder, rest, rfl, hrest, hbinds⟩ := ih hw₀ (hid.symm.trans hbound)
        refine ⟨front, binder, rest ++ [call], by simp, ?_, hbinds.sameListen hlisten⟩
        intro c hc
        obtain hc | hc := List.mem_append.mp hc
        · exact hrest c hc
        · rwa [List.mem_singleton.mp hc]
      · obtain rfl := Option.some.inj (hbound'.symm.trans hbound)
        exact ⟨history, call, [], rfl, by simp, hbinds⟩

-- A bound window stays bound to its identity until another one is opened.
theorem bound_kept {s : Tracker} {calls : List TrackerCall} {i : String} (hopens : ∀ c ∈ calls, ¬ c.Opens i)
    {w w' : PendingWindow} {bound : MeshCorePathInvariantPayloadId} (hw : s.pendingByIdentity.get? i = some w)
    (hbound : w.payloadIdentity = some bound)
    (hw' : (run (Tracker.step codec) s calls).pendingByIdentity.get? i = some w') :
    w'.payloadIdentity = some bound := by
  induction calls using List.reverseRecOn generalizing w' with
  | nil =>
      obtain rfl := Option.some.inj (hw.symm.trans hw')
      exact hbound
  | append_singleton calls call ih =>
      rw [run_concat] at hw'
      obtain ⟨hopen, _⟩ | ⟨w₀, _, hw₀, _, hid | ⟨_, hnone, _⟩⟩ := Tracker.step_window hw'
      · exact absurd hopen (hopens call (by simp))
      · exact hid.trans (ih (fun c hc => hopens c (by simp [hc])) hw₀)
      · have hsome := ih (fun c hc => hopens c (by simp [hc])) hw₀
        rw [hnone] at hsome
        cases hsome

-- No window is opened after the time of the last call.
theorem openedAt_le (hstart : start.pendingByIdentity = ∅) {history : List TrackerCall} {now : Int}
    (htimes : ∀ c ∈ history, c.time ≤ now) {i : String} {w : PendingWindow}
    (hw : (run (Tracker.step codec) start history).pendingByIdentity.get? i = some w) : w.openedAt ≤ now := by
  induction history using List.reverseRecOn generalizing w with
  | nil =>
      rw [run_nil, hstart] at hw
      cases hw
  | append_singleton history call ih =>
      rw [run_concat] at hw
      obtain ⟨_, _, hopened⟩ | ⟨w₀, _, hw₀, hlisten, _⟩ := Tracker.step_window hw
      · rw [hopened]
        exact htimes call (by simp)
      · rw [hlisten.1]
        exact ih (fun c hc => htimes c (by simp [hc])) hw₀

theorem mayCredit_ownTx {s : Tracker} {args : RecordMeshcoreRfRxArgs} {w : PendingWindow}
    (hcredit : args.mayCredit (s.bindWindow codec args w).1 = true) (hown : args.isOwnMeshcoreTx = true)
    {incomingId : MeshCorePathInvariantPayloadId} (hincoming : args.payloadIdentity = some incomingId) :
    ∃ bound, (s.bindWindow codec args w).1.payloadIdentity = some bound ∧ SamePayload bound incomingId := by
  cases hbound : (s.bindWindow codec args w).1.payloadIdentity with
  | some bound =>
      simp only [RecordMeshcoreRfRxArgs.mayCredit, hbound, hincoming, Option.all_some] at hcredit
      exact ⟨bound, rfl, samePayload_of_idsEqual hcredit⟩
  | none =>
      -- An unbound window would have been bound to the packet's own identity.
      obtain ⟨hsame, hfree⟩ | ⟨bound, _, hsame⟩ := Tracker.bindWindow_cases codec s args w
      · rw [hsame] at hbound
        have hbound : ¬ w.payloadIdentity = none := by
          simpa [RecordMeshcoreRfRxArgs.boundIdentity, hincoming, hown] using hfree
        contradiction
      · simp [hsame] at hbound

-- What a group text has to match: the window is bound, and to this text.
theorem mayCredit_groupText {s : Tracker} {args : RecordMeshcoreRfRxArgs} {w : PendingWindow}
    (hcredit : args.mayCredit (s.bindWindow codec args w).1 = true) (hown : ¬ args.isOwnMeshcoreTx = true)
    (hidentified : args.payloadIdentity.isSome = true ∨ w.payloadIdentity = none) :
    ∃ incomingId bound, args.payloadIdentity = some incomingId ∧
      (s.bindWindow codec args w).1.payloadIdentity = some bound ∧ SamePayload bound incomingId := by
  cases hbound : (s.bindWindow codec args w).1.payloadIdentity with
  | none =>
      simp only [RecordMeshcoreRfRxArgs.mayCredit, hbound] at hcredit
      exact absurd hcredit hown
  | some bound =>
      simp only [RecordMeshcoreRfRxArgs.mayCredit, hbound] at hcredit
      cases hincoming : args.payloadIdentity with
      | some incomingId =>
          rw [hincoming, Option.all_some] at hcredit
          exact ⟨incomingId, bound, rfl, rfl, samePayload_of_idsEqual hcredit⟩
      | none =>
          have hfree : w.payloadIdentity = none := by simpa [hincoming] using hidentified
          have hsame : (s.bindWindow codec args w).1 = w := by
            simp [Tracker.bindWindow, RecordMeshcoreRfRxArgs.boundIdentity, hincoming]
          rw [hsame, hfree] at hbound
          cases hbound

theorem bindWindow_listen (s : Tracker) (args : RecordMeshcoreRfRxArgs) (w : PendingWindow) :
    w.SameListen (s.bindWindow codec args w).1 := by
  obtain ⟨hsame, _⟩ | ⟨bound, _, hsame⟩ := Tracker.bindWindow_cases codec s args w
  · rw [hsame]
    exact .refl w
  · rw [hsame]
    exact ⟨rfl, rfl, rfl⟩

theorem activeWindow_of_open {s : Tracker} {i : String} {now : Int} {w : PendingWindow}
    (hw : s.pendingByIdentity.get? i = some w) (htime : now - w.openedAt ≤ w.windowMs) :
    (s.activeWindow i now).1 = some w := by
  simp only [Tracker.activeWindow, hw]
  rw [if_neg (by omega)]

theorem ownCredit_of_gain (hstart : start.pendingByIdentity = ∅) {history : List TrackerCall} {call : TrackerCall}
    (htimes : ∀ c ∈ history, c.time ≤ call.time)
    (hidentified : Identified (run (Tracker.step codec) start history) call) {key : String} {r : HeardRepeater}
    (hafter : r ∈ (run (Tracker.step codec) start (history ++ [call])).coverage.heardAt key)
    (hbefore : r ∉ (run (Tracker.step codec) start history).coverage.heardAt key) :
    OwnCredit codec start history call key := by
  rw [run_concat] at hafter
  obtain hold | ⟨args, w, hop, hours, hw, htime, hkey, hcredit, hw'⟩ := Tracker.step_heard hafter
  · exact absurd hold hbefore
  · rw [← run_concat (Tracker.step codec)] at hw'
    refine ⟨args, w, _, hop, hw, hkey, openedAt_le hstart htimes hw, htime, hw', bindWindow_listen _ args w, ?_⟩
    by_cases hown : args.isOwnMeshcoreTx = true
    · exact .inl ⟨hown, fun _ hincoming => mayCredit_ownTx hcredit hown hincoming⟩
    · have hfree := (hidentified args hop).resolve_left hown
      obtain ⟨incomingId, bound, hincoming, hbound, hsame⟩ := mayCredit_groupText hcredit hown
        (hfree.imp id fun hfree => hfree w (activeWindow_of_open hw htime))
      exact .inr ⟨hours.resolve_left hown, incomingId, bound, hincoming, hbound, hsame,
        ownFlood_of_bound hstart _ hw' hbound⟩

end

-- In a run in which group texts carry an identity, repeaters are only credited to our own floods, and a
-- bound window keeps its identity.
theorem heard_repeats_are_own (codec : GroupTextCodec) (start : Tracker) (hstart : start.pendingByIdentity = ∅)
    (calls : List TrackerCall) (htimes : (calls.map TrackerCall.time).Pairwise (· ≤ ·))
    (hidentified : Each (Tracker.step codec) Identified start calls) :
    (∀ history call rest, calls = history ++ call :: rest → ∀ key r,
      r ∈ (run (Tracker.step codec) start (history ++ [call])).coverage.heardAt key →
      r ∉ (run (Tracker.step codec) start history).coverage.heardAt key →
      OwnCredit codec start history call key) ∧
    ∀ history later rest, calls = history ++ later ++ rest → ∀ identityId w w' bound,
      (run (Tracker.step codec) start history).pendingByIdentity.get? identityId = some w →
      w.payloadIdentity = some bound → (∀ c ∈ later, ¬ c.Opens identityId) →
      (run (Tracker.step codec) start (history ++ later)).pendingByIdentity.get? identityId = some w' →
      w'.payloadIdentity = some bound := by
  constructor
  · rintro history call rest rfl key r hafter hbefore
    refine ownCredit_of_gain hstart ?_ hidentified.of_append hafter hbefore
    rw [List.map_append, List.map_cons] at htimes
    intro c hc
    exact (List.pairwise_append.mp htimes).2.2 c.time (List.mem_map_of_mem hc) call.time (by simp)
  · intro history later rest _ identityId w w' bound hw hbound hopens hw'
    rw [run_append] at hw'
    exact bound_kept hopens hw hbound hw'

-- What the runtime reads off a received packet: its payload type, from the fallback where the parser gives
-- up, and its identity.
def rfPayloadTypeString (raw : Bytes) : Option String :=
  match parseMeshCoreRfPacket raw with
  | .ok (.ok parsed) => some parsed.payloadTypeString
  | .ok (.fail _) =>
      (decodeMeshCorePathPrefix raw).toOption.bind fun _ => raw.head?.map meshCorePayloadTypeStringFromByte0
  | .error _ => none

def rfPayloadIdentity (raw : Bytes) : Option MeshCorePathInvariantPayloadId :=
  match parseMeshCoreRfPacket raw with
  | .ok (.ok parsed) => some (meshCorePathInvariantPayloadId parsed.payloadTypeNibble parsed.innerPayload)
  | _ => none

-- The fallback fails with the parser, so the runtime never passes on a group text without its identity.
theorem rfPayload_identified {raw : Bytes} {type : String} (h : rfPayloadTypeString raw = some type) :
    (rfPayloadIdentity raw).isSome = true := by
  by_cases hpacket : ∃ packet : RfPacket, packet.bytes = raw
  · obtain ⟨packet, rfl⟩ := hpacket
    obtain ⟨parsed, hparsed, _⟩ := parse_bytes packet
    simp [rfPayloadIdentity, hparsed]
  · obtain ⟨reason, hfail⟩ := parse_fail fun packet hbytes => hpacket ⟨packet, hbytes⟩
    cases hdecode : decodeMeshCorePathPrefix raw with
    | ok path => exact absurd (packet_of_decode_ok hdecode) hpacket
    | error message => simp [rfPayloadTypeString, hfail, hdecode, Except.toOption] at h

-- No channel secret is known in these runs, so nothing is ever decrypted.
def noCipher : GroupTextCodec := ⟨fun _ => 0, fun _ _ => none⟩

def idleTracker : Tracker := ⟨∅, ∅, ∅⟩

def heardPacket (isOwnMeshcoreTx : Bool) (pathBytes : Bytes)
    (payloadIdentity : Option MeshCorePathInvariantPayloadId) : RecordMeshcoreRfRxArgs where
  identityId := "radio"
  isOwnMeshcoreTx
  treatAsOwnChannelFlood := true
  pathBytes
  pathHashSizeBytes := 1
  myNodeNum := 7
  myPubKey := none
  payloadIdentity
  snr := none
  rssi := none
  now := none
  candidates := []
  pubKeyByNodeId := none
  resolveRepeater _ := none

def openCall : TrackerCall := ⟨.openHeardRepeatWindow "radio" "m" MESHCORE_HEARD_REPEAT_WINDOW_MS none none, 0⟩

def ownEcho (pathBytes : Bytes) : TrackerCall :=
  ⟨.recordMeshcoreRfRx (heardPacket true pathBytes (some (meshCorePathInvariantPayloadId 5 [1, 2, 3]))), 1⟩

-- A group text of unknown payload, forwarded by an unknown node.
def unknownText : TrackerCall := ⟨.recordMeshcoreRfRx (heardPacket false [0xab] none), 2⟩

def unknownForwarder : HeardRepeater := ⟨syntheticHeardNodeIdFromPathSegment [0xab], some "ab", none, none⟩

-- The window is bound by our own echo, and then credits the forwarder of any text without an identity.
theorem unidentified_text_is_credited :
    ¬ ∀ (codec : GroupTextCodec) (start : Tracker), start.pendingByIdentity = ∅ → ∀ calls : List TrackerCall,
      (calls.map TrackerCall.time).Pairwise (· ≤ ·) → ∀ history call rest, calls = history ++ call :: rest →
      ∀ key r, r ∈ (run (Tracker.step codec) start (history ++ [call])).coverage.heardAt key →
        r ∉ (run (Tracker.step codec) start history).coverage.heardAt key →
        OwnCredit codec start history call key := by
  intro h
  obtain ⟨args, _, _, hop, _, _, _, _, _, _, hwhy⟩ := h noCipher idleTracker rfl
    [openCall, ownEcho [], unknownText] (by decide) [openCall, ownEcho []] unknownText [] rfl "radio:m"
    unknownForwarder (by decide +kernel) (by decide +kernel)
  cases hop
  obtain ⟨hown, _⟩ | ⟨_, _, _, hincoming, _⟩ := hwhy
  · cases hown
  · cases hincoming

def echoes : List TrackerCall := [openCall, ownEcho [0xab], ownEcho [0xcd]]

theorem echoes_are_credited :
    OwnCredit noCipher idleTracker [openCall] (ownEcho [0xab]) "radio:m" ∧
    ∀ w', (run (Tracker.step noCipher) idleTracker echoes).pendingByIdentity.get? "radio" = some w' →
      w'.payloadIdentity = some (meshCorePathInvariantPayloadId 5 [1, 2, 3]) := by
  have hidentified : Each (Tracker.step noCipher) Identified idleTracker echoes := by
    refine ⟨?_, ?_, ?_, trivial⟩
    · rintro args ⟨⟩
    · rintro args ⟨⟩
      exact .inl rfl
    · rintro args ⟨⟩
      exact .inl rfl
  have hopens : ∀ c ∈ [ownEcho [0xcd]], ¬ c.Opens "radio" := by
    intro c hc
    rw [List.mem_singleton.mp hc]
    rintro ⟨_, _, _, _, ⟨⟩⟩
  obtain ⟨hcredit, hkept⟩ :=
    heard_repeats_are_own noCipher idleTracker rfl echoes (by decide) hidentified
  refine ⟨hcredit [openCall] (ownEcho [0xab]) [ownEcho [0xcd]] rfl "radio:m" unknownForwarder
    (by decide +kernel) (by decide +kernel), fun w' hw' => ?_⟩
  exact hkept [openCall, ownEcho [0xab]] [ownEcho [0xcd]] [] rfl "radio"
    ⟨"m", 0, MESHCORE_HEARD_REPEAT_WINDOW_MS, none, some (meshCorePathInvariantPayloadId 5 [1, 2, 3])⟩ w' _
    (by decide +kernel) rfl hopens hw'

end MeshClient.Meshcore
