import MeshClient.Js.Json
import MeshClient.Lib.Run
import MeshClient.Messages.Record

namespace MeshClient.Reticulum.Ingest

open Messages

def reticulumHashToNodeId (hash : String) : Int :=
  let hex := (hash.toList.filter fun c => (Js.digitOf 16 c).isSome).take 12
  (Js.parseInt (if hex = [] then "0" else String.ofList hex) 16).getD 0 % 2 ^ 32

-- `nodeId >>> 0`
def normalizeReticulumNodeId (nodeId : Int) : Int := nodeId % 2 ^ 32

structure ReticulumIngestMergeContext where
  selfLxmfHash : Option String := none
  attachmentPath : Option String := none
  attachmentKind : Option AttachmentKind := none
  audioMode : Option Int := none

def truthy (s : Option String) : Bool := s.any (· ≠ "")

def isSelfReticulumNode (nodeId : Int) (selfNodeId : Option Int) : Bool :=
  selfNodeId.any fun self => normalizeReticulumNodeId nodeId = self

def selfNodeIdOf (ctx : ReticulumIngestMergeContext) : Option Int :=
  (ctx.selfLxmfHash.filter (· ≠ "")).map fun hash => normalizeReticulumNodeId (reticulumHashToNodeId hash)

-- `record.from = …`
def setFrom (message : MessageWrite) (nodeId : Int) : MessageWrite where
  record := { message.record with from' := nodeId }
  has := message.has
  required := message.required
  absent := by
    intro f hf
    have hget := message.absent f hf
    cases f <;> first | exact hget | cases hget

-- An outbound row is from the own node.
def outboundWrite (incoming : MessageWrite) (direction : Option String) (selfNodeId : Option Int) : MessageWrite :=
  match selfNodeId with
  | some self => if direction = some "outbound" then setFrom incoming self else incoming
  | none => incoming

def setAttachment (record : MessageRecord) (ctx : ReticulumIngestMergeContext) : MessageRecord :=
  { record with
    reticulumAttachmentPath := ctx.attachmentPath
    reticulumAttachmentKind := ctx.attachmentKind.or record.reticulumAttachmentKind
    reticulumAudioMode := ctx.audioMode.or record.reticulumAudioMode }

def keepRecipient (existing merged : MessageRecord) (selfNodeId : Option Int) : MessageRecord :=
  if existing.to' ≠ 0 ∧ (merged.to' = 0 ∨ isSelfReticulumNode merged.to' selfNodeId = true) then
    { merged with to' := existing.to' }
  else merged

def keepSender (existing record merged : MessageRecord) (direction : Option String) (selfNodeId : Option Int) :
    MessageRecord :=
  let existingFromSelf := isSelfReticulumNode existing.from' selfNodeId
  let incomingFromSelf := isSelfReticulumNode record.from' selfNodeId
  if existingFromSelf && !incomingFromSelf then
    { merged with
      from' := existing.from'
      senderName := existing.senderName
      reticulumSenderHash := existing.reticulumSenderHash.or merged.reticulumSenderHash }
  else if existingFromSelf && incomingFromSelf && direction = some "outbound" then
    { merged with receivedVia := record.receivedVia.or existing.receivedVia }
  else merged

def keepAcked (existing record merged : MessageRecord) : MessageRecord :=
  if existing.status = some .acked ∧ record.status = some .sending then
    { merged with status := some .acked, error := none }
  else merged

def keepAttachment (existing merged : MessageRecord) (ctx : ReticulumIngestMergeContext) : MessageRecord :=
  if truthy ctx.attachmentPath then setAttachment merged ctx
  else if truthy existing.reticulumAttachmentPath then
    { merged with
      reticulumAttachmentPath := existing.reticulumAttachmentPath
      reticulumAttachmentKind := existing.reticulumAttachmentKind
      reticulumAudioMode := existing.reticulumAudioMode
      reticulumAudioDurationSec := existing.reticulumAudioDurationSec }
  else merged

def keepText (existing merged : Option String) : Option String :=
  if !truthy merged && truthy existing then existing else merged

def keepQuote (existing merged : MessageRecord) : MessageRecord :=
  { merged with
    replyPreviewText := keepText existing.replyPreviewText merged.replyPreviewText
    replyPreviewSender := keepText existing.replyPreviewSender merged.replyPreviewSender
    reticulumReplyToHash := keepText existing.reticulumReplyToHash merged.reticulumReplyToHash }

def mergeReticulumIngestRecord (existing : Option MessageRecord) (incoming : MessageWrite) (direction : Option String)
    (ctx : ReticulumIngestMergeContext) : MessageRecord :=
  let selfNodeId := selfNodeIdOf ctx
  let write := outboundWrite incoming direction selfNodeId
  let record := write.record
  match existing with
  | none => if truthy ctx.attachmentPath then setAttachment record ctx else record
  | some existing =>
      let existingFromSelf := isSelfReticulumNode existing.from' selfNodeId
      let incomingFromSelf := isSelfReticulumNode record.from' selfNodeId
      if existingFromSelf && direction = some "inbound" && !incomingFromSelf then
        { existing with status := if record.status = some .sending then existing.status else record.status }
      else
        let merged := keepRecipient existing (spread existing write) selfNodeId
        let merged := keepSender existing record merged direction selfNodeId
        let merged := keepAcked existing record merged
        let merged := keepAttachment existing merged ctx
        keepQuote existing merged

open Messages Run

variable {existing record merged : MessageRecord} {message : MessageWrite} {direction : Option String}
  {ctx : ReticulumIngestMergeContext} {self : Option Int} {hash : String} {s s' : Option String}

theorem keepRecipient_to (h : existing.to' ≠ 0) (hself : isSelfReticulumNode existing.to' self = false) :
    (keepRecipient existing merged self).to' ≠ 0 ∧ isSelfReticulumNode (keepRecipient existing merged self).to' self = false := by
  unfold keepRecipient
  split_ifs with hbad
  · exact ⟨h, hself⟩
  · simp only [not_and, not_or, Bool.not_eq_true] at hbad
    exact hbad h

theorem keepRecipient_from : (keepRecipient existing merged self).from' = merged.from' := by
  unfold keepRecipient
  split_ifs <;> rfl

@[simp] theorem keepRecipient_status : (keepRecipient existing merged self).status = merged.status := by
  unfold keepRecipient
  split_ifs <;> rfl

@[simp] theorem keepSender_to : (keepSender existing record merged direction self).to' = merged.to' := by
  unfold keepSender
  dsimp only
  split_ifs <;> rfl

@[simp] theorem keepSender_status : (keepSender existing record merged direction self).status = merged.status := by
  unfold keepSender
  dsimp only
  split_ifs <;> rfl

@[simp] theorem keepAcked_from : (keepAcked existing record merged).from' = merged.from' := by
  unfold keepAcked
  split_ifs <;> rfl

@[simp] theorem keepAcked_to : (keepAcked existing record merged).to' = merged.to' := by
  unfold keepAcked
  split_ifs <;> rfl

@[simp] theorem keepAttachment_from : (keepAttachment existing merged ctx).from' = merged.from' := by
  unfold keepAttachment
  split_ifs <;> rfl

@[simp] theorem keepAttachment_to : (keepAttachment existing merged ctx).to' = merged.to' := by
  unfold keepAttachment
  split_ifs <;> rfl

@[simp] theorem keepAttachment_status : (keepAttachment existing merged ctx).status = merged.status := by
  unfold keepAttachment
  split_ifs <;> rfl

theorem keepAttachment_path (h : truthy existing.reticulumAttachmentPath = true) :
    truthy (keepAttachment existing merged ctx).reticulumAttachmentPath = true := by
  unfold keepAttachment
  split_ifs with hctx
  · exact hctx
  · exact h

theorem keepText_truthy (h : truthy s = true) : truthy (keepText s s') = true := by
  unfold keepText
  split_ifs with hmissing
  · exact h
  · rw [h, Bool.and_true, Bool.not_eq_true'] at hmissing
    simpa using hmissing

-- The sender stays the own node: it is the one of either row that is from it.
theorem keepSender_from (hexisting : isSelfReticulumNode existing.from' self = true) (hfrom : merged.from' = record.from') :
    isSelfReticulumNode (keepSender existing record merged direction self).from' self = true := by
  unfold keepSender
  dsimp only
  split_ifs with hpeer hown
  · exact hexisting
  · simp only [Bool.and_eq_true] at hown
    rw [hfrom]
    exact hown.1.2
  · rw [hexisting, Bool.true_and, Bool.not_eq_true'] at hpeer
    rw [hfrom]
    simpa using hpeer

theorem has_status (message : MessageWrite) {status : MessageStatus} (h : message.record.status = some status) :
    message.has .status = true := by
  by_contra hhas
  have hget := message.absent .status (by simpa using hhas)
  rw [MessageRecord.get, h] at hget
  cases hget

theorem outboundWrite_status : (outboundWrite message direction self).record.status = message.record.status := by
  unfold outboundWrite
  split
  · split_ifs <;> rfl
  · rfl

def repaired (existing : MessageRecord) (write : MessageWrite) (direction : Option String) (ctx : ReticulumIngestMergeContext)
    (self : Option Int) : MessageRecord :=
  keepQuote existing (keepAttachment existing (keepAcked existing write.record
    (keepSender existing write.record (keepRecipient existing (spread existing write) self) direction self)) ctx)

-- The incoming record either brings its status only, or all it has.
theorem merge_cases (existing : MessageRecord) (incoming : MessageWrite) (direction : Option String)
    (ctx : ReticulumIngestMergeContext) :
    ∃ write : MessageWrite, write.record.status = incoming.record.status ∧
      (mergeReticulumIngestRecord (some existing) incoming direction ctx = { existing with
          status := if write.record.status = some .sending then existing.status else write.record.status } ∨
        mergeReticulumIngestRecord (some existing) incoming direction ctx =
          repaired existing write direction ctx (selfNodeIdOf ctx)) := by
  refine ⟨outboundWrite incoming direction (selfNodeIdOf ctx), outboundWrite_status, ?_⟩
  unfold mergeReticulumIngestRecord
  exact ite_eq_or_eq _ _ _

structure Keeps (own : Option Int) (before after : MessageRecord) : Prop where
  sender : isSelfReticulumNode before.from' own = true → isSelfReticulumNode after.from' own = true
  recipient : before.to' ≠ 0 ∧ isSelfReticulumNode before.to' own = false →
    after.to' ≠ 0 ∧ isSelfReticulumNode after.to' own = false
  attachmentPath : truthy before.reticulumAttachmentPath = true → truthy after.reticulumAttachmentPath = true
  replyPreviewText : truthy before.replyPreviewText = true → truthy after.replyPreviewText = true
  replyPreviewSender : truthy before.replyPreviewSender = true → truthy after.replyPreviewSender = true
  replyToHash : truthy before.reticulumReplyToHash = true → truthy after.reticulumReplyToHash = true

theorem Keeps.trans {r r' r'' : MessageRecord} (h : Keeps self r r') (h' : Keeps self r' r'') : Keeps self r r'' where
  sender := h'.sender ∘ h.sender
  recipient := h'.recipient ∘ h.recipient
  attachmentPath := h'.attachmentPath ∘ h.attachmentPath
  replyPreviewText := h'.replyPreviewText ∘ h.replyPreviewText
  replyPreviewSender := h'.replyPreviewSender ∘ h.replyPreviewSender
  replyToHash := h'.replyToHash ∘ h.replyToHash

theorem keeps_repaired : Keeps self existing (repaired existing message direction ctx self) where
  sender h := by
    have hkept := @keepSender_from existing message.record (keepRecipient existing (spread existing message) self) direction
      self h keepRecipient_from
    simpa [repaired, keepQuote] using hkept
  recipient h := by
    have hkept := @keepRecipient_to existing (spread existing message) self h.1 h.2
    simpa [repaired, keepQuote] using hkept
  attachmentPath h := keepAttachment_path h
  replyPreviewText h := keepText_truthy h
  replyPreviewSender h := keepText_truthy h
  replyToHash h := keepText_truthy h

theorem keeps_merge (existing : MessageRecord) (incoming : MessageWrite) (direction : Option String)
    (ctx : ReticulumIngestMergeContext) :
    Keeps (selfNodeIdOf ctx) existing (mergeReticulumIngestRecord (some existing) incoming direction ctx) := by
  obtain ⟨write, _, hmerge | hmerge⟩ := merge_cases existing incoming direction ctx
  · rw [hmerge]
    exact ⟨id, id, id, id, id, id⟩
  · rw [hmerge]
    exact keeps_repaired

theorem repaired_status : (repaired existing message direction ctx self).status =
    if existing.status = some .acked ∧ message.record.status = some .sending then some .acked
    else if message.has .status then message.record.status else existing.status := by
  simp only [repaired, keepQuote, keepAttachment_status]
  unfold keepAcked
  split_ifs <;> simp_all [spread]

-- A delivered message is not taken for one that is being sent.
theorem merge_not_sending (incoming : MessageWrite) (hacked : existing.status = some .acked) :
    (mergeReticulumIngestRecord (some existing) incoming direction ctx).status ≠ some .sending := by
  obtain ⟨write, hstatus, hmerge | hmerge⟩ := merge_cases existing incoming direction ctx
  · rw [hmerge]
    dsimp only
    split_ifs with hsending
    · simp [hacked]
    · exact hsending
  · rw [hmerge, repaired_status, hacked]
    split_ifs with hsending
    · simp
    · exact fun h => hsending ⟨rfl, h⟩
    · simp

theorem merge_status {incoming : MessageWrite} {status : MessageStatus} (hacked : existing.status = some .acked)
    (hstatus : incoming.record.status = some status) :
    (mergeReticulumIngestRecord (some existing) incoming direction ctx).status =
      some (if status = .sending then .acked else status) := by
  obtain ⟨write, hwrite, hmerge | hmerge⟩ := merge_cases existing incoming direction ctx
  · rw [hmerge, hwrite]
    cases status <;> simp [hstatus, hacked]
  · rw [hstatus] at hwrite
    rw [hmerge, repaired_status, hacked, hwrite, has_status write hwrite]
    cases status <;> simp

structure Call where
  incoming : MessageWrite
  direction : Option String := none
  ctx : ReticulumIngestMergeContext := {}

-- Every call knows the own hash.
def merge (hash : String) (r : MessageRecord) (call : Call) : MessageRecord :=
  mergeReticulumIngestRecord (some r) call.incoming call.direction { call.ctx with selfLxmfHash := some hash }

def ownNode (hash : String) : Option Int := selfNodeIdOf { selfLxmfHash := some hash }

theorem keeps_step (hash : String) (r : MessageRecord) (call : Call) : Keeps (ownNode hash) r (merge hash r call) :=
  keeps_merge r call.incoming call.direction { call.ctx with selfLxmfHash := some hash }

theorem keeps_run (hash : String) (r : MessageRecord) (calls : List Call) :
    Keeps (ownNode hash) r (run (merge hash) r calls) := by
  induction calls generalizing r with
  | nil => exact ⟨id, id, id, id, id, id⟩
  | cons call rest ih => exact (keeps_step hash r call).trans (ih (merge hash r call))

theorem acked_run (hash : String) {r : MessageRecord} {calls : List Call} (hacked : r.status = some .acked)
    (hcalls : ∀ call ∈ calls, ∃ status, call.incoming.record.status = some status ∧ status ≠ .failed) :
    (run (merge hash) r calls).status = some .acked := by
  induction calls generalizing r with
  | nil => exact hacked
  | cons call rest ih =>
      obtain ⟨status, hstatus, hfailed⟩ := hcalls call List.mem_cons_self
      refine ih ?_ fun other hother => hcalls other (List.mem_cons_of_mem _ hother)
      rw [merge, merge_status hacked hstatus]
      cases status with
      | sending => rfl
      | acked => rfl
      | failed => exact absurd rfl hfailed

-- What holds of a record of the own node after some calls, and between that and any later call.
theorem outbound_message_kept (hash : String) (r : MessageRecord)
    (hown : isSelfReticulumNode r.from' (ownNode hash) = true) (before after : List Call) (call : Call) :
    isSelfReticulumNode (run (merge hash) r before).from' (ownNode hash) = true ∧
    Keeps (ownNode hash) (run (merge hash) r before) (run (merge hash) r (before ++ after)) ∧
    ((run (merge hash) r before).status = some .acked →
      (merge hash (run (merge hash) r before) call).status ≠ some .sending ∧
      (call.incoming.record.status ≠ none → (merge hash (run (merge hash) r before) call).status ≠ none) ∧
      ((∀ later ∈ after, ∃ status, later.incoming.record.status = some status ∧ status ≠ .failed) →
        (run (merge hash) r (before ++ after)).status = some .acked)) := by
  refine ⟨(keeps_run hash r before).sender hown, ?_, ?_⟩
  · rw [run_append]
    exact keeps_run hash (run (merge hash) r before) after
  · intro hacked
    refine ⟨merge_not_sending call.incoming hacked, ?_, ?_⟩
    · intro hgiven
      obtain ⟨status, hstatus⟩ := Option.ne_none_iff_exists'.mp hgiven
      rw [merge, merge_status hacked hstatus]
      simp
    · intro hlater
      rw [run_append]
      exact acked_run hash hacked hlater

def sentRow : MessageRecord where
  id := "m"
  from' := 170
  to' := 187
  payload := "hello"
  channelIndex := 0
  timestamp := 1000
  status := some .acked

def echo (status : MessageStatus) : Call where
  incoming := { sentRow with status := some status }.toWrite
  direction := some "outbound"

theorem sent_row_kept :
    isSelfReticulumNode sentRow.from' (ownNode "aa") = true ∧
      (run (merge "aa") sentRow [echo .sending]).status = some .acked := by
  have hown : isSelfReticulumNode sentRow.from' (ownNode "aa") = true := by decide +kernel
  obtain ⟨hsender, _, hacked⟩ := outbound_message_kept "aa" sentRow hown [] [echo .sending] (echo .sending)
  refine ⟨hsender, (hacked rfl).2.2 ?_⟩
  intro later hlater
  obtain rfl := List.mem_singleton.mp hlater
  exact ⟨.sending, rfl, by decide⟩

-- A failure reported after the delivery, and the retry.
theorem failed_row_is_sent_again :
    ¬ ∀ hash r, isSelfReticulumNode r.from' (ownNode hash) = true → ∀ before after : List Call,
      (run (merge hash) r before).status = some .acked →
        (run (merge hash) r (before ++ after)).status ≠ some .sending ∧
          (run (merge hash) r (before ++ after)).status ≠ none := by
  intro hall
  have hown : isSelfReticulumNode sentRow.from' (ownNode "aa") = true := by decide +kernel
  have hkept := hall "aa" sentRow hown [] [echo .failed, echo .sending] rfl
  have hsending : (run (merge "aa") sentRow [echo .failed, echo .sending]).status = some .sending := by decide +kernel
  exact hkept.1 hsending

end MeshClient.Reticulum.Ingest
