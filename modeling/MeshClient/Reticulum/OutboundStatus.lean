import MeshClient.Js.Text
import MeshClient.Lib.OrderedMap

namespace MeshClient.Reticulum.Outbound

open Js

def MAX_RETICULUM_DELIVERY_ATTEMPTS : Int := 64

def RETICULUM_MESSAGE_TOO_LARGE_FOR_PROPAGATION : String := "message_too_large_for_propagation"

def PENDING_DELIVERY_STATUS_TTL_MS : Nat := 60000

def PENDING_DELIVERY_STATUS_MAX : Nat := 64

inductive MessageStatus where
  | sending
  | acked
  | failed
deriving DecidableEq, Repr

inductive ReticulumDeliveryMethod where
  | direct
  | propagated
  | opportunistic
  | paper
  | storedLocally
deriving DecidableEq, Repr

structure MessageRecord where
  status : Option MessageStatus := none
  receivedVia : Option String := none
  error : Option String := none
  reticulumDeliveryMethod : Option ReticulumDeliveryMethod := none
  reticulumDeliveryAttempts : Option Int := none
deriving DecidableEq, Repr

def RETICULUM_VIA_ATOMS : List String := ["ble", "rf", "tcp", "network"]

def parseReticulumViaAtoms (js : Runtime) (value : String) : List String :=
  let parts := (value.toList.splitOn '+').map fun part => js.toLowerCase (Js.trim (String.ofList part))
  parts.filter (· ∈ RETICULUM_VIA_ATOMS)

def mergeObservedReticulumEgressVias (vias : List String) : String :=
  let parts := RETICULUM_VIA_ATOMS.filter (· ∈ vias)
  if parts = [] then "network" else "+".intercalate parts

def isReticulumViaLabel (js : Runtime) (value : String) : Bool :=
  let atoms := parseReticulumViaAtoms js value
  atoms ≠ [] && mergeObservedReticulumEgressVias atoms = value

def parseWireSentVia (js : Runtime) (sentVia : Option String) : Option String :=
  sentVia.filter (isReticulumViaLabel js)

def deliveryMethodOfLabel : String → Option ReticulumDeliveryMethod
  | "direct" => some .direct
  | "propagated" => some .propagated
  | "opportunistic" => some .opportunistic
  | "paper" => some .paper
  | "stored_locally" => some .storedLocally
  | _ => none

def parseReticulumDeliveryMethod (js : Runtime) (value : Option String) : Option ReticulumDeliveryMethod :=
  value.bind fun value => deliveryMethodOfLabel (js.toLowerCase (Js.trim value))

def isPnCascadeDeliveryMethod (m : Option ReticulumDeliveryMethod) : Bool :=
  m = some .propagated || m = some .storedLocally

def mapLxmfOutboundWireStatus : String → Option MessageStatus
  | "delivered" => some .acked
  | "stored_locally" => some .acked
  | "failed" => some .failed
  | "sending" => some .sending
  | _ => none

def normalizeReticulumMessageHash (js : Runtime) (hash : String) : String := js.toLowerCase (Js.trim hash)

def isValidReticulumOutboundMessageHash (js : Runtime) (hash : String) : Bool :=
  let normalized := (normalizeReticulumMessageHash js hash).toList
  normalized.all (fun c => isDigit c || ('a' ≤ c && c ≤ 'f')) && 8 ≤ normalized.length && normalized.length ≤ 128

def mathTrunc (value : ℚ) : Int := if 0 ≤ value then ⌊value⌋ else ⌈value⌉

def clampDeliveryAttempts (value : ℚ) : Int := min MAX_RETICULUM_DELIVERY_ATTEMPTS (max 0 (mathTrunc value))

-- What a call says once it is read.
structure Update where
  status : MessageStatus
  errorMessage : Option String
  sentVia : Option String
  deliveryMethod : Option ReticulumDeliveryMethod
  deliveryAttempts : Option Int
  failed_of_error : errorMessage.isSome = true → status = .failed
deriving DecidableEq

def errorOf (status : MessageStatus) (error : Option String) : Option String :=
  if status = .failed ∧ error = some RETICULUM_MESSAGE_TOO_LARGE_FOR_PROPAGATION then
    some RETICULUM_MESSAGE_TOO_LARGE_FOR_PROPAGATION
  else none

theorem failed_of_errorOf {status : MessageStatus} {error : Option String} (h : (errorOf status error).isSome = true) :
    status = .failed := by
  unfold errorOf at h
  split_ifs at h with hfailed
  · exact hfailed.1
  · simp at h

-- `none` for an unknown wire status, which is dropped.
def readUpdate (js : Runtime) (wireStatus : String) (sentVia deliveryMethod : Option String) (deliveryAttempts : Option Int)
    (error : Option String) : Option Update :=
  (mapLxmfOutboundWireStatus wireStatus).map fun status =>
    { status
      errorMessage := errorOf status error
      sentVia := parseWireSentVia js sentVia
      deliveryMethod := parseReticulumDeliveryMethod js deliveryMethod
      deliveryAttempts
      failed_of_error := failed_of_errorOf }

def isTerminalStatus (status : MessageStatus) : Bool := status = .acked || status = .failed

-- `updateMessageStatus` of the message store.
def updateMessageStatus (existing : MessageRecord) (status : MessageStatus) (error : Option String) : MessageRecord :=
  if existing.status = some .acked ∧ status = .sending then existing
  else { existing with
    status := some status
    error := if error.isSome then error else if status = .acked then none else existing.error }

-- The row that `persistReticulumOutboundMessageStatus` leaves.
def patchRecord (before : MessageRecord) (u : Update) : MessageRecord :=
  if before.status = some .failed ∧ u.status = .sending ∧ isPnCascadeDeliveryMethod u.deliveryMethod = true then
    { before with
      status := some .sending
      error := none
      reticulumDeliveryMethod := u.deliveryMethod
      receivedVia := u.sentVia.or before.receivedVia
      reticulumDeliveryAttempts := u.deliveryAttempts.or before.reticulumDeliveryAttempts }
  else if isTerminalStatus (before.status.getD .sending) = true ∧ u.status = .sending then
    { before with
      receivedVia := u.sentVia.or before.receivedVia
      reticulumDeliveryMethod := u.deliveryMethod.or before.reticulumDeliveryMethod }
  else
    let record := updateMessageStatus before u.status u.errorMessage
    { record with
      receivedVia := u.sentVia.or record.receivedVia
      reticulumDeliveryMethod := u.deliveryMethod.or record.reticulumDeliveryMethod
      reticulumDeliveryAttempts := u.deliveryAttempts.or record.reticulumDeliveryAttempts }

structure Pending where
  wireStatus : String
  sentVia : Option String
  deliveryMethod : Option String
  deliveryAttempts : Option Int
  error : Option String
  receivedAt : Nat

-- Message rows by identity and id, and the buffer.
structure Store where
  messages : OrderedMap (String × String) MessageRecord := ∅
  pendingDeliveryByKey : OrderedMap String Pending := ∅

def pendingDeliveryKey (identityId messageHash : String) : String := identityId ++ ":" ++ messageHash

-- `deliveryAttempts` is `some none` when the number is not finite; `now` is the time of the call.
structure Call where
  messageHash : String
  wireStatus : String
  sentVia : Option String := none
  deliveryMethod : Option String := none
  deliveryAttempts : Option (Option ℚ) := none
  error : Option String := none
  now : Nat := 0

def Call.attempts (c : Call) : Option Int := c.deliveryAttempts.bind fun value => value.map clampDeliveryAttempts

def Call.update? (js : Runtime) (c : Call) : Option Update :=
  readUpdate js c.wireStatus c.sentVia c.deliveryMethod c.attempts c.error

def Pending.update? (js : Runtime) (p : Pending) : Option Update :=
  readUpdate js p.wireStatus p.sentVia p.deliveryMethod p.deliveryAttempts p.error

def Update.isTerminal (u : Update) : Bool := isTerminalStatus u.status

def Update.isBuffered (u : Update) : Bool :=
  u.isTerminal || u.sentVia.isSome || u.deliveryMethod.isSome || u.deliveryAttempts.isSome

namespace Store

def row? (s : Store) (identityId messageId : String) : Option MessageRecord := s.messages.get? (identityId, messageId)

def prunePendingDeliveryStatuses (s : Store) (now : Nat) : Store :=
  let kept := s.pendingDeliveryByKey.filter fun _ entry => ¬ (now - entry.receivedAt > PENDING_DELIVERY_STATUS_TTL_MS)
  { s with pendingDeliveryByKey := kept.drop (kept.size - PENDING_DELIVERY_STATUS_MAX) }

def bufferPendingDeliveryStatus (s : Store) (identityId messageHash : String) (entry : Pending) : Store :=
  let s := s.prunePendingDeliveryStatuses entry.receivedAt
  { s with pendingDeliveryByKey := s.pendingDeliveryByKey.set (pendingDeliveryKey identityId messageHash) entry }

-- Also whether the row exists.
def persistReticulumOutboundMessageStatus (s : Store) (identityId messageId : String) (u : Update) : Store × Bool :=
  match s.row? identityId messageId with
  | none => (s, false)
  | some before => ({ s with messages := s.messages.set (identityId, messageId) (patchRecord before u) }, true)

def erasePending (s : Store) (identityId messageHash : String) : Store :=
  { s with pendingDeliveryByKey := s.pendingDeliveryByKey.erase (pendingDeliveryKey identityId messageHash) }

def flushPendingReticulumOutboundDeliveryStatus (js : Runtime) (s : Store) (identityId messageHash : String) : Store × Bool :=
  match s.pendingDeliveryByKey.get? (pendingDeliveryKey identityId messageHash) with
  | none => (s, false)
  | some pending =>
      match pending.update? js with
      | none => (s.erasePending identityId messageHash, false)
      | some u =>
          let (s, applied) := s.persistReticulumOutboundMessageStatus identityId messageHash u
          (if applied then s.erasePending identityId messageHash else s, applied)

def applyReticulumOutboundDeliveryStatus (js : Runtime) (identityId : String) (s : Store) (c : Call) : Store :=
  let normalizedHash := normalizeReticulumMessageHash js c.messageHash
  if isValidReticulumOutboundMessageHash js normalizedHash then
    match c.update? js with
    | none => s
    | some u =>
        let (s, applied) := s.persistReticulumOutboundMessageStatus identityId normalizedHash u
        if applied then s.erasePending identityId normalizedHash
        else if u.isBuffered then
          s.bufferPendingDeliveryStatus identityId normalizedHash
            ⟨c.wireStatus, c.sentVia, c.deliveryMethod, c.attempts, c.error, c.now⟩
        else s
  else s

-- The row comes to exist under the hash.
def insertRow (s : Store) (identityId messageHash : String) (row : MessageRecord) : Store :=
  { s with messages := s.messages.set (identityId, messageHash) row }

end Store

variable {row : MessageRecord} {u : Update} {us vs : List Update}

def Update.isCascade (u : Update) : Bool := u.status = .sending && isPnCascadeDeliveryMethod u.deliveryMethod

-- Updates of one row, the newest first.
def replay (row : MessageRecord) (us : List Update) : MessageRecord := us.foldr (fun u row => patchRecord row u) row

-- The status of a row that was `sending` before.
def settledStatus : List Update → MessageStatus
  | [] => .sending
  | u :: before =>
      if u.isTerminal then u.status
      else if settledStatus before = .failed ∧ u.isCascade = true then .sending
      else settledStatus before

def endsFailed (us : List Update) : Bool := (us.find? Update.isTerminal).any fun u => u.status = .failed

-- What the last update that settles the error settles it to: a delivery and a revival clear it, a
-- failure may name one.
def settledError : List Update → Option (Option String)
  | [] => none
  | u :: before =>
      if u.status = .acked then some none
      else if u.errorMessage.isSome then some u.errorMessage
      else if u.isCascade && endsFailed before then some none
      else settledError before

theorem settledError_cons : settledError (u :: us) =
    if u.status = .acked then some none
    else if u.errorMessage.isSome then some u.errorMessage
    else if u.isCascade && endsFailed us then some none
    else settledError us := rfl

theorem isTerminal_iff : u.isTerminal = true ↔ u.status ≠ .sending := by
  unfold Update.isTerminal isTerminalStatus
  cases u.status <;> simp

theorem patchRecord_receivedVia : (patchRecord row u).receivedVia = u.sentVia.or row.receivedVia := by
  unfold patchRecord updateMessageStatus
  split_ifs <;> rfl

theorem patchRecord_deliveryMethod :
    (patchRecord row u).reticulumDeliveryMethod = u.deliveryMethod.or row.reticulumDeliveryMethod := by
  unfold patchRecord updateMessageStatus
  split_ifs with hrevived
  · obtain ⟨-, -, hcascade⟩ := hrevived
    show u.deliveryMethod = _
    cases hmethod : u.deliveryMethod with
    | none => simp [hmethod, isPnCascadeDeliveryMethod] at hcascade
    | some method => rfl
  all_goals rfl

theorem isCascade_iff : u.isCascade = true ↔ u.status = .sending ∧ isPnCascadeDeliveryMethod u.deliveryMethod = true := by
  simp [Update.isCascade]

-- A row that is not acked takes the status of an update that does not revive it.
theorem patchRecord_of_open (hopen : row.status ≠ some .acked ∧ row.status ≠ some .failed ∨ u.status ≠ .sending) :
    patchRecord row u = { updateMessageStatus row u.status u.errorMessage with
      receivedVia := u.sentVia.or (updateMessageStatus row u.status u.errorMessage).receivedVia
      reticulumDeliveryMethod := u.deliveryMethod.or (updateMessageStatus row u.status u.errorMessage).reticulumDeliveryMethod
      reticulumDeliveryAttempts :=
        u.deliveryAttempts.or (updateMessageStatus row u.status u.errorMessage).reticulumDeliveryAttempts } := by
  unfold patchRecord
  rw [if_neg, if_neg]
  · rintro ⟨hterminal, hu⟩
    rcases hopen with ⟨hacked, hfailed⟩ | hopen
    · cases hstatus : row.status with
      | none => simp [hstatus, isTerminalStatus] at hterminal
      | some status => cases status <;> simp_all [isTerminalStatus]
    · exact hopen hu
  · rintro ⟨hfailed, hu, -⟩
    rcases hopen with hopen | hopen
    · exact hopen.2 hfailed
    · exact hopen hu

theorem updateMessageStatus_of_ne {status : MessageStatus} {error : Option String} (h : row.status ≠ some .acked ∨ status ≠ .sending) :
    updateMessageStatus row status error = { row with
      status := some status
      error := if error.isSome then error else if status = .acked then none else row.error } := by
  unfold updateMessageStatus
  rw [if_neg]
  rintro ⟨hacked, hsending⟩
  rcases h with hne | hne
  · exact hne hacked
  · exact hne hsending

theorem patchRecord_revived (hfailed : row.status = some .failed) (hcascade : u.isCascade = true) :
    (patchRecord row u).status = some .sending ∧ (patchRecord row u).error = none := by
  unfold patchRecord
  rw [if_pos ⟨hfailed, isCascade_iff.mp hcascade⟩]
  exact ⟨rfl, rfl⟩

theorem patchRecord_kept {status : MessageStatus} (h : row.status = some status) (hterminal : isTerminalStatus status = true)
    (hu : u.status = .sending) (hrevived : ¬ (status = .failed ∧ u.isCascade = true)) :
    (patchRecord row u).status = row.status ∧ (patchRecord row u).error = row.error := by
  unfold patchRecord
  rw [if_neg, if_pos ⟨by rw [h]; exact hterminal, hu⟩]
  · exact ⟨rfl, rfl⟩
  · rintro ⟨hfailed, hcascade⟩
    exact hrevived ⟨Option.some.inj (h.symm.trans hfailed), isCascade_iff.mpr hcascade⟩

theorem errorMessage_eq_none (h : u.status ≠ .failed) : u.errorMessage = none := by
  cases hmessage : u.errorMessage with
  | none => rfl
  | some message => exact absurd (u.failed_of_error (by simp [hmessage])) h

theorem patchRecord_spec {status : MessageStatus} (h : row.status = some status) :
    (patchRecord row u).status = some (if u.isTerminal then u.status
        else if status = .failed ∧ u.isCascade = true then .sending else status) ∧
      (patchRecord row u).error = if u.status = .acked then none
        else if u.errorMessage.isSome then u.errorMessage
        else if status = .failed ∧ u.isCascade = true then none else row.error := by
  by_cases hu : u.status = .sending
  · have hterminal : ¬ u.isTerminal = true := fun hcon => isTerminal_iff.mp hcon hu
    have hmessage := errorMessage_eq_none (u := u) (by simp [hu])
    have hacked : ¬ u.status = .acked := by simp [hu]
    have hsilent : ¬ u.errorMessage.isSome = true := by simp [hmessage]
    rw [if_neg hterminal, if_neg hacked, if_neg hsilent]
    by_cases hrevived : status = .failed ∧ u.isCascade = true
    · rw [if_pos hrevived, if_pos hrevived]
      exact patchRecord_revived (by rw [h, hrevived.1]) hrevived.2
    · rw [if_neg hrevived, if_neg hrevived]
      by_cases hkept : isTerminalStatus status = true
      · rw [← h]
        exact patchRecord_kept h hkept hu hrevived
      · have hsending : status = .sending := by
          cases status <;> simp_all [isTerminalStatus]
        rw [patchRecord_of_open (.inl (by simp [h, hsending])), updateMessageStatus_of_ne (.inl (by simp [h, hsending])), hu, hmessage]
        exact ⟨by rw [hsending], rfl⟩
  · have hterminal := isTerminal_iff.mpr hu
    have hcascade : ¬ (status = .failed ∧ u.isCascade = true) := fun hcon => hu (isCascade_iff.mp hcon.2).1
    rw [patchRecord_of_open (.inr hu), updateMessageStatus_of_ne (.inr hu), if_pos hterminal, if_neg hcascade]
    refine ⟨rfl, ?_⟩
    by_cases hacked : u.status = .acked
    · have hmessage := errorMessage_eq_none (u := u) (by simp [hacked])
      simp [hacked, hmessage]
    · simp [hacked]

theorem replay_receivedVia : (replay row us).receivedVia = (us.findSome? Update.sentVia).or row.receivedVia := by
  induction us with
  | nil => rfl
  | cons u us ih =>
      show (patchRecord (replay row us) u).receivedVia = _
      rw [patchRecord_receivedVia, ih, List.findSome?_cons]
      cases u.sentVia <;> rfl

theorem replay_deliveryMethod :
    (replay row us).reticulumDeliveryMethod = (us.findSome? Update.deliveryMethod).or row.reticulumDeliveryMethod := by
  induction us with
  | nil => rfl
  | cons u us ih =>
      show (patchRecord (replay row us) u).reticulumDeliveryMethod = _
      rw [patchRecord_deliveryMethod, ih, List.findSome?_cons]
      cases u.deliveryMethod <;> rfl

theorem replay_status (h : row.status = some .sending) : (replay row us).status = some (settledStatus us) := by
  induction us with
  | nil => exact h
  | cons u us ih => exact (patchRecord_spec ih).1

-- A failure that was revived has settled the error.
theorem settledError_of_revived (hfailed : endsFailed us = true) (hrevived : settledStatus us ≠ .failed) :
    settledError us = some none := by
  induction us with
  | nil => simp [endsFailed] at hfailed
  | cons u us ih =>
      unfold settledStatus at hrevived
      rw [settledError_cons]
      by_cases hterminal : u.isTerminal = true
      · rw [if_pos hterminal] at hrevived
        simp [endsFailed, hterminal] at hfailed
        exact absurd hfailed hrevived
      · have hold : endsFailed us = true := by
          simpa [endsFailed, hterminal] using hfailed
        have hu : u.status = .sending := by
          by_contra hcon
          exact hterminal (isTerminal_iff.mpr hcon)
        have hnone : ¬ u.errorMessage.isSome = true := fun hcon => by simp [u.failed_of_error hcon] at hu
        rw [if_neg hterminal] at hrevived
        rw [if_neg (by simp [hu]), if_neg hnone, hold]
        by_cases hcascade : u.isCascade = true
        · rw [hcascade]
          rfl
        · rw [if_neg (fun hcon => hcascade hcon.2)] at hrevived
          rw [if_neg (by simp [hcascade])]
          exact ih hold hrevived

theorem endsFailed_of_settledStatus (h : settledStatus us = .failed) : endsFailed us = true := by
  induction us with
  | nil => cases h
  | cons u us ih =>
      unfold settledStatus at h
      by_cases hterminal : u.isTerminal = true
      · rw [if_pos hterminal] at h
        simp [endsFailed, hterminal, h]
      · rw [if_neg hterminal] at h
        have hold : settledStatus us = .failed := by
          split_ifs at h
          exact h
        simpa [endsFailed, hterminal] using ih hold

theorem replay_error (h : row.status = some .sending) : (replay row us).error = (settledError us).getD row.error := by
  induction us with
  | nil => rfl
  | cons u us ih =>
      show (patchRecord (replay row us) u).error = _
      rw [(patchRecord_spec (replay_status h)).2, ih]
      rw [settledError_cons]
      by_cases hacked : u.status = .acked
      · simp [hacked]
      by_cases herror : u.errorMessage.isSome = true
      · rw [if_neg hacked, if_neg hacked, if_pos herror, if_pos herror]
        rfl
      rw [if_neg hacked, if_neg hacked, if_neg herror, if_neg herror]
      by_cases hcascade : u.isCascade = true
      · by_cases hfailed : settledStatus us = .failed
        · simp [hcascade, hfailed, endsFailed_of_settledStatus hfailed]
        · rw [if_neg (fun hcon => hfailed hcon.1), hcascade, Bool.true_and]
          split_ifs with hends
          · rw [settledError_of_revived hends hfailed]
          · rfl
      · simp [hcascade]

end MeshClient.Reticulum.Outbound
