import MeshClient.Lib.OrderedMap
import MeshClient.Lib.Run
import MeshClient.Js.Text

namespace MeshClient.Meshtastic

open Run

inductive KeyVerificationPhase where
  | initiating
  | showNumber
  | enterNumber
  | awaitingFinal
  | compare
  | done
  | rejected
  | error
deriving DecidableEq

inductive KeyVerificationErrorCode where
  | sendFailed
  | invalidNumber
  | missingNode
deriving DecidableEq

-- The nonce is 0 until the radio reports one.
structure KeyVerificationSession where
  identityId : String
  phase : KeyVerificationPhase
  nonce : Int
  remoteNodeNum : Option Int
  remoteLongname : String
  securityNumber : Option Int := none
  verificationCharacters : Option String := none
  isSender : Option Bool := none
  errorCode : Option KeyVerificationErrorCode := none
deriving DecidableEq

def MAX_NONCE_ENTRIES : Nat := 16
def KEY_VERIFICATION_SECURITY_NUMBER_MAX : Nat := 999999

-- What the key verification reads and writes of a node in the node store.
structure NodeRecord where
  nodeId : Int
  longName : Option String
  keyManuallyVerified : Bool
deriving DecidableEq

inductive KeyVerificationAdminType where
  | initiate
  | provideSecurityNumber
  | doVerify
  | doNotVerify
deriving DecidableEq

structure KeyVerificationAdminRequest where
  type : KeyVerificationAdminType
  remoteNodeNum : Int
  nonce : Option Int := none
  securityNumber : Option Nat := none
deriving DecidableEq

-- The session an admin message is sent for.
structure SessionKey where
  identityId : String
  remoteNodeNum : Option Int
  nonce : Int
deriving DecidableEq

def KeyVerificationSession.key (session : KeyVerificationSession) : SessionKey :=
  ⟨session.identityId, session.remoteNodeNum, session.nonce⟩

-- What runs when the send has settled.
inductive AfterSend where
  | initiated
  | numberProvided
  | confirmed (matched : Bool)
  | cancelled
deriving DecidableEq

structure PendingSend where
  owner : SessionKey
  after : AfterSend
deriving DecidableEq

structure Verifier where
  session : Option KeyVerificationSession
  nonceToNode : OrderedMap Int Int
  nodes : String → OrderedMap Int NodeRecord
  pending : List PendingSend

inductive Effect where
  | sent (request : KeyVerificationAdminRequest)
  | patchNodeKeyManuallyVerified (identityId : String) (nodeId : Int)
deriving DecidableEq

def hasRealRemoteNode (remoteNodeNum : Option Int) : Bool := remoteNodeNum.any fun n => decide (n > 0)

def Verifier.patchSession (s : Verifier) (patch : KeyVerificationSession → KeyVerificationSession) :
    Verifier :=
  { s with session := s.session.map patch }

def resolveNodeByLongname (s : Verifier) (identityId longname : String) : Option Int :=
  let wanted := Js.trim longname
  if wanted = "" then none
  else
    match (s.nodes identityId).values.filter fun record => record.longName.map Js.trim = some wanted with
    | [record] => some record.nodeId
    | _ => none

-- Forgets the oldest nonces over the limit; the new one is the last.
def rememberNonce (nonceToNode : OrderedMap Int Int) (nonce from' : Int) : OrderedMap Int Int :=
  let remembered := (nonceToNode.erase nonce).set nonce from'
  remembered.drop (remembered.size - MAX_NONCE_ENTRIES)

def recordKeyVerificationPacket (s : Verifier) (identityId : String) (from' nonce : Int) : Verifier :=
  if nonce = 0 ∨ from' ≤ 0 then s
  else
    { s with
      nonceToNode := rememberNonce s.nonceToNode nonce from'
      session := s.session.map fun session =>
        if session.identityId = identityId ∧ session.remoteNodeNum = none ∧ session.nonce = nonce then
          { session with remoteNodeNum := some from' }
        else session }

inductive NotificationCase where
  | keyVerificationNumberInform
  | keyVerificationNumberRequest
  | keyVerificationFinal
  | other
deriving DecidableEq

structure NotificationValue where
  nonce : Option Int := none
  remoteLongname : Option String := none
  securityNumber : Option Int := none
  isSender : Option Bool := none
  verificationCharacters : Option String := none
deriving DecidableEq

-- `none` where the notification, its variant or the variant's value is missing.
abbrev KeyVerificationClientNotification := Option (NotificationCase × NotificationValue)

-- The handshake in flight that a notification of this identity and nonce continues.
def reusableSession (s : Verifier) (identityId : String) (nonce : Int) : Option KeyVerificationSession :=
  s.session.filter fun current =>
    decide (current.identityId = identityId) &&
      decide (current.phase ∉ [KeyVerificationPhase.done, .rejected, .error]) &&
      decide (current.nonce = 0 ∨ current.nonce = nonce)

def notificationNode (s : Verifier) (identityId : String) (nonce : Int) (longname : String) : Option Int :=
  ((reusableSession s identityId nonce).bind KeyVerificationSession.remoteNodeNum).or
    ((s.nonceToNode.get? nonce).or (resolveNodeByLongname s identityId longname))

def nextSession (s : Verifier) (identityId : String) (case : NotificationCase)
    (value : NotificationValue) : Option KeyVerificationSession :=
  let nonce := value.nonce.getD 0
  let remoteLongname := value.remoteLongname.getD ""
  let reusable := reusableSession s identityId nonce
  let base : KeyVerificationSession :=
    { identityId
      phase := .initiating
      nonce
      remoteNodeNum := notificationNode s identityId nonce remoteLongname
      remoteLongname :=
        if remoteLongname ≠ "" then remoteLongname
        else (reusable.map KeyVerificationSession.remoteLongname).getD ""
      isSender := reusable.bind KeyVerificationSession.isSender }
  match case with
  | .keyVerificationNumberInform =>
      some { base with
        phase := .showNumber, isSender := some false, securityNumber := some (value.securityNumber.getD 0) }
  | .keyVerificationNumberRequest => some { base with phase := .enterNumber, isSender := some true }
  | .keyVerificationFinal =>
      some { base with
        phase := .compare
        isSender := some (value.isSender == some true)
        verificationCharacters := some (value.verificationCharacters.getD "") }
  | .other => none

def applyKeyVerificationClientNotification (s : Verifier) (identityId : String)
    (notification : KeyVerificationClientNotification) : Bool × Verifier :=
  match notification.bind fun n => nextSession s identityId n.1 n.2 with
  | some next => (true, { s with session := some next })
  | none => (false, s)

-- The admin message leaves at once; `settled` is its answer.
def Verifier.send (s : Verifier) (request : KeyVerificationAdminRequest) (owner : SessionKey)
    (after : AfterSend) : Verifier × List Effect :=
  ({ s with pending := s.pending ++ [⟨owner, after⟩] }, [.sent request])

def initiateKeyVerification (s : Verifier) (identityId : String) (remoteNodeNum : Int)
    (remoteLongname : String) : Verifier × List Effect :=
  let session : KeyVerificationSession :=
    { identityId, phase := .initiating, nonce := 0, remoteNodeNum := some remoteNodeNum, remoteLongname,
      isSender := some true }
  { s with session := some session }.send { type := .initiate, remoteNodeNum } session.key .initiated

-- One to six digits, blanks anywhere, and not zero.
def parseKeyVerificationSecurityNumber (input : String) : Option Nat :=
  let digits := input.toList.filter fun c => !Js.isSpace c
  if digits.all Js.isDigit ∧ 1 ≤ digits.length ∧ digits.length ≤ 6 then
    let value := Js.digitsValue digits
    if 1 ≤ value ∧ value ≤ KEY_VERIFICATION_SECURITY_NUMBER_MAX then some value else none
  else none

def submitKeyVerificationSecurityNumber (s : Verifier) (input : String) : Verifier × List Effect :=
  match s.session with
  | none => (s, [])
  | some session =>
      if session.phase ≠ .enterNumber then (s, [])
      else
        match parseKeyVerificationSecurityNumber input with
        | none => (s.patchSession fun σ => { σ with errorCode := some .invalidNumber }, [])
        | some securityNumber =>
            match session.remoteNodeNum.filter fun n => decide (n > 0) with
            | none => (s.patchSession fun σ => { σ with errorCode := some .missingNode }, [])
            | some remoteNodeNum =>
                (s.patchSession fun σ => { σ with phase := .awaitingFinal, errorCode := none }).send
                  { type := .provideSecurityNumber, remoteNodeNum, nonce := some session.nonce,
                    securityNumber := some securityNumber }
                  session.key .numberProvided

-- The node the operator's answer is sent about, looked up once more when it is not known yet.
def confirmedNode (s : Verifier) (session : KeyVerificationSession) : Option Int :=
  if hasRealRemoteNode session.remoteNodeNum then session.remoteNodeNum
  else (resolveNodeByLongname s session.identityId session.remoteLongname).filter fun n => decide (n > 0)

def confirmKeyVerification (s : Verifier) (matched : Bool) : Verifier × List Effect :=
  match s.session with
  | none => (s, [])
  | some session =>
      if session.phase ≠ .compare then (s, [])
      else
        match confirmedNode s session with
        | none =>
            (s.patchSession fun σ => { σ with phase := .compare, errorCode := some .missingNode }, [])
        | some remoteNodeNum =>
            let named := if hasRealRemoteNode session.remoteNodeNum then s
              else s.patchSession fun σ => { σ with remoteNodeNum := some remoteNodeNum, errorCode := none }
            named.send
              { type := if matched then .doVerify else .doNotVerify, remoteNodeNum,
                nonce := some session.nonce }
              ⟨session.identityId, some remoteNodeNum, session.nonce⟩ (.confirmed matched)

def cancelKeyVerification (s : Verifier) : Verifier × List Effect :=
  let closed := { s with session := none }
  match s.session with
  | none => (closed, [])
  | some session =>
      if session.phase ∈ [KeyVerificationPhase.done, .rejected, .error] then (closed, [])
      else
        match session.remoteNodeNum.filter fun n => decide (n > 0) with
        | none => (closed, [])
        | some remoteNodeNum =>
            closed.send { type := .doNotVerify, remoteNodeNum, nonce := some session.nonce }
              session.key .cancelled

def dismissKeyVerification (s : Verifier) : Verifier := { s with session := none }

def getIdentityNode (s : Verifier) (identityId : String) (nodeId : Int) : Option NodeRecord :=
  if identityId = "" ∨ nodeId = 0 then none else (s.nodes identityId).get? nodeId

def patchNodeKeyManuallyVerified (s : Verifier) (identityId : String) (nodeId : Int) : Verifier :=
  match (s.nodes identityId).get? nodeId with
  | none => s
  | some existing =>
      { s with
        nodes := Function.update s.nodes identityId
          ((s.nodes identityId).set nodeId { existing with keyManuallyVerified := true }) }

def Verifier.sendFailed (s : Verifier) : Verifier :=
  s.patchSession fun σ => { σ with phase := .error, errorCode := some .sendFailed }

def Verifier.setPhase (s : Verifier) (phase : KeyVerificationPhase) : Verifier :=
  s.patchSession fun σ => { σ with phase }

def afterSend (s : Verifier) (send : PendingSend) (ok : Bool) : Verifier × List Effect :=
  match send.after, ok with
  | .cancelled, _ => (s, [])
  | _, false => (s.sendFailed, [])
  | .initiated, true => (s, [])
  | .numberProvided, true => (s, [])
  | .confirmed false, true => (s.setPhase .rejected, [])
  | .confirmed true, true =>
      match send.owner.remoteNodeNum with
      | none => (s, [])
      | some nodeId =>
          if (getIdentityNode s send.owner.identityId nodeId).isSome then
            ((patchNodeKeyManuallyVerified s send.owner.identityId nodeId).setPhase .done,
              [.patchNodeKeyManuallyVerified send.owner.identityId nodeId])
          else (s.setPhase .done, [])

inductive VerificationEvent where
  | packet (identityId : String) (from' nonce : Int)
  | notification (identityId : String) (notification : KeyVerificationClientNotification)
  | initiate (identityId : String) (remoteNodeNum : Int) (remoteLongname : String)
  | submit (input : String)
  | confirm (matched : Bool)
  | cancel
  | dismiss
  -- The answer to the `i`-th of the sends that are still under way.
  | settled (i : Nat) (ok : Bool)
  | nodesChanged (nodes : String → OrderedMap Int NodeRecord)

def Verifier.react (s : Verifier) : VerificationEvent → Verifier × List Effect
  | .packet identityId from' nonce => (recordKeyVerificationPacket s identityId from' nonce, [])
  | .notification identityId n => ((applyKeyVerificationClientNotification s identityId n).2, [])
  | .initiate identityId remoteNodeNum remoteLongname =>
      initiateKeyVerification s identityId remoteNodeNum remoteLongname
  | .submit input => submitKeyVerificationSecurityNumber s input
  | .confirm matched => confirmKeyVerification s matched
  | .cancel => cancelKeyVerification s
  | .dismiss => (dismissKeyVerification s, [])
  | .settled i ok =>
      match s.pending[i]? with
      | none => (s, [])
      | some send => afterSend { s with pending := s.pending.eraseIdx i } send ok
  | .nodesChanged nodes => ({ s with nodes }, [])

structure RecordedPacket where
  nonce : Int
  from' : Int
deriving DecidableEq

structure NonceOf where
  identityId : String
  nonce : Int
deriving DecidableEq

-- The store with what has happened so far: the packets it recorded, the nonces of the final
-- notifications, and those of the compared sessions the operator confirmed.
structure Verification where
  store : Verifier
  packets : List RecordedPacket
  finals : List NonceOf
  confirmed : List NonceOf

def Verification.start (nodes : String → OrderedMap Int NodeRecord) : Verification :=
  ⟨⟨none, ∅, nodes, []⟩, [], [], []⟩

def packetsOf : VerificationEvent → List RecordedPacket
  | .packet _ from' nonce => if nonce = 0 ∨ from' ≤ 0 then [] else [⟨nonce, from'⟩]
  | _ => []

def finalsOf : VerificationEvent → List NonceOf
  | .notification identityId (some (.keyVerificationFinal, value)) => [⟨identityId, value.nonce.getD 0⟩]
  | _ => []

def confirmationsOf (s : Verifier) : VerificationEvent → List NonceOf
  | .confirm true =>
      (s.session.filter fun σ => decide (σ.phase = .compare)).toList.map fun σ =>
        ⟨σ.identityId, σ.nonce⟩
  | _ => []

def Verification.step (v : Verification) (event : VerificationEvent) : Verification where
  store := (v.store.react event).1
  packets := v.packets ++ packetsOf event
  finals := v.finals ++ finalsOf event
  confirmed := v.confirmed ++ confirmationsOf v.store event

def Verification.effects (v : Verification) (event : VerificationEvent) : List Effect :=
  (v.store.react event).2

def OnlyFrom (packets : List RecordedPacket) (nonce nodeId : Int) : Prop :=
  ∀ p ∈ packets, p.nonce = nonce → p.from' = nodeId

instance (packets : List RecordedPacket) (nonce nodeId : Int) :
    Decidable (OnlyFrom packets nonce nodeId) :=
  inferInstanceAs (Decidable (∀ p ∈ packets, p.nonce = nonce → p.from' = nodeId))

-- The handshake with this nonce is the one the operator compared, and it is with the node.
structure Verification.Compared (v : Verification) (identityId : String) (nodeId nonce : Int) : Prop where
  confirmed : ⟨identityId, nonce⟩ ∈ v.confirmed
  final : ⟨identityId, nonce⟩ ∈ v.finals
  packets : OnlyFrom v.packets nonce nodeId

-- What the effect of a step asks of the state the step ends in.
def Verification.Justified (v : Verification) : Effect → Prop
  | .sent request => request.type = .doVerify →
      ∃ identityId nonce, request.nonce = some nonce ∧ v.Compared identityId request.remoteNodeNum nonce
  | .patchNodeKeyManuallyVerified identityId nodeId => ∃ nonce, v.Compared identityId nodeId nonce

def outcome (session : KeyVerificationSession) : KeyVerificationPhase × Option KeyVerificationErrorCode :=
  (session.phase, session.errorCode)

-- The answer to a send changes the phase and error of the session it was made for, and of no other.
def Verification.AnswersOwn (v : Verification) : VerificationEvent → Prop
  | .settled i ok => ∀ send session, v.store.pending[i]? = some send → v.store.session = some session →
      session.key ≠ send.owner → (v.step (.settled i ok)).store.session.map outcome = some (outcome session)
  | _ => True

def Verification.StaysApart (v : Verification) (event : VerificationEvent) : Prop :=
  (∀ effect ∈ v.effects event, (v.step event).Justified effect) ∧ v.AnswersOwn event

-- The nodes a nonce is tied to: by its packets, by the session in flight, by a confirmation
-- whose message is still under way.
def Verification.tiedNodes (v : Verification) (nonce : Int) : List Int :=
  (v.packets.filter fun p => decide (p.nonce = nonce)).map RecordedPacket.from' ++
    (v.store.session.filter fun σ => decide (σ.nonce = nonce)).toList.filterMap (fun σ =>
      σ.remoteNodeNum.filter fun n => decide (n > 0)) ++
    (v.store.pending.filter fun send =>
      decide (send.owner.nonce = nonce) && decide (send.after = .confirmed true)).filterMap
        fun send => send.owner.remoteNodeNum

-- The node a notification finds without a packet: the one the session in flight is pinned to,
-- or else the one with the long name.
def assumedNode (s : Verifier) (identityId : String) (nonce : Int) (longname : String) : Option Int :=
  ((reusableSession s identityId nonce).bind KeyVerificationSession.remoteNodeNum).or
    (if (s.nonceToNode.get? nonce).isSome then none else resolveNodeByLongname s identityId longname)

-- The step does not mix two handshakes.
def Verification.Unmixed (v : Verification) : VerificationEvent → Prop
  | .packet _ from' nonce => nonce = 0 ∨ from' ≤ 0 ∨ ∀ n ∈ v.tiedNodes nonce, n = from'
  | .notification identityId (some (case, value)) => case = .other ∨
      ∀ n ∈ assumedNode v.store identityId (value.nonce.getD 0) (value.remoteLongname.getD ""),
        n > 0 → OnlyFrom v.packets (value.nonce.getD 0) n
  | .confirm _ => ∀ session ∈ v.store.session, session.phase = .compare →
      ¬hasRealRemoteNode session.remoteNodeNum →
        ∀ n ∈ resolveNodeByLongname v.store session.identityId session.remoteLongname,
          n > 0 → OnlyFrom v.packets session.nonce n
  | .settled i ok => ∀ send ∈ v.store.pending[i]?, ∀ session ∈ v.store.session,
      send.after = .cancelled ∨ (ok = true ∧ send.after ∈ [AfterSend.initiated, .numberProvided]) ∨
        session.key = send.owner
  | _ => True

-- No handshake is mixed with another one.
structure Verification.Apart (v : Verification) : Prop where
  remembered : ∀ nonce n, v.store.nonceToNode.get? nonce = some n → OnlyFrom v.packets nonce n
  session : ∀ σ ∈ v.store.session, ∀ n ∈ σ.remoteNodeNum, n > 0 → OnlyFrom v.packets σ.nonce n
  compared : ∀ σ ∈ v.store.session, σ.phase = .compare → ⟨σ.identityId, σ.nonce⟩ ∈ v.finals
  pending : ∀ send ∈ v.store.pending, send.after = .confirmed true →
    ∃ n ∈ send.owner.remoteNodeNum, v.Compared send.owner.identityId n send.owner.nonce
  nonces : ∀ p ∈ v.packets, p.nonce ≠ 0

variable {v : Verification}

theorem OnlyFrom.append {packets : List RecordedPacket} {nonce n x m : Int}
    (h : OnlyFrom packets nonce n) (hnew : nonce = x → n = m) :
    OnlyFrom (packets ++ [⟨x, m⟩]) nonce n := by
  intro p hp hnonce
  rcases List.mem_append.mp hp with hp | hp
  · exact h p hp hnonce
  · rw [List.mem_singleton.mp hp] at hnonce ⊢
    exact (hnew hnonce.symm).symm

theorem get?_rememberNonce {nonceToNode : OrderedMap Int Int} {nonce from' x n : Int}
    (h : (rememberNonce nonceToNode nonce from').get? x = some n) :
    x = nonce ∧ n = from' ∨ x ≠ nonce ∧ nonceToNode.get? x = some n := by
  unfold rememberNonce at h
  have hall := OrderedMap.get?_of_drop h
  rw [OrderedMap.get?_set, OrderedMap.get?_erase] at hall
  split_ifs at hall with hx
  · exact .inl ⟨hx, (Option.some.inj hall).symm⟩
  · exact .inr ⟨hx, hall⟩

theorem tiedNodes_packet {p : RecordedPacket} (h : p ∈ v.packets) : p.from' ∈ v.tiedNodes p.nonce :=
  List.mem_append_left _ (List.mem_append_left _
    (List.mem_map.mpr ⟨p, List.mem_filter.mpr ⟨h, decide_eq_true rfl⟩, rfl⟩))

theorem tiedNodes_session {σ : KeyVerificationSession} {n : Int} (h : v.store.session = some σ)
    (hnode : σ.remoteNodeNum = some n) (hreal : n > 0) : n ∈ v.tiedNodes σ.nonce := by
  refine List.mem_append_left _ (List.mem_append_right _ (List.mem_filterMap.mpr ⟨σ, ?_, ?_⟩))
  · simp [h]
  · simp [hnode, hreal]

theorem tiedNodes_pending {send : PendingSend} {n : Int} (h : send ∈ v.store.pending)
    (hafter : send.after = .confirmed true) (hnode : send.owner.remoteNodeNum = some n) :
    n ∈ v.tiedNodes send.owner.nonce :=
  List.mem_append_right _ (List.mem_filterMap.mpr
    ⟨send, List.mem_filter.mpr ⟨h, by simp [hafter]⟩, hnode⟩)

theorem Verification.Compared.append {identityId : String} {nodeId nonce x m : Int}
    (h : v.Compared identityId nodeId nonce) (hnew : nonce = x → nodeId = m)
    {v' : Verification} (hconfirmed : v.confirmed ⊆ v'.confirmed) (hfinals : v.finals ⊆ v'.finals)
    (hpackets : v'.packets = v.packets ++ [⟨x, m⟩]) : v'.Compared identityId nodeId nonce :=
  ⟨hconfirmed h.confirmed, hfinals h.final, hpackets ▸ h.packets.append hnew⟩

theorem Verification.Apart.packet (h : v.Apart) {identityId : String} {from' nonce : Int}
    (hunmixed : v.Unmixed (.packet identityId from' nonce)) :
    (v.step (.packet identityId from' nonce)).Apart := by
  by_cases hignored : nonce = 0 ∨ from' ≤ 0
  · have hsame : v.step (.packet identityId from' nonce) = v := by
      simp [Verification.step, Verifier.react, recordKeyVerificationPacket, packetsOf, finalsOf,
        confirmationsOf, hignored]
    rwa [hsame]
  · obtain ⟨hnonce, hfrom⟩ := not_or.mp hignored
    have htied : ∀ n ∈ v.tiedNodes nonce, n = from' := by
      rcases hunmixed with h0 | h0 | htied
      · exact absurd h0 hnonce
      · exact absurd h0 hfrom
      · exact htied
    have hpackets : (v.step (.packet identityId from' nonce)).packets = v.packets ++ [⟨nonce, from'⟩] := by
      simp [Verification.step, packetsOf, hignored]
    have hstore : (v.step (.packet identityId from' nonce)).store =
        recordKeyVerificationPacket v.store identityId from' nonce := rfl
    rw [recordKeyVerificationPacket, if_neg hignored] at hstore
    have hown : OnlyFrom v.packets nonce from' := fun p hp hx =>
      htied _ (hx ▸ tiedNodes_packet hp)
    refine ⟨?_, ?_, ?_, ?_, ?_⟩
    · intro x n hx
      rw [hstore] at hx
      rw [hpackets]
      rcases get?_rememberNonce hx with ⟨rfl, rfl⟩ | ⟨hne, hx⟩
      · exact hown.append fun _ => rfl
      · exact (h.remembered x n hx).append fun he => absurd he hne
    · intro σ hσ n hn hreal
      rw [hstore] at hσ
      obtain ⟨σ₀, hσ₀, hσ⟩ := Option.map_eq_some_iff.mp hσ
      rw [hpackets]
      split_ifs at hσ with hbound
      · subst hσ
        cases hn
        obtain ⟨_, _, rfl⟩ := hbound
        exact hown.append fun _ => rfl
      · subst hσ
        refine (h.session σ₀ hσ₀ n hn hreal).append fun hx => htied n ?_
        exact hx ▸ tiedNodes_session hσ₀ hn hreal
    · intro σ hσ hphase
      rw [hstore] at hσ
      obtain ⟨σ₀, hσ₀, hσ⟩ := Option.map_eq_some_iff.mp hσ
      refine List.mem_append_left _ ?_
      split_ifs at hσ
      · subst hσ
        exact h.compared σ₀ hσ₀ hphase
      · subst hσ
        exact h.compared σ₀ hσ₀ hphase
    · intro send hsend hafter
      rw [hstore] at hsend
      obtain ⟨n, hn, hcompared⟩ := h.pending send hsend hafter
      refine ⟨n, hn, hcompared.append (fun hx => htied n ?_) (List.subset_append_left _ _)
        (List.subset_append_left _ _) hpackets⟩
      exact hx ▸ tiedNodes_pending hsend hafter hn
    · intro p hp
      rw [hpackets] at hp
      rcases List.mem_append.mp hp with hp | hp
      · exact h.nonces p hp
      · rw [List.mem_singleton.mp hp]
        exact hnonce

-- What a step that records no packet has to keep.
theorem Verification.Apart.of_store {v' : Verification} (h : v.Apart) (hpackets : v'.packets = v.packets)
    (hfinals : v.finals ⊆ v'.finals) (hconfirmed : v.confirmed ⊆ v'.confirmed)
    (hremembered : v'.store.nonceToNode = v.store.nonceToNode)
    (hsession : ∀ σ ∈ v'.store.session, ∀ n ∈ σ.remoteNodeNum, n > 0 → OnlyFrom v.packets σ.nonce n)
    (hcompared : ∀ σ ∈ v'.store.session, σ.phase = .compare → ⟨σ.identityId, σ.nonce⟩ ∈ v'.finals)
    (hpending : ∀ send ∈ v'.store.pending, send.after = .confirmed true → send ∈ v.store.pending ∨
      ∃ n ∈ send.owner.remoteNodeNum, v'.Compared send.owner.identityId n send.owner.nonce) : v'.Apart := by
  refine ⟨?_, ?_, hcompared, ?_, ?_⟩
  · rw [hremembered, hpackets]
    exact h.remembered
  · rw [hpackets]
    exact hsession
  · intro send hsend hafter
    rcases hpending send hsend hafter with hold | hnew
    · obtain ⟨n, hn, hsame⟩ := h.pending send hold hafter
      exact ⟨n, hn, hconfirmed hsame.confirmed, hfinals hsame.final, hpackets ▸ hsame.packets⟩
    · exact hnew
  · rw [hpackets]
    exact h.nonces

-- A patch of the session that leaves its handshake and opens no comparison.
structure Gentle (patch : KeyVerificationSession → KeyVerificationSession) : Prop where
  key : ∀ σ, (patch σ).key = σ.key
  phase : ∀ σ, (patch σ).phase = .compare → σ.phase = .compare

theorem key_eq_iff {σ σ' : KeyVerificationSession} : σ'.key = σ.key ↔
    σ'.identityId = σ.identityId ∧ σ'.remoteNodeNum = σ.remoteNodeNum ∧ σ'.nonce = σ.nonce := by
  simp [KeyVerificationSession.key]

theorem Verification.Apart.patched_node (h : v.Apart) {patch : KeyVerificationSession → KeyVerificationSession}
    (hpatch : Gentle patch) : ∀ σ ∈ v.store.session.map patch, ∀ n ∈ σ.remoteNodeNum, n > 0 →
      OnlyFrom v.packets σ.nonce n := by
  intro σ hσ n hn hreal
  obtain ⟨σ₀, hσ₀, rfl⟩ := Option.map_eq_some_iff.mp hσ
  obtain ⟨_, hnode, hnonce⟩ := key_eq_iff.mp (hpatch.key σ₀)
  rw [hnonce]
  exact h.session σ₀ hσ₀ n (hnode ▸ hn) hreal

theorem Verification.Apart.patched_compared (h : v.Apart)
    {patch : KeyVerificationSession → KeyVerificationSession} (hpatch : Gentle patch) :
    ∀ σ ∈ v.store.session.map patch, σ.phase = .compare → ⟨σ.identityId, σ.nonce⟩ ∈ v.finals := by
  intro σ hσ hphase
  obtain ⟨σ₀, hσ₀, rfl⟩ := Option.map_eq_some_iff.mp hσ
  obtain ⟨hidentity, _, hnonce⟩ := key_eq_iff.mp (hpatch.key σ₀)
  rw [hidentity, hnonce]
  exact h.compared σ₀ hσ₀ (hpatch.phase σ₀ hphase)

theorem notificationNode_onlyFrom (h : v.Apart) {identityId longname : String} {nonce n : Int}
    (hassumed : ∀ n ∈ assumedNode v.store identityId nonce longname, n > 0 → OnlyFrom v.packets nonce n)
    (hn : notificationNode v.store identityId nonce longname = some n) (hreal : n > 0) :
    OnlyFrom v.packets nonce n := by
  unfold notificationNode at hn
  unfold assumedNode at hassumed
  cases hpinned : (reusableSession v.store identityId nonce).bind KeyVerificationSession.remoteNodeNum with
  | some pinned =>
      rw [hpinned, Option.some_or] at hn hassumed
      exact hassumed n hn hreal
  | none =>
      rw [hpinned, Option.none_or] at hn hassumed
      cases hpacket : v.store.nonceToNode.get? nonce with
      | some m =>
          rw [hpacket, Option.some_or, Option.some.injEq] at hn
          exact hn ▸ h.remembered nonce m hpacket
      | none =>
          rw [hpacket, Option.none_or] at hn
          rw [hpacket] at hassumed
          exact hassumed n hn hreal

theorem nextSession_key {s : Verifier} {identityId : String} {case : NotificationCase}
    {value : NotificationValue} {next : KeyVerificationSession}
    (h : nextSession s identityId case value = some next) :
    next.key = ⟨identityId, notificationNode s identityId (value.nonce.getD 0) (value.remoteLongname.getD ""),
      value.nonce.getD 0⟩ ∧ case ≠ .other ∧ (next.phase = .compare → case = .keyVerificationFinal) := by
  cases case <;> simp only [nextSession, Option.some.injEq, reduceCtorEq] at h <;> subst h <;>
    exact ⟨rfl, by simp, by simp⟩

theorem Verification.Apart.notification (h : v.Apart) {identityId : String}
    {notification : KeyVerificationClientNotification}
    (hunmixed : v.Unmixed (.notification identityId notification)) :
    (v.step (.notification identityId notification)).Apart := by
  have hpackets : (v.step (.notification identityId notification)).packets = v.packets := List.append_nil _
  have hstore : (v.step (.notification identityId notification)).store =
      (applyKeyVerificationClientNotification v.store identityId notification).2 := rfl
  have hfinals := List.subset_append_left v.finals (finalsOf (.notification identityId notification))
  unfold applyKeyVerificationClientNotification at hstore
  cases hnext : notification.bind fun n => nextSession v.store identityId n.1 n.2 with
  | none =>
      rw [hnext] at hstore
      refine h.of_store hpackets hfinals (List.subset_append_left _ _) (by rw [hstore]) ?_ ?_ ?_
      · rw [hstore]
        exact h.session
      · rw [hstore]
        exact fun σ hσ hphase => hfinals (h.compared σ hσ hphase)
      · rw [hstore]
        exact fun send hsend _ => .inl hsend
  | some next =>
      rw [hnext] at hstore
      obtain ⟨⟨case, value⟩, rfl, hsome⟩ := Option.bind_eq_some_iff.mp hnext
      obtain ⟨hkey, hother, hfinal⟩ := nextSession_key hsome
      obtain ⟨hidentity, hnode, hnonce⟩ := SessionKey.mk.injEq .. ▸ hkey
      have hassumed := hunmixed.resolve_left hother
      refine h.of_store hpackets hfinals (List.subset_append_left _ _) (by rw [hstore]) ?_ ?_ ?_
      · rw [hstore]
        rintro σ ⟨⟩ n hn hreal
        rw [hnonce]
        exact notificationNode_onlyFrom h hassumed (hnode ▸ hn) hreal
      · rw [hstore]
        rintro σ ⟨⟩ hphase
        rw [hidentity, hnonce]
        obtain rfl := hfinal hphase
        exact List.mem_append_right _ (List.mem_singleton_self _)
      · rw [hstore]
        exact fun send hsend _ => .inl hsend

-- A step of the store that neither starts a comparison nor ties a session to another node.
structure Quiet (s s' : Verifier) : Prop where
  session : s'.session = none ∨ ∃ patch, Gentle patch ∧ s'.session = s.session.map patch
  nonceToNode : s'.nonceToNode = s.nonceToNode
  pending : ∀ send ∈ s'.pending, send.after = .confirmed true → send ∈ s.pending

variable {s s' : Verifier}

theorem gentle_id : Gentle id := ⟨fun _ => rfl, fun _ h => h⟩

theorem Quiet.of_session (hsession : s'.session = s.session) (hmap : s'.nonceToNode = s.nonceToNode)
    (hpending : s'.pending ⊆ s.pending) : Quiet s s' :=
  ⟨.inr ⟨id, gentle_id, hsession.trans (Option.map_id_fun ▸ rfl)⟩, hmap, fun _ hsend _ => hpending hsend⟩

theorem Quiet.patchSession {patch : KeyVerificationSession → KeyVerificationSession} (hpatch : Gentle patch) :
    Quiet s (s.patchSession patch) :=
  ⟨.inr ⟨patch, hpatch, rfl⟩, rfl, fun _ hsend _ => hsend⟩

theorem Quiet.send (h : Quiet s s') {request : KeyVerificationAdminRequest} {owner : SessionKey}
    {after : AfterSend} (hafter : after ≠ .confirmed true) : Quiet s (s'.send request owner after).1 := by
  refine ⟨h.session, h.nonceToNode, fun send hsend hconfirmed => ?_⟩
  rcases List.mem_append.mp hsend with hsend | hsend
  · exact h.pending send hsend hconfirmed
  · rw [List.mem_singleton.mp hsend] at hconfirmed
    exact absurd hconfirmed hafter

theorem submit_quiet (input : String) : Quiet s (submitKeyVerificationSecurityNumber s input).1 := by
  have hid : Quiet s s := .of_session rfl rfl (List.Subset.refl _)
  unfold submitKeyVerificationSecurityNumber
  split
  · exact hid
  · split_ifs
    · exact hid
    · split
      · exact .patchSession ⟨fun _ => rfl, fun _ h => h⟩
      · split
        · exact .patchSession ⟨fun _ => rfl, fun _ h => h⟩
        · have hpatch : Gentle fun σ => { σ with phase := .awaitingFinal, errorCode := none } :=
            ⟨fun _ => rfl, fun _ h => by simp at h⟩
          exact (Quiet.patchSession hpatch).send (by decide)

theorem cancel_quiet : Quiet s (cancelKeyVerification s).1 := by
  have hclosed : Quiet s { s with session := none } := ⟨.inl rfl, rfl, fun _ hsend _ => hsend⟩
  unfold cancelKeyVerification
  split
  · exact hclosed
  · dsimp only
    split_ifs
    · exact hclosed
    · split
      · exact hclosed
      · exact hclosed.send (by decide)

theorem setPhase_quiet {phase : KeyVerificationPhase} (hphase : phase ≠ .compare) : Quiet s (s.setPhase phase) :=
  .patchSession ⟨fun _ => rfl, fun _ h => absurd h hphase⟩

theorem afterSend_quiet (send : PendingSend) (ok : Bool) : Quiet s (afterSend s send ok).1 := by
  have hid : Quiet s s := .of_session rfl rfl (List.Subset.refl _)
  unfold afterSend
  split
  · exact hid
  · exact .patchSession ⟨fun _ => rfl, fun _ h => by simp at h⟩
  · exact hid
  · exact hid
  · exact setPhase_quiet (by decide)
  · split
    · exact hid
    · split_ifs
      · have hpatched : ∀ identityId nodeId, (patchNodeKeyManuallyVerified s identityId nodeId).session =
            s.session ∧ (patchNodeKeyManuallyVerified s identityId nodeId).nonceToNode = s.nonceToNode ∧
            (patchNodeKeyManuallyVerified s identityId nodeId).pending = s.pending := by
          intro identityId nodeId
          unfold patchNodeKeyManuallyVerified
          split <;> exact ⟨rfl, rfl, rfl⟩
        obtain ⟨hsession, hmap, hpending⟩ := hpatched send.owner.identityId _
        refine ⟨.inr ⟨fun σ => { σ with phase := .done }, ⟨fun _ => rfl, fun _ h => by simp at h⟩, ?_⟩, hmap, ?_⟩
        · exact congrArg (Option.map _) hsession
        · exact fun send hsend _ => hpending ▸ hsend
      · exact setPhase_quiet (by decide)

theorem Verification.Apart.quiet (h : v.Apart) {v' : Verification} (hquiet : Quiet v.store v'.store)
    (hpackets : v'.packets = v.packets) (hfinals : v.finals ⊆ v'.finals)
    (hconfirmed : v.confirmed ⊆ v'.confirmed) : v'.Apart := by
  refine h.of_store hpackets hfinals hconfirmed hquiet.nonceToNode ?_ ?_
    fun send hsend hafter => .inl (hquiet.pending send hsend hafter)
  · rcases hquiet.session with hnone | ⟨patch, hpatch, hsession⟩
    · rw [hnone]
      rintro _ ⟨⟩
    · rw [hsession]
      exact h.patched_node hpatch
  · rcases hquiet.session with hnone | ⟨patch, hpatch, hsession⟩
    · rw [hnone]
      rintro _ ⟨⟩
    · rw [hsession]
      exact fun σ hσ hphase => hfinals (h.patched_compared hpatch σ hσ hphase)

theorem confirmedNode_onlyFrom (h : v.Apart) {matched : Bool} (hunmixed : v.Unmixed (.confirm matched))
    {session : KeyVerificationSession} (hsession : v.store.session = some session)
    (hphase : session.phase = .compare) {n : Int} (hn : confirmedNode v.store session = some n) :
    OnlyFrom v.packets session.nonce n := by
  unfold confirmedNode at hn
  split_ifs at hn with hreal
  · refine h.session session hsession n hn ?_
    simpa [hasRealRemoteNode, hn] using hreal
  · obtain ⟨hresolved, hpos⟩ := Option.filter_eq_some_iff.mp hn
    exact hunmixed session hsession hphase hreal n hresolved (by simpa using hpos)

-- A confirmation is either ignored or sends an answer about the node it found.
theorem confirm_cases (s : Verifier) (matched : Bool) :
    (∃ s', confirmKeyVerification s matched = (s', []) ∧ Quiet s s') ∨
      ∃ session n named, s.session = some session ∧ session.phase = .compare ∧
        confirmedNode s session = some n ∧ named.key = ⟨session.identityId, some n, session.nonce⟩ ∧
        confirmKeyVerification s matched =
          ({ s with
              session := some named
              pending := s.pending ++ [⟨⟨session.identityId, some n, session.nonce⟩, .confirmed matched⟩] },
            [.sent { type := if matched then .doVerify else .doNotVerify, remoteNodeNum := n,
                     nonce := some session.nonce }]) := by
  have hid : Quiet s s := .of_session rfl rfl (List.Subset.refl _)
  unfold confirmKeyVerification
  cases hsession : s.session with
  | none => exact .inl ⟨s, rfl, hid⟩
  | some session =>
      by_cases hphase : session.phase = .compare
      · cases hnode : confirmedNode s session with
        | none =>
            refine .inl ⟨s.patchSession fun σ => { σ with phase := .compare, errorCode := some .missingNode },
              by simp [hphase, hnode], ?_⟩
            refine ⟨.inr ⟨fun σ => { σ with errorCode := some .missingNode }, ⟨fun _ => rfl, fun _ h => h⟩, ?_⟩,
              rfl, fun _ hsend _ => hsend⟩
            simp [Verifier.patchSession, hsession, hphase]
        | some n =>
            by_cases hreal : hasRealRemoteNode session.remoteNodeNum = true
            · have hsame : session.remoteNodeNum = some n := by
                rwa [confirmedNode, if_pos hreal] at hnode
              refine .inr ⟨session, n, session, rfl, hphase, hnode, by rw [← hsame]; rfl, ?_⟩
              simp [hphase, hreal, hnode, Verifier.send, hsession]
            · refine .inr ⟨session, n, { session with remoteNodeNum := some n, errorCode := none }, rfl,
                hphase, hnode, rfl, ?_⟩
              simp [hphase, hreal, hnode, Verifier.send, Verifier.patchSession, hsession]
      · exact .inl ⟨s, by simp [hphase], hid⟩

theorem Verification.Apart.confirm (h : v.Apart) {matched : Bool} (hunmixed : v.Unmixed (.confirm matched)) :
    (v.step (.confirm matched)).Apart ∧ v.StaysApart (.confirm matched) := by
  set v' := v.step (.confirm matched) with hv'
  have hpackets : v'.packets = v.packets := List.append_nil _
  have hfinals : v'.finals = v.finals := List.append_nil _
  have hsubset : v.finals ⊆ v'.finals := hfinals ▸ List.Subset.refl _
  have hconfirmed : v.confirmed ⊆ v'.confirmed := List.subset_append_left _ _
  rcases confirm_cases v.store matched with ⟨s', hrun, hquiet⟩ | ⟨session, n, named, hsession, hphase, hnode, hkey, hrun⟩
  · have hstore : v'.store = s' := congrArg Prod.fst hrun
    have heffects : v.effects (.confirm matched) = [] := congrArg Prod.snd hrun
    refine ⟨h.quiet (hstore ▸ hquiet) hpackets hsubset hconfirmed, ?_, trivial⟩
    rw [heffects]
    rintro _ ⟨⟩
  · have hstore := congrArg Prod.fst hrun
    change v'.store = _ at hstore
    have heffects := congrArg Prod.snd hrun
    change v.effects (.confirm matched) = _ at heffects
    obtain ⟨hidentity, hremote, hnonce⟩ := SessionKey.mk.injEq .. ▸ hkey
    have honly := confirmedNode_onlyFrom h hunmixed hsession hphase hnode
    have hfinal : ⟨session.identityId, session.nonce⟩ ∈ v'.finals :=
      hsubset (h.compared session hsession hphase)
    have hcompared : matched = true → v'.Compared session.identityId n session.nonce := by
      rintro rfl
      refine ⟨List.mem_append_right _ ?_, hfinal, hpackets ▸ honly⟩
      simp [confirmationsOf, hsession, hphase]
    refine ⟨h.of_store hpackets hsubset hconfirmed (by rw [hstore]) ?_ ?_ ?_, ?_, trivial⟩
    · rw [hstore]
      rintro σ ⟨⟩ m hm _
      rw [hremote] at hm
      cases hm
      exact hnonce ▸ honly
    · rw [hstore]
      rintro σ ⟨⟩ _
      rw [hidentity, hnonce]
      exact hfinal
    · rw [hstore]
      intro send hsend hafter
      rcases List.mem_append.mp hsend with hsend | hsend
      · exact .inl hsend
      · rw [List.mem_singleton.mp hsend] at hafter ⊢
        exact .inr ⟨n, rfl, hcompared (by simpa using hafter)⟩
    · rw [heffects]
      intro effect heffect
      rw [List.mem_singleton.mp heffect]
      intro hverify
      cases matched with
      | false => simp at hverify
      | true => exact ⟨session.identityId, session.nonce, rfl, hcompared rfl⟩

theorem afterSend_effect {send : PendingSend} {ok : Bool} {effect : Effect}
    (h : effect ∈ (afterSend s send ok).2) : send.after = .confirmed true ∧
      ∃ n ∈ send.owner.remoteNodeNum, effect = .patchNodeKeyManuallyVerified send.owner.identityId n := by
  unfold afterSend at h
  split at h
  · simp at h
  · simp at h
  · simp at h
  · simp at h
  · simp at h
  · rename_i hafter
    split at h
    · simp at h
    · rename_i n hn
      split_ifs at h
      · exact ⟨hafter, n, hn, List.mem_singleton.mp h⟩
      · simp at h

theorem afterSend_silent {send : PendingSend} {ok : Bool} (h : send.after = .cancelled ∨
    (ok = true ∧ send.after ∈ [AfterSend.initiated, .numberProvided])) : (afterSend s send ok).1 = s := by
  rcases h with h | ⟨rfl, h⟩
  · simp [afterSend, h]
  · rcases List.mem_pair.mp h with h | h <;> simp [afterSend, h]

theorem Verification.Apart.settled (h : v.Apart) {i : Nat} {ok : Bool} (hunmixed : v.Unmixed (.settled i ok)) :
    (v.step (.settled i ok)).Apart ∧ v.StaysApart (.settled i ok) := by
  set v' := v.step (.settled i ok) with hv'
  have hpackets : v'.packets = v.packets := List.append_nil _
  have hfinals : v.finals ⊆ v'.finals := List.subset_append_left _ _
  have hconfirmed : v.confirmed ⊆ v'.confirmed := List.subset_append_left _ _
  cases hsend : v.store.pending[i]? with
  | none =>
      have hreact : v.store.react (.settled i ok) = (v.store, []) := by simp only [Verifier.react, hsend]
      have hstore : v'.store = v.store := congrArg Prod.fst hreact
      have heffects : v.effects (.settled i ok) = [] := congrArg Prod.snd hreact
      have hquiet : Quiet v.store v'.store := hstore ▸ .of_session rfl rfl (List.Subset.refl _)
      refine ⟨h.quiet hquiet hpackets hfinals hconfirmed, ?_, ?_⟩
      · rw [heffects]
        rintro _ ⟨⟩
      · intro send _ hsome
        rw [hsend] at hsome
        cases hsome
  | some send =>
      set waiting : Verifier := { v.store with pending := v.store.pending.eraseIdx i } with hwaiting
      have hreact : v.store.react (.settled i ok) = afterSend waiting send ok := by
        simp only [Verifier.react, hsend, hwaiting]
      have hstore : v'.store = (afterSend waiting send ok).1 := congrArg Prod.fst hreact
      have heffects : v.effects (.settled i ok) = (afterSend waiting send ok).2 := congrArg Prod.snd hreact
      have hafter : Quiet waiting (afterSend waiting send ok).1 := afterSend_quiet send ok
      have hquiet : Quiet v.store v'.store := hstore ▸ ⟨hafter.session, hafter.nonceToNode,
        fun other hother hconfirm => (List.eraseIdx_sublist _ _).subset (hafter.pending other hother hconfirm)⟩
      refine ⟨h.quiet hquiet hpackets hfinals hconfirmed, ?_, ?_⟩
      · intro effect heffect
        rw [heffects] at heffect
        obtain ⟨htrue, n, hn, rfl⟩ := afterSend_effect heffect
        obtain ⟨m, hm, hcompared⟩ := h.pending send (List.mem_of_getElem? hsend) htrue
        obtain rfl : n = m := Option.some.inj (hn.symm.trans hm)
        exact ⟨_, hconfirmed hcompared.confirmed, hfinals hcompared.final, hpackets ▸ hcompared.packets⟩
      · intro send' session hsend' hsession hother
        obtain rfl : send = send' := Option.some.inj (hsend.symm.trans hsend')
        have hwrites := hunmixed send hsend session hsession
        rw [← or_assoc] at hwrites
        change v'.store.session.map outcome = _
        rw [hstore, afterSend_silent (hwrites.resolve_right hother)]
        exact congrArg (Option.map outcome) hsession

theorem initiate_key (s : Verifier) (identityId : String) (remoteNodeNum : Int) (remoteLongname : String) :
    ∃ session, (initiateKeyVerification s identityId remoteNodeNum remoteLongname).1.session = some session ∧
      session.nonce = 0 ∧ session.phase = .initiating :=
  ⟨_, rfl, rfl, rfl⟩

theorem Verification.Apart.initiate (h : v.Apart) (identityId : String) (remoteNodeNum : Int)
    (remoteLongname : String) : (v.step (.initiate identityId remoteNodeNum remoteLongname)).Apart := by
  obtain ⟨session, hsession, hnonce, hphase⟩ := initiate_key v.store identityId remoteNodeNum remoteLongname
  set v' := v.step (.initiate identityId remoteNodeNum remoteLongname)
  change v'.store.session = some session at hsession
  refine h.of_store (List.append_nil _) (List.subset_append_left _ _) (List.subset_append_left _ _) rfl ?_ ?_ ?_
  · rw [hsession]
    rintro σ ⟨⟩ n _ _ p hp hzero
    exact absurd (hzero.trans hnonce) (h.nonces p hp)
  · rw [hsession]
    rintro σ ⟨⟩ hcompare
    rw [hphase] at hcompare
    cases hcompare
  · intro send hsend hafter
    rcases List.mem_append.mp hsend with hsend | hsend
    · exact .inl hsend
    · rw [List.mem_singleton.mp hsend] at hafter
      cases hafter

-- A request other than `doVerify` asks for nothing.
theorem justified_of_request {effects : List Effect} {type : KeyVerificationAdminType}
    (htype : type ≠ .doVerify)
    (h : ∀ effect ∈ effects, ∃ request, effect = .sent request ∧ request.type = type) {v' : Verification} :
    ∀ effect ∈ effects, v'.Justified effect := by
  intro effect heffect
  obtain ⟨request, rfl, hrequest⟩ := h effect heffect
  exact fun hverify => absurd (hrequest.symm.trans hverify) htype

theorem submit_effects (input : String) : ∀ effect ∈ (submitKeyVerificationSecurityNumber s input).2,
    ∃ request, effect = .sent request ∧ request.type = .provideSecurityNumber := by
  unfold submitKeyVerificationSecurityNumber
  intro effect heffect
  split at heffect
  · cases heffect
  · split_ifs at heffect
    · cases heffect
    · split at heffect
      · cases heffect
      · split at heffect
        · cases heffect
        · exact ⟨_, List.mem_singleton.mp heffect, rfl⟩

theorem cancel_effects : ∀ effect ∈ (cancelKeyVerification s).2,
    ∃ request, effect = .sent request ∧ request.type = .doNotVerify := by
  unfold cancelKeyVerification
  intro effect heffect
  split at heffect
  · cases heffect
  · dsimp only at heffect
    split_ifs at heffect
    · cases heffect
    · split at heffect
      · cases heffect
      · exact ⟨_, List.mem_singleton.mp heffect, rfl⟩

theorem staysApart_of_silent {event : VerificationEvent} (heffects : v.effects event = [])
    (hown : v.AnswersOwn event) : v.StaysApart event :=
  ⟨by simp [heffects], hown⟩

-- What one unmixed step does: no handshake gets mixed, and whatever is verified was compared.
theorem Verification.Apart.step (h : v.Apart) (event : VerificationEvent) (hunmixed : v.Unmixed event) :
    (v.step event).Apart ∧ v.StaysApart event := by
  cases event with
  | packet identityId from' nonce => exact ⟨h.packet hunmixed, staysApart_of_silent rfl trivial⟩
  | notification identityId n => exact ⟨h.notification hunmixed, staysApart_of_silent rfl trivial⟩
  | initiate identityId remoteNodeNum remoteLongname =>
      refine ⟨h.initiate identityId remoteNodeNum remoteLongname, ?_, trivial⟩
      have hsent : ∀ effect ∈ v.effects (.initiate identityId remoteNodeNum remoteLongname),
          ∃ request, effect = .sent request ∧ request.type = .initiate := fun effect heffect =>
        ⟨_, List.mem_singleton.mp heffect, rfl⟩
      exact justified_of_request (by decide) hsent
  | submit input =>
      refine ⟨h.quiet (submit_quiet input) (List.append_nil _) (List.subset_append_left _ _)
        (List.subset_append_left _ _), justified_of_request (by decide) (submit_effects input), trivial⟩
  | confirm matched => exact h.confirm hunmixed
  | cancel =>
      refine ⟨h.quiet cancel_quiet (List.append_nil _) (List.subset_append_left _ _)
        (List.subset_append_left _ _), justified_of_request (by decide) cancel_effects, trivial⟩
  | dismiss =>
      exact ⟨h.quiet ⟨.inl rfl, rfl, fun _ hsend _ => hsend⟩ (List.append_nil _)
        (List.subset_append_left _ _) (List.subset_append_left _ _), staysApart_of_silent rfl trivial⟩
  | settled i ok => exact h.settled hunmixed
  | nodesChanged nodes =>
      exact ⟨h.quiet (.of_session rfl rfl (List.Subset.refl _)) (List.append_nil _)
        (List.subset_append_left _ _) (List.subset_append_left _ _), staysApart_of_silent rfl trivial⟩

theorem start_apart (nodes : String → OrderedMap Int NodeRecord) : (Verification.start nodes).Apart := by
  refine ⟨?_, ?_, ?_, ?_, ?_⟩
  · exact fun _ _ _ _ hp => by cases hp
  · rintro _ ⟨⟩
  · rintro _ ⟨⟩
  · exact fun _ hsend => by cases hsend
  · exact fun _ hp => by cases hp

-- Along every run that mixes no two handshakes only the node whose handshake the operator
-- compared gets verified, and every answer counts for its own session.
theorem verification_stays_apart (nodes : String → OrderedMap Int NodeRecord)
    (events : List VerificationEvent)
    (hunmixed : Each Verification.step Verification.Unmixed (.start nodes) events) :
    Each Verification.step Verification.StaysApart (.start nodes) events :=
  hunmixed.of_invariant (fun _ event hapart hstep => hapart.step event hstep) (start_apart nodes)

instance Verification.Unmixed.decidable (v : Verification) :
    (event : VerificationEvent) → Decidable (v.Unmixed event)
  | .packet _ from' nonce =>
      inferInstanceAs (Decidable (nonce = 0 ∨ from' ≤ 0 ∨ ∀ n ∈ v.tiedNodes nonce, n = from'))
  | .notification _ none => inferInstanceAs (Decidable True)
  | .notification identityId (some (case, value)) => inferInstanceAs (Decidable (case = .other ∨
      ∀ n ∈ assumedNode v.store identityId (value.nonce.getD 0) (value.remoteLongname.getD ""),
        n > 0 → OnlyFrom v.packets (value.nonce.getD 0) n))
  | .initiate _ _ _ => inferInstanceAs (Decidable True)
  | .submit _ => inferInstanceAs (Decidable True)
  | .confirm _ => inferInstanceAs (Decidable (∀ session ∈ v.store.session, session.phase = .compare →
      ¬hasRealRemoteNode session.remoteNodeNum →
        ∀ n ∈ resolveNodeByLongname v.store session.identityId session.remoteLongname,
          n > 0 → OnlyFrom v.packets session.nonce n))
  | .cancel => inferInstanceAs (Decidable True)
  | .dismiss => inferInstanceAs (Decidable True)
  | .settled i ok => inferInstanceAs (Decidable (∀ send ∈ v.store.pending[i]?, ∀ session ∈ v.store.session,
      send.after = .cancelled ∨ (ok = true ∧ send.after ∈ [AfterSend.initiated, .numberProvided]) ∨
        session.key = send.owner))
  | .nodesChanged _ => inferInstanceAs (Decidable True)

def twoNodes : String → OrderedMap Int NodeRecord := fun _ =>
  (OrderedMap.set ∅ 10 ⟨10, some "Alice", false⟩).set 20 ⟨20, some "Bob", false⟩

theorem verification_stays_apart_initiator :
    Each Verification.step Verification.StaysApart (.start twoNodes)
      [.initiate "id" 10 "Alice",
        .notification "id" (some (.keyVerificationNumberRequest, { nonce := some 7 })),
        .submit "123 456",
        .packet "id" 10 7,
        .notification "id" (some (.keyVerificationFinal, { nonce := some 7 })),
        .confirm true,
        .settled 2 true] :=
  verification_stays_apart twoNodes _ (by decide)

-- Bob's handshake reaches a radio that has just asked Alice for hers: the session is pinned to
-- Alice, takes over Bob's nonce, and confirming Bob's characters verifies Alice. The answer to
-- an older session's message then fails the newer one.
theorem pinned_session_verifies_other_node :
    ¬(run Verification.step (.start twoNodes) [.initiate "id" 10 "Alice", .packet "id" 20 5,
        .notification "id" (some (.keyVerificationFinal, { nonce := some 5 }))]).StaysApart (.confirm true) ∧
      ¬(run Verification.step (.start twoNodes)
        [.initiate "id" 10 "Alice", .dismiss, .initiate "id" 20 "Bob"]).StaysApart (.settled 0 false) := by
  constructor
  · intro h
    obtain ⟨_, nonce, hnonce, hcompared⟩ := h.1
      (.sent { type := .doVerify, remoteNodeNum := 10, nonce := some 5 }) (by decide) rfl
    obtain rfl : 5 = nonce := Option.some.inj hnonce
    have hpacket := hcompared.packets ⟨5, 20⟩ (by decide) rfl
    exact absurd hpacket (by decide)
  · intro h
    have hphase := h.2 ⟨⟨"id", some 10, 0⟩, .initiated⟩ _ (by decide) rfl (by decide)
    exact absurd hphase (by decide)

end MeshClient.Meshtastic
