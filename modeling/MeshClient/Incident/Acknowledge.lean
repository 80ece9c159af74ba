import MeshClient.Incident.Invariant

namespace MeshClient.Incident

open Lists Mecp Js

def AckedBy (peerId : String) (inc : EmergencyIncident) : Prop :=
  inc.status ≠ .«open» ∧ peerId ∈ inc.ackPeerIds

instance (peerId : String) (inc : EmergencyIncident) : Decidable (AckedBy peerId inc) :=
  inferInstanceAs (Decidable (_ ∧ _))

def BeaconConfirmed (inc : EmergencyIncident) : Prop :=
  inc.beaconAcked = true ∧ inc.status ≠ .«open»

instance (inc : EmergencyIncident) : Decidable (BeaconConfirmed inc) :=
  inferInstanceAs (Decidable (_ ∧ _))

theorem withAck_ackedBy (inc : EmergencyIncident) {peerId : String} (time : Int)
    (hnew : peerId ∉ inc.ackPeerIds) : AckedBy peerId (withAck inc peerId time) := by
  have hc : ¬inc.ackPeerIds.contains peerId = true := by simpa using hnew
  rw [withAck, if_neg hc]
  refine ⟨?_, by simp⟩
  dsimp only
  split_ifs with hs
  · simp
  · exact hs

theorem confirmBeaconRow_confirmed (clock : Int) (inc : EmergencyIncident) :
    BeaconConfirmed (confirmBeaconRow clock inc) := by
  refine ⟨rfl, ?_⟩
  simp only [confirmBeaconRow]
  split_ifs with hs
  · simp
  · exact hs

variable (js : Runtime)

-- Recording the ACK of a peer that is listed already leaves the row as it is.
theorem step_recordAck_get? {s : IncidentSnapshot} {id : String} {inc : EmergencyIncident}
    (hget : s.incidents.get? id = some inc) (hopen : inc.status ≠ .resolved) {peerId : String}
    (hsender : inc.senderId ≠ peerId) (clock : Int) (time : Option Int) :
    (step js s (clock, .recordAck id peerId time)).incidents.get? id =
      some (withAck inc peerId (time.getD clock)) := by
  have hguard : ¬(inc.status = .resolved ∨ inc.senderId = peerId) := not_or.mpr ⟨hopen, hsender⟩
  simp only [step, StoreOp.update, recordAck, hget, if_neg hguard]
  split_ifs with hlisted
  · simp only [Option.getD_none, hget, withAck, if_pos hlisted]
  · simp only [Option.getD_some, OrderedMap.get?_set_self]

theorem step_confirmBeacon_get? {s : IncidentSnapshot} {id : String} {inc : EmergencyIncident}
    (hget : s.incidents.get? id = some inc) (clock : Int) :
    (step js s (clock, .confirmBeacon id)).incidents.get? id =
      some (if inc.beaconAcked then inc else confirmBeaconRow clock inc) := by
  simp only [step, StoreOp.update, confirmBeacon, hget]
  split_ifs with hacked
  · simpa only [Option.getD_none] using hget
  · simp only [Option.getD_some, OrderedMap.get?_set_self]

-- The row under `id` after the ACK lists the peer and is no longer open.
def AckTakesEffect (s : IncidentSnapshot) (id peerId : String) (clock : Int) (time : Option Int) :
    Prop :=
  ∃ row ∈ (step js s (clock, .recordAck id peerId time)).incidents.get? id, AckedBy peerId row

instance (s : IncidentSnapshot) (id peerId : String) (clock : Int) (time : Option Int) :
    Decidable (AckTakesEffect js s id peerId clock time) :=
  inferInstanceAs (Decidable (∃ row ∈ _, _))

def ConfirmTakesEffect (s : IncidentSnapshot) (id : String) (clock : Int) : Prop :=
  ∃ row ∈ (step js s (clock, .confirmBeacon id)).incidents.get? id, BeaconConfirmed row

instance (s : IncidentSnapshot) (id : String) (clock : Int) :
    Decidable (ConfirmTakesEffect js s id clock) :=
  inferInstanceAs (Decidable (∃ row ∈ _, _))

variable {js}

theorem ackTakesEffect_iff {s : IncidentSnapshot} {id : String} {inc : EmergencyIncident}
    (hget : s.incidents.get? id = some inc) (hopen : inc.status ≠ .resolved) {peerId : String}
    (hsender : inc.senderId ≠ peerId) (clock : Int) (time : Option Int) :
    AckTakesEffect js s id peerId clock time ↔
      (inc.status = .«open» → peerId ∉ inc.ackPeerIds) := by
  simp only [AckTakesEffect, step_recordAck_get? js hget hopen hsender, Option.mem_some_iff,
    exists_eq_left']
  by_cases hlisted : peerId ∈ inc.ackPeerIds
  · have hc : inc.ackPeerIds.contains peerId = true := by simpa using hlisted
    simp only [withAck, if_pos hc, AckedBy, hlisted, and_true, not_true_eq_false, imp_false]
  · exact iff_of_true (withAck_ackedBy inc _ hlisted) fun _ => hlisted

theorem confirmTakesEffect_iff {s : IncidentSnapshot} {id : String} {inc : EmergencyIncident}
    (hget : s.incidents.get? id = some inc) (clock : Int) :
    ConfirmTakesEffect js s id clock ↔ (inc.status = .«open» → inc.beaconAcked = false) := by
  simp only [ConfirmTakesEffect, step_confirmBeacon_get? js hget, Option.mem_some_iff,
    exists_eq_left']
  cases hacked : inc.beaconAcked with
  | true => simp [BeaconConfirmed, hacked]
  | false => simpa using confirmBeaconRow_confirmed clock inc

def UnackedWhileOpen (inc : EmergencyIncident) : Prop :=
  inc.status = .«open» → inc.ackPeerIds = [] ∧ inc.beaconAcked = false

-- The operation brings no row back that was acknowledged before it was resolved.
def ReopensUnacked (js : Runtime) (s : IncidentSnapshot) (op : TimedOp) : Prop :=
  ∀ id inc inc', s.incidents.get? id = some inc → (step js s op).incidents.get? id = some inc' →
    inc.status = .resolved → inc'.status = .«open» → inc.ackPeerIds = [] ∧ inc.beaconAcked = false

theorem RowStep.unackedWhileOpen {inc inc' : EmergencyIncident} (hstep : RowStep js inc inc')
    (h : UnackedWhileOpen inc) (hreopen : inc.status = .resolved → inc'.status = .«open» →
      inc.ackPeerIds = [] ∧ inc.beaconAcked = false) : UnackedWhileOpen inc' := by
  cases hstep with
  | acked peerId time hopen hsender hnew =>
      exact fun hs => absurd hs (withAck_ackedBy inc time hnew).1
  | confirmed clock => exact fun hs => absurd hs (confirmBeaconRow_confirmed clock inc).2
  | closed time hopen => exact fun hs => by simp [resolveRow] at hs
  | seen => exact h
  | beaconCancelled => exact h
  | merged input severity freetext now hlate =>
      intro hs
      by_cases hr : inc.status = .resolved
      · exact hreopen hr hs
      · apply h
        simp only [mergeIncident] at hs
        split_ifs at hs with hreopened
        · exact absurd (by simp_all [reopens]) hr
        · exact hs

-- Where acknowledged rows are never brought back, every open row still waits for its first
-- acknowledgement, and so neither guard can hold one back.
theorem unackedWhileOpen_run {s : IncidentSnapshot} (hs : StoreInvariant s)
    (hrows : ∀ id inc, s.incidents.get? id = some inc → UnackedWhileOpen inc) (ops : List TimedOp)
    (hreopen : ∀ before op after, ops = before ++ op :: after →
      ReopensUnacked js (run js s before) op) :
    ∀ id inc, (run js s ops).incidents.get? id = some inc → UnackedWhileOpen inc := by
  induction ops generalizing s with
  | nil => exact hrows
  | cons op rest ih =>
      refine ih (hs.step op) (fun id inc' hget => ?_) fun before next after hsplit =>
        hreopen (op :: before) next after (by rw [hsplit, List.cons_append])
      rcases step_rowsFollow hs.ownIds op id inc' hget with
        ⟨inc, hold, hstep⟩ | ⟨_, input, severity, freetext, now, _, rfl⟩
      · cases hstep with
        | refl => exact hrows id inc' hold
        | single hstep =>
            exact hstep.unackedWhileOpen (hrows id inc hold)
              (hreopen [] op rest rfl id inc inc' hold hget)
      · exact fun _ => ⟨rfl, rfl⟩

-- The guards of both operations ask for ACK state that a reopen leaves behind, so in any
-- reachable store they take effect unless the row is open and that state is there already.
-- A run that reopens no acknowledged row never gets there.
theorem acknowledgement_takes_effect (ops : List TimedOp) :
    (∀ id inc, (run js .empty ops).incidents.get? id = some inc → inc.status ≠ .resolved →
      ∀ clock,
        (∀ peerId time, inc.senderId ≠ peerId →
          (AckTakesEffect js (run js .empty ops) id peerId clock time ↔
            (inc.status = .«open» → peerId ∉ inc.ackPeerIds))) ∧
        (ConfirmTakesEffect js (run js .empty ops) id clock ↔
          (inc.status = .«open» → inc.beaconAcked = false))) ∧
    ((∀ before op after, ops = before ++ op :: after →
        ReopensUnacked js (run js .empty before) op) →
      ∀ id inc, (run js .empty ops).incidents.get? id = some inc → inc.status ≠ .resolved →
        ∀ clock,
          (∀ peerId time, inc.senderId ≠ peerId →
            AckTakesEffect js (run js .empty ops) id peerId clock time) ∧
          ConfirmTakesEffect js (run js .empty ops) id clock) := by
  constructor
  · intro id inc hget hopen clock
    exact ⟨fun peerId time hsender => ackTakesEffect_iff hget hopen hsender clock time,
      confirmTakesEffect_iff hget clock⟩
  · intro hreopen id inc hget hopen clock
    have hunacked : UnackedWhileOpen inc := by
      apply unackedWhileOpen_run StoreInvariant.empty _ ops hreopen id inc hget
      intro id inc h
      simp [IncidentSnapshot.empty] at h
    refine ⟨fun peerId time hsender => ?_, ?_⟩
    · rw [ackTakesEffect_iff hget hopen hsender]
      intro hs
      simp [(hunacked hs).1]
    · rw [confirmTakesEffect_iff hget]
      exact fun hs => (hunacked hs).2

-- A beacon that nobody has answered yet.
theorem acknowledgement_takes_effect_fresh :
    let beacon := heardReport "alice" 0 ["B01"] "" 1000
    let id := incidentFingerprint asciiRuntime 0 ["B01"] "" "alice"
    let s := run asciiRuntime .empty [(1000, .upsertFromMecp beacon)]
    AckTakesEffect asciiRuntime s id "bob" 2000 none ∧ ConfirmTakesEffect asciiRuntime s id 2000 := by
  intro beacon id s
  have h := (@acknowledgement_takes_effect asciiRuntime
    [(1000, .upsertFromMecp beacon)]).2 (by
      intro before op after hsplit id inc inc' hget
      cases before with
      | nil => cases hget
      | cons first rest => simp at hsplit) id
    (createIncident asciiRuntime beacon 0 "" id 1000) (by decide +kernel) (by decide +kernel) 2000
  exact ⟨h.1 "bob" none (by decide +kernel), h.2⟩

-- Acknowledged, resolved and reported again: the second acknowledgement changes nothing.
theorem reopened_acknowledgement_ignored :
    let beacon := heardReport "alice" 0 ["B01"] "" 1000
    let again := heardReport "alice" 0 ["B01"] "" 400000
    let id := incidentFingerprint asciiRuntime 0 ["B01"] "" "alice"
    let s := run asciiRuntime .empty
      [(1000, .upsertFromMecp beacon), (2000, .recordAck id "bob" none), (3000, .confirmBeacon id),
        (4000, .resolveIncident id none), (400000, .upsertFromMecp again)]
    (∃ inc ∈ s.incidents.get? id, inc.status ≠ .resolved ∧ inc.senderId ≠ "bob") ∧
      ¬AckTakesEffect asciiRuntime s id "bob" 500000 none ∧
      ¬ConfirmTakesEffect asciiRuntime s id 500000 := by
  decide +kernel

end MeshClient.Incident
