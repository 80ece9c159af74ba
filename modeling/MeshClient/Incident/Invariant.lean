import MeshClient.Incident.Steps

namespace MeshClient.Incident

open Lists Mecp Js

structure AcksSound (senderId : String) (ackPeerIds : List String) (ackCount : Nat) : Prop where
  count_eq : ackCount = ackPeerIds.length
  nodup : ackPeerIds.Nodup
  sender_notMem : senderId ∉ ackPeerIds

def ProtocolsSound (protocol : MeshProtocol) (protocolsSeen : List MeshProtocol) : Prop :=
  protocolsSeen.Nodup ∧ protocol ∈ protocolsSeen

def MessageIdsSound (messageIds : List String) : Prop :=
  messageIds.Nodup ∧ messageIds.length ≤ MAX_MESSAGE_IDS_PER_INCIDENT

def RelaysSound (senderId : String) (relaySenderIds : Option (List String)) : Prop :=
  (relaySenderIds.getD []).length ≤ MAX_RELAY_SENDERS ∧ senderId ∉ relaySenderIds.getD [] ∧
    (relaySenderIds.getD []).Nodup

def StatusSound (status : IncidentStatus) (resolvedAt : Option Int) (beaconActive : Bool) : Prop :=
  (status = .resolved ↔ resolvedAt.isSome) ∧ (status = .resolved → beaconActive = false)

def CoordsSound (lat lon : Option ℚ) (coordsSource : Option CoordsSource) : Prop :=
  (lat.isSome ↔ coordsSource.isSome) ∧ (lon.isSome ↔ coordsSource.isSome)

def TimelineSound (first : IncidentEvent) (events : Option (List IncidentEvent)) : Prop :=
  ∃ rest, events = some (first :: rest) ∧ (first :: rest).length ≤ MAX_EVENTS_PER_INCIDENT

-- The entry the row was opened with. None of the fields it is read from ever changes.
def originalEvent (inc : EmergencyIncident) : IncidentEvent where
  «at» := inc.receivedAt
  kind := .received
  peerId := some inc.senderId
  protocol := inc.protocolsSeen.head?

structure IncidentInvariant (inc : EmergencyIncident) : Prop where
  acks : AcksSound inc.senderId inc.ackPeerIds inc.ackCount
  protocols : ProtocolsSound inc.protocol inc.protocolsSeen
  messageIds : MessageIdsSound inc.messageIds
  relays : RelaysSound inc.senderId inc.relaySenderIds
  status : StatusSound inc.status inc.resolvedAt inc.beaconActive
  coords : CoordsSound inc.lat inc.lon inc.coordsSource
  timeline : TimelineSound (originalEvent inc) inc.events

structure StoreInvariant (s : IncidentSnapshot) : Prop where
  ownIds : OwnIds s.incidents
  rows : ∀ k inc, s.incidents.get? k = some inc → IncidentInvariant inc

theorem TimelineSound.append {first : IncidentEvent} {events : Option (List IncidentEvent)}
    (h : TimelineSound first events) (hk : first.kind = .received) (event : IncidentEvent) :
    TimelineSound first (some (appendEvent events event)) := by
  obtain ⟨rest, rfl, hlen⟩ := h
  have hmax : MAX_EVENTS_PER_INCIDENT = 500 := by unfold MAX_EVENTS_PER_INCIDENT; rfl
  simp only [appendEvent, Option.getD_some, List.cons_append, List.length_cons, List.length_append,
    List.length_nil, hk, if_true] at *
  split_ifs with hcap
  · exact ⟨rest ++ [event], rfl, by simpa using hcap⟩
  · refine ⟨_, rfl, ?_⟩
    have hl := lastN_length_le (MAX_EVENTS_PER_INCIDENT - 1) (first :: (rest ++ [event]))
    simp only [List.length_cons]
    omega

theorem TimelineSound.mergeEvents {inc : EmergencyIncident}
    (h : TimelineSound (originalEvent inc) inc.events) (input : MecpIncidentInput) (now : Int) :
    TimelineSound (originalEvent inc) (mergeEvents input inc now) := by
  have hreopened : TimelineSound (originalEvent inc) (if reopens inc now then
      some (appendEvent inc.events (heardEvent input .reopened now)) else inc.events) := by
    split
    · exact h.append rfl _
    · exact h
  simp only [Incident.mergeEvents]
  split
  · exact hreopened.append rfl _
  · exact hreopened

theorem AcksSound.add {senderId peerId : String} {peers : List String} {count : Nat}
    (h : AcksSound senderId peers count) (hs : senderId ≠ peerId) (hnew : peerId ∉ peers) :
    AcksSound senderId (peers ++ [peerId]) (peers ++ [peerId]).length where
  count_eq := rfl
  nodup := h.nodup.append (List.nodup_singleton peerId) (by simpa using hnew)
  sender_notMem := by simp [h.sender_notMem, hs]

theorem MessageIdsSound.merge {ids : List String} (h : MessageIdsSound ids)
    (messageId : Option String) : MessageIdsSound (mergeMessageIds messageId ids) := by
  unfold mergeMessageIds
  split
  · rename_i id
    split_ifs with hnew
    · have hid : id ∉ ids := by simpa using hnew.2
      exact ⟨(h.1.append (List.nodup_singleton id) (by simpa using hid)).sublist
        (lastN_sublist _ _), lastN_length_le _ _⟩
    · exact h
  · exact h

theorem RelaysSound.add {senderId relay : String} {relays : Option (List String)}
    (h : RelaysSound senderId relays) (hne : senderId ≠ relay) :
    RelaysSound senderId
      (some (lastN MAX_RELAY_SENDERS (unique (relays.getD [] ++ [relay])))) := by
  refine ⟨lastN_length_le _ _, fun hm => ?_, (unique_nodup _).sublist (lastN_sublist _ _)⟩
  have hm := (lastN_sublist _ _).subset hm
  simp only [mem_unique, List.mem_append, List.mem_singleton] at hm
  exact hm.elim h.2.1 hne

theorem ProtocolsSound.see {protocol : MeshProtocol} {seen : List MeshProtocol}
    (h : ProtocolsSound protocol seen) (next : MeshProtocol) :
    ProtocolsSound next (if seen.contains next then seen else seen ++ [next]) := by
  split_ifs with hm
  · exact ⟨h.1, by simpa using hm⟩
  · have hn : next ∉ seen := by simpa using hm
    exact ⟨h.1.append (List.nodup_singleton next) (by simpa using hn), by simp⟩

theorem CoordsSound.of_source (msgCoords lastKnown : Option Coords) :
    CoordsSound ((msgCoords.or lastKnown).map Coords.lat) ((msgCoords.or lastKnown).map Coords.lon)
      (coordsSourceOf msgCoords lastKnown) := by
  cases msgCoords <;> cases lastKnown <;> simp [CoordsSound, coordsSourceOf]

theorem head?_see {seen : List MeshProtocol} {protocol : MeshProtocol} (hm : protocol ∈ seen)
    (next : MeshProtocol) :
    (if seen.contains next then seen else seen ++ [next]).head? = seen.head? := by
  cases seen with
  | nil => simp at hm
  | cons first rest => split <;> rfl

variable {js : Runtime}

theorem createIncident_invariant (input : MecpIncidentInput) (severity : Severity)
    (freetext id : String) (now : Int) :
    IncidentInvariant (createIncident js input severity freetext id now) where
  acks := ⟨rfl, List.nodup_nil, List.not_mem_nil⟩
  protocols := ⟨List.nodup_singleton _, List.mem_singleton_self _⟩
  messageIds := by
    simp only [createIncident, MessageIdsSound]
    unfold MAX_MESSAGE_IDS_PER_INCIDENT
    cases input.messageId.filter (· ≠ "") <;> simp
  relays := ⟨Nat.zero_le _, List.not_mem_nil, List.nodup_nil⟩
  status := by simp [createIncident, StatusSound]
  coords := CoordsSound.of_source _ _
  timeline := ⟨[], rfl, by unfold MAX_EVENTS_PER_INCIDENT; simp⟩

theorem mergeIncident_originalEvent {inc : EmergencyIncident}
    (h : ProtocolsSound inc.protocol inc.protocolsSeen) (input : MecpIncidentInput)
    (severity : Severity) (freetext : String) (now : Int) :
    originalEvent (mergeIncident js input severity freetext now inc) = originalEvent inc := by
  simp only [originalEvent, mergeIncident, head?_see h.2]

theorem mergeIncident_invariant {inc : EmergencyIncident} (h : IncidentInvariant inc)
    (input : MecpIncidentInput) (severity : Severity) (freetext : String) (now : Int)
    (hreopen : inc.status = .resolved → reopens inc now = true) :
    IncidentInvariant (mergeIncident js input severity freetext now inc) where
  acks := h.acks
  protocols := h.protocols.see _
  messageIds := h.messageIds.merge _
  relays := by
    simp only [mergeIncident]
    split_ifs with hr
    · exact h.relays.add (by simpa [isRelayOf] using hr)
    · exact h.relays
  status := by
    -- a row that stays resolved is not merged into, so only the reopened case is new
    simp only [mergeIncident, StatusSound]
    cases hr : reopens inc now with
    | true => simp
    | false =>
        have hs : inc.status ≠ .resolved := fun he => by simp [hreopen he] at hr
        simp only [Bool.false_eq_true, if_false]
        exact ⟨h.status.1, fun he => absurd he hs⟩
  coords := by
    simp only [mergeIncident]
    generalize (if isRelayOf input inc = true then none else input.lastKnown) = lastKnown
    split_ifs
    · exact h.coords
    · exact CoordsSound.of_source _ _
  timeline := by
    have ht := h.timeline.mergeEvents input now
    rwa [mergeIncident_originalEvent h.protocols]

-- One step of a row keeps its invariant.
theorem RowStep.invariant {inc inc' : EmergencyIncident} (hstep : RowStep js inc inc')
    (h : IncidentInvariant inc) : IncidentInvariant inc' := by
  cases hstep with
  | acked peerId time hopen hsender hnew =>
      have hc : ¬inc.ackPeerIds.contains peerId = true := by simpa using hnew
      rw [withAck, if_neg hc]
      refine { h with acks := h.acks.add hsender hnew, status := ?_, timeline := h.timeline.append rfl _ }
      have hr : ¬inc.resolvedAt.isSome = true := fun hr => hopen (h.status.1.mpr hr)
      simp only [StatusSound]
      split_ifs <;> simp_all
  | confirmed clock =>
      refine { h with status := ?_, timeline := h.timeline.append rfl _ }
      have hs := h.status
      simp only [StatusSound, confirmBeaconRow] at hs ⊢
      split_ifs <;> simp_all
  | closed time hopen =>
      exact { h with
        status := ⟨by simp [resolveRow], fun _ => rfl⟩
        timeline := h.timeline.append rfl _ }
  | seen time hnew => exact { h with }
  | beaconCancelled input now hcancel =>
      exact { h with
        status := ⟨h.status.1, fun _ => rfl⟩
        timeline := h.timeline.append rfl _ }
  | merged input severity freetext now hreopen =>
      exact mergeIncident_invariant h input severity freetext now hreopen

-- What a row never takes back: how it was opened, and how severe it has been reported.
structure StaysReported (inc inc' : EmergencyIncident) : Prop where
  originalEvent_eq : originalEvent inc' = originalEvent inc
  severity_le : inc'.severity ≤ inc.severity

theorem StaysReported.refl (inc : EmergencyIncident) : StaysReported inc inc :=
  ⟨rfl, le_refl _⟩

theorem StaysReported.trans {a b c : EmergencyIncident} (hab : StaysReported a b)
    (hbc : StaysReported b c) : StaysReported a c :=
  ⟨hbc.1.trans hab.1, hbc.2.trans hab.2⟩

theorem RowStep.staysReported {inc inc' : EmergencyIncident} (hstep : RowStep js inc inc')
    (h : IncidentInvariant inc) : StaysReported inc inc' := by
  cases hstep with
  | acked peerId time hopen hsender hnew =>
      unfold withAck
      split
      · exact .refl inc
      · exact ⟨rfl, le_refl _⟩
  | merged input severity freetext now =>
      exact ⟨mergeIncident_originalEvent h.protocols .., min_le_left _ _⟩
  | _ => exact ⟨rfl, le_refl _⟩

theorem StoreInvariant.empty : StoreInvariant .empty :=
  ⟨OwnIds.empty, fun k inc h => by simp [IncidentSnapshot.empty] at h⟩

-- Every row of the next state is an old one, an old one after one row step, or a new one.
theorem StoreInvariant.step {s : IncidentSnapshot} (h : StoreInvariant s) (op : TimedOp) :
    StoreInvariant (step js s op) where
  ownIds := step_ownIds h.ownIds op
  rows := by
    intro k inc' hget
    rcases step_rowsFollow h.ownIds op k inc' hget with
      ⟨inc, hold, hstep⟩ | ⟨_, input, severity, freetext, now, _, rfl⟩
    · cases hstep with
      | refl => exact h.rows k inc' hold
      | single hstep => exact hstep.invariant (h.rows k inc hold)
    · exact createIncident_invariant input severity freetext k now

theorem Reachable.invariant {s : IncidentSnapshot} (h : Reachable js s) : StoreInvariant s :=
  Run.Reachable.invariant h StoreInvariant.empty fun _ op hs => hs.step op

theorem Reachable.run {s : IncidentSnapshot} (h : Reachable js s) (ops : List TimedOp) :
    Reachable js (run js s ops) :=
  Run.Reachable.run h ops

theorem StoreInvariant.step_staysReported {s : IncidentSnapshot} (h : StoreInvariant s)
    (op : TimedOp) {id : String} {inc inc' : EmergencyIncident}
    (hget : s.incidents.get? id = some inc)
    (hnext : (Incident.step js s op).incidents.get? id = some inc') : StaysReported inc inc' := by
  rcases step_rowsFollow h.ownIds op id inc' hnext with ⟨old, hold, hstep⟩ | ⟨hnone, _⟩
  · cases hget.symm.trans hold
    cases hstep with
    | refl => exact .refl inc
    | single hstep => exact hstep.staysReported (h.rows id inc hget)
  · exact absurd (hnone.symm.trans hget) (by simp)

-- The row is in the store before, between and after the operations.
def Stays (js : Runtime) (id : String) (s : IncidentSnapshot) (ops : List TimedOp) : Prop :=
  Run.Visits (Incident.step js) (fun s => id ∈ s.incidents.keys) s ops

instance (js : Runtime) (id : String) (s : IncidentSnapshot) (ops : List TimedOp) :
    Decidable (Stays js id s ops) :=
  inferInstanceAs (Decidable (Run.Visits _ _ s ops))

theorem StoreInvariant.run_staysReported {s : IncidentSnapshot} (h : StoreInvariant s)
    {id : String} {ops : List TimedOp} (hstays : Stays js id s ops)
    {inc inc' : EmergencyIncident} (hget : s.incidents.get? id = some inc)
    (hlast : (run js s ops).incidents.get? id = some inc') : StaysReported inc inc' := by
  suffices hinv : StoreInvariant (run js s ops) ∧
      ∀ row, (run js s ops).incidents.get? id = some row → StaysReported inc row from
    hinv.2 inc' hlast
  apply Run.invariant_of_visits (P := fun s => StoreInvariant s ∧
    ∀ row, s.incidents.get? id = some row → StaysReported inc row) _ hstays
  · exact ⟨h, fun row hrow => by cases hget.symm.trans hrow; exact .refl inc⟩
  · intro s op hq _ hinv
    refine ⟨hinv.1.step op, fun row hrow => ?_⟩
    obtain ⟨before, hbefore⟩ := (OrderedMap.mem_keys_iff _ _).mp hq
    exact (hinv.2 before hbefore).trans (hinv.1.step_staysReported op hbefore hrow)

end MeshClient.Incident
