import MeshClient.Incident.Capacity
import MeshClient.Incident.Replay

namespace MeshClient.Incident

open Lists Mecp Js

variable {js : Runtime} {reordered : String → Bool}

-- Sorting the events by time and merging equal ones.
def EventsTidied (events tidied : Option (List IncidentEvent)) : Prop :=
  tidied = events ∨ tidied = events.map sortEvents ∨
    tidied = events.map fun events => sortEvents (unique events)

def RowTidied (inc row : EmergencyIncident) : Prop :=
  ∃ events, row = { inc with events := events } ∧ EventsTidied inc.events events

-- The same rows and tombstones, up to the order and repetition of events.
def SameContent (v r : IncidentSnapshot) : Prop :=
  (∀ id, Option.Rel RowTidied (v.incidents.get? id) (r.incidents.get? id)) ∧
    ∀ id, r.resolvedTombstones.get? id = v.resolvedTombstones.get? id

-- The codes of the row were not written since the baseline, or none of them is repeated.
def CodesSettled (before : Option EmergencyIncident) (inc : EmergencyIncident) : Prop :=
  before.map EmergencyIncident.codes = some inc.codes ∨ inc.codes.Nodup

theorem orderEvents_eq {events : List IncidentEvent}
    (h : events.length ≤ MAX_EVENTS_PER_INCIDENT) : orderEvents events = sortEvents events := by
  have hlen : (sortEvents events).length ≤ MAX_EVENTS_PER_INCIDENT := by
    simpa [sortEvents] using h
  simp only [orderEvents, if_pos hlen]

theorem EventsTidied.merged (before : Option (List IncidentEvent)) {first : IncidentEvent}
    {events : Option (List IncidentEvent)} (h : TimelineSound first events) :
    EventsTidied events ((ThreeWay.optionalList before events events).map orderEvents) := by
  obtain ⟨rest, rfl, hlen⟩ := h
  rw [ThreeWay.optionalList_self]
  split_ifs
  · exact .inr (.inl (by rw [Option.map_some, orderEvents_eq hlen]; rfl))
  · refine .inr (.inr ?_)
    rw [Option.map_some, Option.map_some, orderEvents_eq ((unique_sublist _).length_le.trans hlen)]
    rfl

-- Merging a well-formed row into itself settles its codes and tidies its events.
theorem mergeRow_self (before : Option EmergencyIncident) {inc : EmergencyIncident}
    (h : IncidentInvariant inc) :
    mergeRow before inc inc = { inc with
      codes := ThreeWay.list (before.map EmergencyIncident.codes) inc.codes inc.codes
      events := (ThreeWay.optionalList (before.bind EmergencyIncident.events) inc.events
        inc.events).map orderEvents } := by
  have hstays : staysResolved inc inc = false := by
    cases hs : inc.status <;> simp [staysResolved, hs]
  simp only [mergeRow, settleRow, mergeFields, mergeField, mergeOptional, mergeArray,
    mergeOptionalArray, ThreeWay.value_self, ThreeWay.optional_self, hstays, Bool.false_eq_true,
    if_false, min_self, max_self, ThreeWay.list_self_of_nodup _ h.protocols.1,
    ThreeWay.list_self_of_nodup _ h.messageIds.1, ThreeWay.list_self_of_nodup _ h.acks.nodup,
    ThreeWay.optionalList_self_of_nodup _ h.relays.2.2, lastN_of_length_le h.messageIds.2,
    ← h.acks.count_eq]

theorem mergeRow_self_tidied_iff (before : Option EmergencyIncident) {inc : EmergencyIncident}
    (h : IncidentInvariant inc) : RowTidied inc (mergeRow before inc inc) ↔ CodesSettled before inc := by
  have hcodes : ThreeWay.list (before.map EmergencyIncident.codes) inc.codes inc.codes = inc.codes ↔
      CodesSettled before inc := by
    rw [ThreeWay.list_self, CodesSettled]
    split_ifs with hc
    · simp [hc]
    · simp [hc, unique_eq_self_iff]
  rw [mergeRow_self before h, ← hcodes]
  constructor
  · rintro ⟨events, heq, _⟩
    exact congrArg EmergencyIncident.codes heq
  · intro heq
    exact ⟨_, by rw [heq], .merged _ h.timeline⟩

theorem replayRow_saved_iff {before after : Option EmergencyIncident} (flag : Bool)
    (tombstone : Option Int) (h : ∀ inc, after = some inc → IncidentInvariant inc) :
    Option.Rel RowTidied after (replayRow flag tombstone before after after) ↔
      ∀ inc, after = some inc → CodesSettled before inc := by
  unfold replayRow
  split_ifs with hsame
  · simp only [sameRow, Bool.and_eq_true, decide_eq_true_eq] at hsame
    cases after with
    | none => exact iff_of_true .none (fun _ h => absurd h (by simp))
    | some inc =>
        refine iff_of_true (.some ⟨inc.events, rfl, .inl rfl⟩) ?_
        rintro _ ⟨⟩
        exact .inl (by rw [hsame.1]; rfl)
  · cases after with
    | none => exact iff_of_true .none (fun _ h => absurd h (by simp))
    | some inc =>
        simp only [Option.some.injEq, forall_eq', Option.rel_some_some,
          mergeRow_self_tidied_iff before (h inc rfl)]

theorem replayTombstone_saved (before after : Option Int) :
    replayTombstone before after after = after := by
  cases after with
  | none => simp [replayTombstone]
  | some after => simp [replayTombstone]

-- Replaying a journal that was saved already gives the saved rows and tombstones back exactly
-- when no row whose codes were written since the baseline repeats one of them.
theorem replay_saved_noop_iff {s : IncidentSnapshot} (h : Reachable js s) (ops : List TimedOp)
    (hsize : (run js s ops).incidents.size ≤ MAX_INCIDENTS) :
    SameContent (run js s ops)
        (replayIncidentChanges js reordered ⟨s, run js s ops⟩ (run js s ops)) ↔
      ∀ id inc, (run js s ops).incidents.get? id = some inc →
        CodesSettled (s.incidents.get? id) inc := by
  have hv := h.run ops
  generalize run js s ops = v at hv hsize ⊢
  have hrows := fun id => @replayRow_saved_iff (s.incidents.get? id) _ (reordered id)
    (v.resolvedTombstones.get? id) (hv.invariant.rows id)
  have htombs : ∀ id, (replayTombstones ⟨s, v⟩ v).get? id = v.resolvedTombstones.get? id :=
    fun id => by rw [replayTombstones_get?, replayTombstone_saved]
  have hkeys : (replayRows reordered ⟨s, v⟩ v).keys ⊆ v.incidents.keys := by
    intro id hid
    obtain ⟨row, hrow⟩ := (OrderedMap.mem_keys_iff _ _).mp hid
    rw [replayRows_get?] at hrow
    cases hget : v.incidents.get? id with
    | some inc => exact (OrderedMap.mem_keys_iff _ _).mpr ⟨inc, hget⟩
    | none => simp [hget, replayRow] at hrow
  have htombKeys : (replayTombstones ⟨s, v⟩ v).keys ⊆ v.resolvedTombstones.keys := by
    intro id hid
    rw [OrderedMap.mem_keys_iff] at hid ⊢
    simpa only [htombs id] using hid
  have hfew : (replayTombstones ⟨s, v⟩ v).size ≤ MAX_RESOLVED_TOMBSTONES :=
    (OrderedMap.size_le_of_keys_subset _ _ htombKeys).trans hv.tombstonesBounded
  have hprune : pruneTombstones (replayTombstones ⟨s, v⟩ v) = replayTombstones ⟨s, v⟩ v :=
    if_pos hfew
  rw [replayIncidentChanges, pruneIncidents_of_le js _
    ((OrderedMap.size_le_of_keys_subset _ _ hkeys).trans hsize), hprune]
  simp only [SameContent, htombs, implies_true, and_true, replayRows_get?, hrows]

theorem replay_saved_noop_iff_report :
    let mayday := heardReport "alice" 0 ["M01", "M02"] "broken leg" 1000
    let v := run asciiRuntime .empty [(1000, .upsertFromMecp mayday)]
    SameContent v (replayIncidentChanges asciiRuntime (fun _ => false) ⟨.empty, v⟩ v) := by
  intro mayday v
  refine (replay_saved_noop_iff ⟨[], rfl⟩ [(1000, .upsertFromMecp mayday)] (by decide +kernel)).mpr ?_
  intro id inc hget
  have hall : ∀ inc ∈ v.incidents.values, inc.codes.Nodup := by decide +kernel
  exact .inr (hall inc ((OrderedMap.mem_values_iff _ _).mpr ⟨id, hget⟩))

theorem SameContent.codes_eq {v r : IncidentSnapshot} (h : SameContent v r) {id : String}
    {inc row : EmergencyIncident} (hv : v.incidents.get? id = some inc)
    (hr : r.incidents.get? id = some row) : row.codes = inc.codes := by
  have hrel := h.1 id
  rw [hv, hr, Option.rel_some_some] at hrel
  obtain ⟨events, rfl, _⟩ := hrel
  rfl

-- A new report that names a code twice.
theorem replay_saved_drops_code :
    let mayday := heardReport "alice" 0 ["M01", "M01"] "broken leg" 1000
    let v := run asciiRuntime .empty [(1000, .upsertFromMecp mayday)]
    v.incidents.size ≤ MAX_INCIDENTS ∧
      ¬SameContent v (replayIncidentChanges asciiRuntime (fun _ => false) ⟨.empty, v⟩ v) := by
  intro mayday v
  let id := incidentFingerprint asciiRuntime 0 ["M01", "M01"] "broken leg" "alice"
  let row := createIncident asciiRuntime mayday 0 "broken leg" id 1000
  have hv : v.incidents.get? id = some row := by decide +kernel
  have hr : (replayIncidentChanges asciiRuntime (fun _ => false) ⟨.empty, v⟩ v).incidents.get? id =
      some { row with codes := ["M01"] } := by decide +kernel
  exact ⟨by decide +kernel, fun h => absurd (h.codes_eq hv hr) (by decide)⟩

end MeshClient.Incident
