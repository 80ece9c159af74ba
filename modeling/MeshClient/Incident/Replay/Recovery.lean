import MeshClient.Incident.Capacity
import MeshClient.Incident.Replay

namespace MeshClient.Incident

open Lists Mecp Js

variable {js : Runtime} {reordered : String → Bool}

-- The row is there, unresolved, and nothing an operator saw of it is missing.
def Recovered (inc row : EmergencyIncident) : Prop :=
  row.status ≠ .resolved ∧ row.severity ≤ inc.severity ∧ inc.ackPeerIds ⊆ row.ackPeerIds ∧
    inc.messageIds ⊆ row.messageIds

instance (inc row : EmergencyIncident) : Decidable (Recovered inc row) :=
  inferInstanceAs (Decidable (_ ∧ _ ∧ (∀ x ∈ _, x ∈ _) ∧ (∀ x ∈ _, x ∈ _)))

theorem Recovered.refl {inc : EmergencyIncident} (h : inc.status ≠ .resolved) :
    Recovered inc inc :=
  ⟨h, le_refl _, List.Subset.refl _, List.Subset.refl _⟩

@[simp] theorem mergeRow_base_status (before after : EmergencyIncident) :
    (mergeRow (some before) after before).status =
      if staysResolved before after then before.status else after.status := by
  simp [mergeRow, settleRow, mergeFields, mergeField]

@[simp] theorem mergeRow_base_isDrill (before after : EmergencyIncident) :
    (mergeRow (some before) after before).isDrill = after.isDrill := by
  simp [mergeRow, settleRow, mergeFields, mergeField]

@[simp] theorem mergeRow_base_severity (before after : EmergencyIncident) :
    (mergeRow (some before) after before).severity = min before.severity after.severity := by
  simp [mergeRow, settleRow, mergeFields, mergeField]

theorem mergeRow_base_ackPeerIds (before after : EmergencyIncident) :
    after.ackPeerIds ⊆ (mergeRow (some before) after before).ackPeerIds :=
  ThreeWay.subset_list_base before.ackPeerIds after.ackPeerIds

-- The message ids are those of `after`, so the cap has nothing to drop.
theorem mergeRow_base_messageIds (before : EmergencyIncident) {after : EmergencyIncident}
    (h : MessageIdsSound after.messageIds) :
    after.messageIds ⊆ (mergeRow (some before) after before).messageIds := by
  have hperm : (ThreeWay.list (some before.messageIds) after.messageIds before.messageIds).Perm
      after.messageIds := ThreeWay.list_base_perm h.1
  have hlen := hperm.length_eq.trans_le h.2
  have heq : (mergeRow (some before) after before).messageIds =
      ThreeWay.list (some before.messageIds) after.messageIds before.messageIds :=
    lastN_of_length_le hlen
  rw [heq]
  exact hperm.symm.subset

theorem mergeRow_base_recovered_iff {before after : EmergencyIncident}
    (h : MessageIdsSound after.messageIds) (hopen : after.status ≠ .resolved) :
    Recovered after (mergeRow (some before) after before) ↔
      (before.status = .resolved →
        hasEventAfter .reopened (closedAt before + INCIDENT_REOPEN_GRACE_MS) after = true) := by
  have hstatus : (mergeRow (some before) after before).status ≠ .resolved ↔
      (before.status = .resolved →
        hasEventAfter .reopened (closedAt before + INCIDENT_REOPEN_GRACE_MS) after = true) := by
    rw [mergeRow_base_status]
    cases hre : hasEventAfter .reopened (closedAt before + INCIDENT_REOPEN_GRACE_MS) after with
    | true => simp [staysResolved, hre, hopen]
    | false =>
        by_cases hb : before.status = .resolved
        · simp [staysResolved, hre, hopen, hb]
        · simp [staysResolved, hb, hopen]
  rw [← hstatus]
  refine ⟨fun hr => hr.1, fun hs => ⟨hs, ?_, mergeRow_base_ackPeerIds _ _,
    mergeRow_base_messageIds before h⟩⟩
  rw [mergeRow_base_severity]
  exact min_le_right _ _

-- What the journal must still show for an unresolved row to survive a replay over the snapshot
-- it started from: that it was reopened, if the database calls it closed.
def ShowsReopen (baseline : IncidentSnapshot) (id : String) (inc : EmergencyIncident) : Prop :=
  match baseline.incidents.get? id with
  | some before => before.status = .resolved →
      hasEventAfter .reopened (closedAt before + INCIDENT_REOPEN_GRACE_MS) inc = true
  | none => ∀ time ∈ baseline.resolvedTombstones.get? id,
      hasEventAfter .reopened (time + INCIDENT_REOPEN_GRACE_MS) inc = true

theorem replayRow_base_recovered_iff {s v : IncidentSnapshot} {id : String}
    {inc : EmergencyIncident} (hget : v.incidents.get? id = some inc)
    (hids : MessageIdsSound inc.messageIds) (hopen : inc.status ≠ .resolved) :
    (∃ row ∈ (replayRows reordered ⟨s, v⟩ s).get? id, Recovered inc row) ↔ ShowsReopen s id inc := by
  rw [replayRows_get?, hget, ShowsReopen]
  cases hb : s.incidents.get? id with
  | none =>
      simp only [replayRow, sameRow, isSwallowed, reduceCtorEq, decide_false, Bool.false_and,
        Bool.false_eq_true, if_false]
      cases ht : s.resolvedTombstones.get? id with
      | none => simp [Recovered.refl hopen]
      | some time =>
          cases hre : hasEventAfter .reopened (time + INCIDENT_REOPEN_GRACE_MS) inc with
          | true => simp [hre, Recovered.refl hopen]
          | false => simp [hre]
  | some before =>
      unfold replayRow
      split_ifs with hsame
      · have heq : before = inc := by
          simp only [sameRow, Bool.and_eq_true, decide_eq_true_eq, Option.some.injEq] at hsame
          exact hsame.1
        subst heq
        simp [Recovered.refl hopen, hopen]
      · simp only [Option.mem_some_iff, exists_eq_left', mergeRow_base_recovered_iff hids hopen]

-- Replayed over the snapshot it started from, a journal gives back rows of its own value.
theorem replayRows_base_get? {s v : IncidentSnapshot} {id : String} {row : EmergencyIncident}
    (hrow : (replayRows reordered ⟨s, v⟩ s).get? id = some row) :
    ∃ inc, v.incidents.get? id = some inc ∧
      (row = inc ∨ ∃ before, row = mergeRow (some before) inc before) := by
  rw [replayRows_get?] at hrow
  unfold replayRow at hrow
  split_ifs at hrow with hsame
  · simp only [sameRow, Bool.and_eq_true, decide_eq_true_eq] at hsame
    exact ⟨row, hsame.1 ▸ hrow, .inl rfl⟩
  · split at hrow
    · cases hrow
    · rename_i inc hv hb
      split_ifs at hrow
      exact ⟨inc, hv, .inl (Option.some.inj hrow).symm⟩
    · rename_i inc before hv hb
      rw [hb] at hrow
      exact ⟨inc, hv, .inr ⟨before, (Option.some.inj hrow).symm⟩⟩

theorem replayRows_base_keys (s v : IncidentSnapshot) :
    (replayRows reordered ⟨s, v⟩ s).keys ⊆ v.incidents.keys := by
  intro id hid
  obtain ⟨row, hrow⟩ := (OrderedMap.mem_keys_iff _ _).mp hid
  obtain ⟨inc, hv, _⟩ := replayRows_base_get? hrow
  exact (OrderedMap.mem_keys_iff _ _).mpr ⟨inc, hv⟩

theorem replayRows_base_ownIds {s v : IncidentSnapshot} (hid : OwnIds v.incidents) :
    OwnIds (replayRows reordered ⟨s, v⟩ s) := by
  intro id row hrow
  obtain ⟨inc, hv, rfl | ⟨before, rfl⟩⟩ := replayRows_base_get? hrow
  · exact hid id row hv
  · simpa [mergeRow, settleRow, mergeFields, mergeField] using hid id inc hv

-- Pruning the replayed rows drops no unresolved one: where there are too many rows, all of
-- them are MAYDAY or URGENT.
theorem replay_base_keeps_unresolved {s v : IncidentSnapshot} (hv : Reachable js v) {id : String}
    {row : EmergencyIncident} (hrow : (replayRows reordered ⟨s, v⟩ s).get? id = some row)
    (hopen : row.status ≠ .resolved) :
    (replayIncidentChanges js reordered ⟨s, v⟩ s).incidents.get? id = some row := by
  have hown : OwnIds (replayRows reordered ⟨s, v⟩ s) := replayRows_base_ownIds hv.ownIds
  have hid := hown id row hrow
  by_contra hdrop
  rw [replayIncidentChanges, ← hid] at hdrop
  obtain ⟨hover, _, hcrit⟩ := pruneIncidents_dropped js hown _ (hid ▸ hrow) hdrop
  have hmany := hover.trans_le (OrderedMap.size_le_of_keys_subset _ _ (replayRows_base_keys s v))
  obtain ⟨inc, hget, hfrom⟩ := replayRows_base_get? hrow
  obtain ⟨hdrill, hsev⟩ := hv.overCapCritical hmany id inc hget
  have hrowDrill : row.isDrill = false := by
    rcases hfrom with rfl | ⟨before, rfl⟩
    · exact hdrill
    · rwa [mergeRow_base_isDrill]
  have hrowSev : row.severity ≤ 1 := by
    rcases hfrom with rfl | ⟨before, rfl⟩
    · exact hsev
    · rw [mergeRow_base_severity]
      exact (min_le_right _ _).trans hsev
  simp [isOpenCritical, isUnresolved, hopen, hrowDrill, hrowSev] at hcrit

-- After a crash an unresolved row comes back from the journal with everything it had, exactly
-- when it shows a reopen later than whatever in the saved snapshot calls it closed.
theorem recovery_keeps_emergency_iff {s : IncidentSnapshot} (h : Reachable js s)
    (ops : List TimedOp) {id : String} {inc : EmergencyIncident}
    (hget : (run js s ops).incidents.get? id = some inc) (hopen : inc.status ≠ .resolved) :
    (∃ row ∈ (replayIncidentChanges js reordered ⟨s, run js s ops⟩ s).incidents.get? id,
        Recovered inc row) ↔ ShowsReopen s id inc := by
  have hv := h.run ops
  rw [← replayRow_base_recovered_iff hget (hv.invariant.rows id inc hget).messageIds hopen]
  constructor
  · rintro ⟨row, hrow, hrec⟩
    exact ⟨row, pruneIncidents_get? js (replayRows_base_ownIds hv.ownIds) _ hrow, hrec⟩
  · rintro ⟨row, hrow, hrec⟩
    exact ⟨row, replay_base_keeps_unresolved hv hrow hrec.1, hrec⟩

-- A report the first save did not get through for.
theorem recovery_keeps_emergency_iff_unsaved :
    let mayday := heardReport "alice" 0 ["M01"] "broken leg" 1000
    let id := incidentFingerprint asciiRuntime 0 ["M01"] "broken leg" "alice"
    let row := createIncident asciiRuntime mayday 0 "broken leg" id 1000
    let v := run asciiRuntime .empty [(1000, .upsertFromMecp mayday)]
    ∃ kept ∈ (replayIncidentChanges asciiRuntime (fun _ => false) ⟨.empty, v⟩ .empty).incidents.get? id,
      Recovered row kept := by
  intro mayday id row v
  exact (recovery_keeps_emergency_iff ⟨[], rfl⟩ [(1000, .upsertFromMecp mayday)]
    (by decide +kernel) (by decide +kernel)).mpr (by intro time htime; cases htime)

-- Resolved, cleared away and reported again, with the save of the second report or of both
-- the clearing and the report failing: the new emergency is dropped, or comes back resolved.
theorem recovery_loses_new_emergency :
    let mayday := fun time => heardReport "alice" 0 ["M01"] "broken leg" time
    let id := incidentFingerprint asciiRuntime 0 ["M01"] "broken leg" "alice"
    let resolved := run asciiRuntime .empty
      [(1000, .upsertFromMecp (mayday 1000)), (2000, .resolveIncident id none)]
    let cleared := run asciiRuntime resolved [(3000, .clearAll)]
    let again := run asciiRuntime cleared [(9000000, .upsertFromMecp (mayday 9000000))]
    let recovered := fun s => (replayIncidentChanges asciiRuntime (fun _ => false) ⟨s, again⟩ s).incidents
    again.incidents.values.map EmergencyIncident.status = [.«open»] ∧
      (recovered cleared).values = [] ∧
      (recovered resolved).values.map EmergencyIncident.status = [.resolved] := by
  decide +kernel

end MeshClient.Incident
