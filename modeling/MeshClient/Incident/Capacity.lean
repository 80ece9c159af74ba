import MeshClient.Incident.Invariant

namespace MeshClient.Incident

open Lists Mecp Js

-- More rows than the cap allows are there only because none of them may be evicted while it
-- is open.
def OverCapCritical (s : IncidentSnapshot) : Prop :=
  MAX_INCIDENTS < s.incidents.size →
    ∀ k inc, s.incidents.get? k = some inc → inc.isDrill = false ∧ inc.severity ≤ 1

def TombstonesBounded (s : IncidentSnapshot) : Prop :=
  s.resolvedTombstones.size ≤ MAX_RESOLVED_TOMBSTONES

variable {js : Runtime}

theorem RowStep.isDrill_eq {inc inc' : EmergencyIncident} (h : RowStep js inc inc') :
    inc'.isDrill = inc.isDrill := by
  cases h with
  | acked => unfold withAck; split <;> rfl
  | _ => rfl

theorem RowsFollow.isDrill_eq {s s' : IncidentSnapshot} (h : RowsFollow js s s') {k : String}
    {inc inc' : EmergencyIncident} (hget : s.incidents.get? k = some inc)
    (hnext : s'.incidents.get? k = some inc') : inc'.isDrill = inc.isDrill := by
  rcases h k inc' hnext with ⟨old, hold, hstep⟩ | ⟨hnone, _⟩
  · cases hget.symm.trans hold
    cases hstep with
    | refl => rfl
    | single hstep => exact hstep.isDrill_eq
  · exact absurd (hnone.symm.trans hget) (by simp)

theorem OverCapCritical.of_keys_subset {s : IncidentSnapshot} (h : OverCapCritical s)
    (hs : StoreInvariant s) (op : TimedOp)
    (hkeys : (step js s op).incidents.keys ⊆ s.incidents.keys) : OverCapCritical (step js s op) := by
  intro hover k inc' hget
  have hover := hover.trans_le (OrderedMap.size_le_of_keys_subset _ _ hkeys)
  obtain ⟨inc, hold⟩ := (OrderedMap.mem_keys_iff _ _).mp
    (hkeys ((OrderedMap.mem_keys_iff _ _).mpr ⟨inc', hget⟩))
  obtain ⟨hdrill, hsev⟩ := h hover k inc hold
  exact ⟨((step_rowsFollow hs.ownIds op).isDrill_eq hold hget).trans hdrill,
    (hs.step_staysReported op hold hget).severity_le.trans hsev⟩

theorem OverCapCritical.step {s : IncidentSnapshot} (h : OverCapCritical s) (hs : StoreInvariant s)
    (op : TimedOp) : OverCapCritical (step js s op) := by
  have hstore : StoreStep js s (Incident.step js s op) := step_storeStep hs.ownIds op
  cases hstore with
  | kept hkeys => exact h.of_keys_subset hs op hkeys
  | buried id inc time hget hkeys => exact h.of_keys_subset hs op hkeys
  | pruned rows hrows hstep =>
      intro hover k inc hget
      rw [hstep] at hover hget
      have hcrit := pruneIncidents_over js hrows _ hover hget
      simp only [isOpenCritical, Bool.and_eq_true, Bool.not_eq_true', decide_eq_true_eq] at hcrit
      exact ⟨hcrit.1.2, hcrit.2⟩
  | reopened inc row hget hclosed hnext hopen hkeys => exact h.of_keys_subset hs op hkeys

theorem pruneTombstones_bounded (tombs : Tombstones) :
    (pruneTombstones tombs).size ≤ MAX_RESOLVED_TOMBSTONES := by
  rw [size_pruneTombstones]
  exact Nat.min_le_right _ _

theorem TombstonesBounded.step {s : IncidentSnapshot} (h : TombstonesBounded s)
    (hid : OwnIds s.incidents) (op : TimedOp) : TombstonesBounded (step js s op) := by
  have hstore : StoreStep js s (Incident.step js s op) := step_storeStep hid op
  unfold TombstonesBounded at h ⊢
  cases hstore with
  | kept hkeys htombs => rwa [htombs]
  | buried id inc time hget hkeys htombs =>
      rw [htombs]
      exact pruneTombstones_bounded _
  | pruned rows hrows hstep =>
      rw [hstep]
      unfold pruneIncidents
      split_ifs
      · exact h
      · exact pruneTombstones_bounded _
  | reopened inc row hget hclosed hnext hopen hkeys htombs =>
      rw [htombs]
      exact (OrderedMap.size_filter_le _ _).trans h

theorem Reachable.overCapCritical {s : IncidentSnapshot} (h : Reachable js s) :
    OverCapCritical s := by
  suffices hinv : StoreInvariant s ∧ OverCapCritical s from hinv.2
  apply Run.Reachable.invariant (P := fun s => StoreInvariant s ∧ OverCapCritical s) h
  · exact ⟨StoreInvariant.empty, fun _ k inc hget => by cases hget⟩
  · exact fun s op hs => ⟨hs.1.step op, hs.2.step hs.1 op⟩

theorem Reachable.tombstonesBounded {s : IncidentSnapshot} (h : Reachable js s) :
    TombstonesBounded s := by
  suffices hinv : OwnIds s.incidents ∧ TombstonesBounded s from hinv.2
  apply Run.Reachable.invariant (P := fun s => OwnIds s.incidents ∧ TombstonesBounded s) h
  · exact ⟨OwnIds.empty, Nat.zero_le _⟩
  · exact fun s op hs => ⟨step_ownIds hs.1 op, hs.2.step hs.1 op⟩

end MeshClient.Incident
