import MeshClient.Incident.Prune

namespace MeshClient.Incident

open Lists Mecp Js

variable (js : Runtime)

-- Everything an operation can do to one row that stays in the store.
inductive RowStep : EmergencyIncident → EmergencyIncident → Prop
  | acked {inc} (peerId : String) (time : Int) (hopen : inc.status ≠ .resolved)
      (hsender : inc.senderId ≠ peerId) (hnew : peerId ∉ inc.ackPeerIds) :
      RowStep inc (withAck inc peerId time)
  | confirmed {inc} (clock : Int) (hnew : inc.beaconAcked = false) :
      RowStep inc (confirmBeaconRow clock inc)
  | closed {inc} (time : Int) (hopen : inc.status ≠ .resolved) :
      RowStep inc (resolveRow time inc)
  | seen {inc} (time : Int) (hnew : inc.seenAt = none) :
      RowStep inc { inc with seenAt := some time }
  | beaconCancelled {inc} (input : MecpIncidentInput) (now : Int)
      (hcancel : cancelsBeaconOf input now inc = true) :
      RowStep inc (cancelBeaconRow input now inc)
  | merged {inc} (input : MecpIncidentInput) (severity : Severity) (freetext : String) (now : Int)
      (hreopen : inc.status = .resolved → reopens inc now = true) :
      RowStep inc (mergeIncident js input severity freetext now inc)

-- A row of `s'` is one of `s`, as it was or one row step later, or a newly created one.
def RowsFollow (s s' : IncidentSnapshot) : Prop :=
  ∀ k inc', s'.incidents.get? k = some inc' →
    (∃ inc, s.incidents.get? k = some inc ∧ Relation.ReflGen (RowStep js) inc inc') ∨
    (s.incidents.get? k = none ∧ ∃ input severity freetext now,
      k = incidentFingerprint js severity input.parsed.codes freetext input.senderId ∧
      inc' = createIncident js input severity freetext k now)

variable {js}

theorem RowsFollow.refl (s : IncidentSnapshot) : RowsFollow js s s :=
  fun _ inc h => .inl ⟨inc, h, .refl⟩

theorem rowsFollow_set {s : IncidentSnapshot} {k : String} {inc inc' : EmergencyIncident}
    (tombs : Tombstones) (hget : s.incidents.get? k = some inc) (hstep : RowStep js inc inc') :
    RowsFollow js s ⟨s.incidents.set k inc', tombs⟩ := by
  intro k' row h
  rw [OrderedMap.get?_set] at h
  split at h
  · rename_i hk
    subst hk
    exact .inl ⟨inc, hget, Option.some.inj h ▸ .single hstep⟩
  · exact .inl ⟨row, h, .refl⟩

theorem rowsFollow_updateRows {s : IncidentSnapshot} (hid : OwnIds s.incidents)
    (p : EmergencyIncident → Bool) (f : EmergencyIncident → EmergencyIncident)
    (hstep : ∀ inc, p inc = true → RowStep js inc (f inc)) :
    RowsFollow js s { s with
      incidents := s.incidents.setAll ((s.incidents.values.filter p).map fun inc => (inc.id, f inc)) } := by
  intro k row h
  rw [get?_updateRows hid] at h
  obtain ⟨inc, hget, rfl⟩ := Option.map_eq_some_iff.mp h
  refine .inl ⟨inc, hget, ?_⟩
  split
  · exact .single (hstep inc ‹_›)
  · exact .refl

theorem recordAck_rowsFollow {clock : Int} {incidentId peerId : String} {time : Option Int}
    {s s' : IncidentSnapshot} (h : recordAck clock incidentId peerId time s = some s') :
    RowsFollow js s s' := by
  unfold recordAck at h
  split at h
  · cases h
  · rename_i inc hget
    split_ifs at h with hguard hnew
    cases h
    rw [not_or] at hguard
    exact rowsFollow_set _ hget (.acked peerId _ hguard.1 hguard.2 (by simpa using hnew))

theorem confirmBeacon_rowsFollow {clock : Int} {incidentId : String} {s s' : IncidentSnapshot}
    (h : confirmBeacon clock incidentId s = some s') : RowsFollow js s s' := by
  unfold confirmBeacon at h
  split at h
  · cases h
  · rename_i inc hget
    split_ifs at h with hnew
    cases h
    exact rowsFollow_set _ hget (.confirmed clock (by simpa using hnew))

theorem resolveIncident_rowsFollow {clock : Int} {incidentId : String} {time : Option Int}
    {s s' : IncidentSnapshot} (h : resolveIncident js clock incidentId time s = some s') :
    RowsFollow js s s' := by
  unfold resolveIncident at h
  split at h
  · cases h
  · rename_i inc hget
    split_ifs at h with hopen
    cases h
    exact rowsFollow_set _ hget (.closed _ hopen)

theorem markSeen_rowsFollow {clock : Int} {incidentId : String} {time : Option Int}
    {s s' : IncidentSnapshot} (h : markSeen clock incidentId time s = some s') :
    RowsFollow js s s' := by
  unfold markSeen at h
  split at h
  · cases h
  · rename_i inc hget
    split_ifs at h with hnew
    cases h
    exact rowsFollow_set _ hget (.seen _ (by simpa using hnew))

theorem markAllSeen_rowsFollow {clock : Int} {time : Option Int} {s s' : IncidentSnapshot}
    (hid : OwnIds s.incidents) (h : markAllSeen clock time s = some s') : RowsFollow js s s' := by
  simp only [markAllSeen] at h
  split_ifs at h
  cases h
  apply rowsFollow_updateRows hid
  intro inc hp
  simp only [Bool.and_eq_true, Option.isNone_iff_eq_none] at hp
  exact .seen _ hp.1

theorem cancelBeacons_rowsFollow {input : MecpIncidentInput} {now : Int}
    {s s' : IncidentSnapshot} (hid : OwnIds s.incidents)
    (h : (cancelBeacons input now s).2 = some s') : RowsFollow js s s' := by
  simp only [cancelBeacons] at h
  split at h
  · cases h
  · cases h
    exact rowsFollow_updateRows hid _ _ fun inc hp => .beaconCancelled input now hp

-- What a report does when it is not refused: it opens a row or is merged into one.
theorem ingestReport_cases {clock : Int} {input : MecpIncidentInput} {severity : Severity}
    {now : Int} {s s' : IncidentSnapshot} {freetext : String} {query : ExistingQuery}
    (ht : freetext = input.parsed.freetext.getD "")
    (hq : query = queryOf js input severity freetext now)
    (h : (ingestReport js clock input severity now s).2 = some s') :
    (findExistingIncident js s.incidents query = none ∧
      (ingestReport js clock input severity now s).1 = some query.id ∧
      s' = pruneIncidents js (s.incidents.set query.id
        (createIncident js input severity freetext query.id now)) s.resolvedTombstones) ∨
    (∃ existing, findExistingIncident js s.incidents query = some existing ∧
      (ingestReport js clock input severity now s).1 = some existing.id ∧
      (existing.status = .resolved → reopens existing now = true) ∧
      (input.fromSeed = true → isClosedToSeed js s.resolvedTombstones existing = false) ∧
      s' = ⟨s.incidents.set existing.id (mergeIncident js input severity freetext now existing),
        if reopens existing now then withdrawTombstones js existing s.resolvedTombstones
        else s.resolvedTombstones⟩) := by
  subst ht hq
  simp only [ingestReport] at h ⊢
  split at h
  · cases h
  · rename_i hseed
    rw [if_neg hseed]
    cases hf : findExistingIncident js s.incidents
        (queryOf js input severity (input.parsed.freetext.getD "") now) with
    | none =>
        simp only [hf] at h ⊢
        split_ifs at h ⊢
        cases h
        exact .inl ⟨trivial, rfl, rfl⟩
    | some existing =>
        simp only [hf] at h ⊢
        split_ifs at h ⊢ with hclosed hstay
        · cases h
          simp_all
        · cases h
          simp_all

theorem findExistingIncident_get? {rows : Incidents} (hid : OwnIds rows) {query : ExistingQuery}
    {existing : EmergencyIncident} (h : findExistingIncident js rows query = some existing) :
    rows.get? existing.id = some existing := by
  unfold findExistingIncident at h
  split at h
  · rename_i byId hget
    cases h
    rwa [hid _ _ hget]
  · split at h
    · rename_i sameSender hf
      cases h
      exact (hid.mem_values _).mp (List.mem_of_find?_eq_some hf)
    · exact (hid.mem_values _).mp (List.mem_of_find?_eq_some h)

-- No row matches, so in particular none is stored under the report's fingerprint.
theorem findExistingIncident_none {rows : Incidents} {query : ExistingQuery}
    (h : findExistingIncident js rows query = none) : rows.get? query.id = none := by
  unfold findExistingIncident at h
  split at h
  · cases h
  · assumption

theorem createIncident_id (input : MecpIncidentInput) (severity : Severity)
    (freetext id : String) (now : Int) :
    (createIncident js input severity freetext id now).id = id := rfl

theorem ingestReport_rowsFollow {clock : Int} {input : MecpIncidentInput} {severity : Severity}
    {now : Int} {s s' : IncidentSnapshot} (hid : OwnIds s.incidents)
    (h : (ingestReport js clock input severity now s).2 = some s') : RowsFollow js s s' := by
  rcases ingestReport_cases rfl rfl h with ⟨hf, _, rfl⟩ | ⟨existing, hf, _, hreopen, _, rfl⟩
  · intro k row hget
    have hget := pruneIncidents_get? js (hid.set (createIncident_id ..)) _ hget
    rw [OrderedMap.get?_set] at hget
    split at hget
    · rename_i hk
      refine .inr ⟨hk ▸ findExistingIncident_none hf, input, severity,
        input.parsed.freetext.getD "", now, hk, ?_⟩
      rw [← Option.some.inj hget, hk]
    · exact .inl ⟨row, hget, .refl⟩
  · exact rowsFollow_set _ (findExistingIncident_get? hid hf) (.merged input severity _ now hreopen)

theorem upsertFromMecp_rowsFollow {clock : Int} {input : MecpIncidentInput}
    {s s' : IncidentSnapshot} (hid : OwnIds s.incidents)
    (h : (upsertFromMecp js clock input s).2 = some s') : RowsFollow js s s' := by
  unfold upsertFromMecp at h
  split at h
  · cases h
  · split_ifs at h
    · exact cancelBeacons_rowsFollow hid h
    · unfold acknowledge at h
      split at h
      · cases h
      · exact recordAck_rowsFollow h
    · exact ingestReport_rowsFollow hid h

theorem update_rowsFollow {clock : Int} {op : StoreOp} {s s' : IncidentSnapshot}
    (hid : OwnIds s.incidents) (h : op.update js clock s = some s') : RowsFollow js s s' := by
  cases op with
  | upsertFromMecp input => exact upsertFromMecp_rowsFollow hid h
  | recordAck incidentId peerId time => exact recordAck_rowsFollow h
  | confirmBeacon incidentId => exact confirmBeacon_rowsFollow h
  | resolveIncident incidentId time => exact resolveIncident_rowsFollow h
  | markSeen incidentId time => exact markSeen_rowsFollow h
  | markAllSeen time => exact markAllSeen_rowsFollow hid h
  | clearAll =>
      cases h
      intro k row hget
      simp at hget

theorem step_rowsFollow {s : IncidentSnapshot} (hid : OwnIds s.incidents) (op : TimedOp) :
    RowsFollow js s (step js s op) := by
  unfold step
  cases h : op.2.update js op.1 s with
  | none => exact RowsFollow.refl s
  | some s' => exact update_rowsFollow hid h

theorem RowStep.id_eq {inc inc' : EmergencyIncident} (h : RowStep js inc inc') :
    inc'.id = inc.id := by
  cases h with
  | acked => unfold withAck; split <;> rfl
  | _ => rfl

theorem RowsFollow.ownIds {s s' : IncidentSnapshot} (h : RowsFollow js s s')
    (hid : OwnIds s.incidents) : OwnIds s'.incidents := by
  intro k inc' hget
  rcases h k inc' hget with ⟨inc, hold, hstep⟩ | ⟨_, input, severity, freetext, now, _, rfl⟩
  · cases hstep with
    | refl => exact hid k inc' hold
    | single hstep => exact hstep.id_eq.trans (hid k inc hold)
  · rfl

theorem step_ownIds {s : IncidentSnapshot} (hid : OwnIds s.incidents) (op : TimedOp) :
    OwnIds (step js s op).incidents :=
  (step_rowsFollow hid op).ownIds hid

theorem Reachable.ownIds {s : IncidentSnapshot} (h : Reachable js s) : OwnIds s.incidents :=
  Run.Reachable.invariant (P := fun s => OwnIds s.incidents) h OwnIds.empty
    fun _ op hid => step_ownIds hid op

-- Everything an operation can do to the tombstones and to which rows there are.
inductive StoreStep (js : Runtime) (s s' : IncidentSnapshot) : Prop
  | kept (hkeys : s'.incidents.keys ⊆ s.incidents.keys)
      (htombs : s'.resolvedTombstones = s.resolvedTombstones)
  | buried (id : String) (inc : EmergencyIncident) (time : Int)
      (hget : s.incidents.get? id = some inc) (hkeys : s'.incidents.keys ⊆ s.incidents.keys)
      (htombs : s'.resolvedTombstones =
        pruneTombstones (bury js id inc time s.resolvedTombstones))
  | pruned (rows : Incidents) (hrows : OwnIds rows)
      (hstep : s' = pruneIncidents js rows s.resolvedTombstones)
  | reopened (inc row : EmergencyIncident) (hget : s.incidents.get? inc.id = some inc)
      (hclosed : inc.status = .resolved) (hnext : s'.incidents.get? inc.id = some row)
      (hopen : row.status = .«open») (hkeys : s'.incidents.keys ⊆ s.incidents.keys)
      (htombs : s'.resolvedTombstones = withdrawTombstones js inc s.resolvedTombstones)

theorem keys_updateRows_subset {rows : Incidents} (hid : OwnIds rows)
    (p : EmergencyIncident → Bool) (f : EmergencyIncident → EmergencyIncident) :
    (rows.setAll ((rows.values.filter p).map fun inc => (inc.id, f inc))).keys ⊆ rows.keys := by
  intro k hk
  obtain ⟨inc, hinc⟩ := (OrderedMap.mem_keys_iff _ _).mp hk
  rw [get?_updateRows hid] at hinc
  obtain ⟨old, hold, _⟩ := Option.map_eq_some_iff.mp hinc
  exact (OrderedMap.mem_keys_iff _ _).mpr ⟨old, hold⟩

theorem recordAck_storeStep {clock : Int} {incidentId peerId : String} {time : Option Int}
    {s s' : IncidentSnapshot} (h : recordAck clock incidentId peerId time s = some s') :
    StoreStep js s s' := by
  unfold recordAck at h
  split at h
  · cases h
  · rename_i inc hget
    split_ifs at h
    cases h
    exact .kept (OrderedMap.keys_set_subset _ _ hget) rfl

theorem ingestReport_storeStep {clock : Int} {input : MecpIncidentInput} {severity : Severity}
    {now : Int} {s s' : IncidentSnapshot} (hid : OwnIds s.incidents)
    (h : (ingestReport js clock input severity now s).2 = some s') : StoreStep js s s' := by
  rcases ingestReport_cases rfl rfl h with ⟨_, _, rfl⟩ | ⟨existing, hf, _, _, _, rfl⟩
  · exact .pruned _ (hid.set (createIncident_id ..)) rfl
  · have hget := findExistingIncident_get? hid hf
    have hkeys := OrderedMap.keys_set_subset s.incidents
      (mergeIncident js input severity (input.parsed.freetext.getD "") now existing) hget
    cases hr : reopens existing now with
    | false => exact .kept hkeys rfl
    | true =>
        have hclosed : existing.status = .resolved := by
          simp only [reopens, Bool.and_eq_true, decide_eq_true_eq] at hr
          exact hr.1
        refine .reopened existing _ hget hclosed (OrderedMap.get?_set_self ..) ?_ hkeys rfl
        simp only [mergeIncident, hr, if_true]

theorem update_storeStep {clock : Int} {op : StoreOp} {s s' : IncidentSnapshot}
    (hid : OwnIds s.incidents) (h : op.update js clock s = some s') : StoreStep js s s' := by
  cases op with
  | upsertFromMecp input =>
      simp only [StoreOp.update, upsertFromMecp] at h
      split at h
      · cases h
      · split_ifs at h
        · simp only [cancelBeacons] at h
          split at h
          · cases h
          · cases h
            exact .kept (keys_updateRows_subset hid _ _) rfl
        · unfold acknowledge at h
          split at h
          · cases h
          · exact recordAck_storeStep h
        · exact ingestReport_storeStep hid h
  | recordAck incidentId peerId time => exact recordAck_storeStep h
  | confirmBeacon incidentId =>
      simp only [StoreOp.update, confirmBeacon] at h
      split at h
      · cases h
      · rename_i inc hget
        split_ifs at h
        cases h
        exact .kept (OrderedMap.keys_set_subset _ _ hget) rfl
  | resolveIncident incidentId time =>
      simp only [StoreOp.update, resolveIncident] at h
      split at h
      · cases h
      · rename_i inc hget
        split_ifs at h
        cases h
        exact .buried incidentId inc _ hget (OrderedMap.keys_set_subset _ _ hget) rfl
  | markSeen incidentId time =>
      simp only [StoreOp.update, markSeen] at h
      split at h
      · cases h
      · rename_i inc hget
        split_ifs at h
        cases h
        exact .kept (OrderedMap.keys_set_subset _ _ hget) rfl
  | markAllSeen time =>
      simp only [StoreOp.update, markAllSeen] at h
      split_ifs at h
      cases h
      exact .kept (keys_updateRows_subset hid _ _) rfl
  | clearAll =>
      cases h
      exact .kept (List.nil_subset _) rfl

theorem step_storeStep {s : IncidentSnapshot} (hid : OwnIds s.incidents) (op : TimedOp) :
    StoreStep js s (step js s op) := by
  unfold step
  cases h : op.2.update js op.1 s with
  | none => exact .kept (List.Subset.refl _) rfl
  | some s' => exact update_storeStep hid h

end MeshClient.Incident
