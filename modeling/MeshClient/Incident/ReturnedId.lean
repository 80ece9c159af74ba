import MeshClient.Incident.Eviction

namespace MeshClient.Incident

open Lists Mecp Js

-- The store keeps the row whose id the call returns and, where it returns none, all rows as
-- they were.
def RealAnswer (s : IncidentSnapshot) (answer : Option String × Update) : Prop :=
  match answer.1 with
  | some id => ∃ row, (answer.2.getD s).incidents.get? id = some row ∧ row.id = id
  | none => (answer.2.getD s).incidents = s.incidents

-- The place the report would take among the rows that may be evicted.
def reportRank (clock : Int) (input : MecpIncidentInput) (severity : Severity) : ℤ ×ₗ ℤ ×ₗ ℤ :=
  toLex (if input.parsed.isDrill then 1 else 2,
    toLex (-(severity.val : ℤ), input.receivedAt.getD clock))

def outranks (clock : Int) (input : MecpIncidentInput) (severity : Severity)
    (row : EmergencyIncident) : Bool :=
  isOpenCritical row || reportRank clock input severity < rowRank row

-- A report that may be evicted finds as many rows above it as the store keeps.
structure CrowdedOut (js : Runtime) (clock : Int) (input : MecpIncidentInput) (severity : Severity)
    (s : IncidentSnapshot) : Prop where
  opens : OpensRow js clock input severity s
  evictable : input.parsed.isDrill = true ∨ 1 < severity
  outranked : MAX_INCIDENTS ≤ s.incidents.values.countP (outranks clock input severity)

variable {js : Runtime} {clock : Int} {input : MecpIncidentInput} {severity : Severity}
  {s : IncidentSnapshot}

theorem RealAnswer.of_row {id : String} {row : EmergencyIncident}
    (h : s.incidents.get? id = some row) (hid : row.id = id) : RealAnswer s (some id, none) :=
  ⟨row, h, hid⟩

theorem cancelBeacons_real (hid : OwnIds s.incidents) (now : Int) :
    RealAnswer s (cancelBeacons input now s) := by
  have hrows := get?_updateRows hid (cancelsBeaconOf input now) (cancelBeaconRow input now)
  unfold cancelBeacons
  cases hf : s.incidents.values.filter (cancelsBeaconOf input now) with
  | nil => rfl
  | cons first rest =>
      have hm : first ∈ s.incidents.values.filter (cancelsBeaconOf input now) := by
        rw [hf]
        exact List.mem_cons_self
      obtain ⟨hm, hcancels⟩ := List.mem_filter.mp hm
      have hget := hrows first.id
      rw [(hid.mem_values first).mp hm, hf, Option.map_some, if_pos hcancels] at hget
      exact ⟨cancelBeaconRow input now first, hget, rfl⟩

theorem acknowledge_real (hid : OwnIds s.incidents) (now : Int) :
    RealAnswer s (acknowledge clock input severity now s) := by
  unfold acknowledge
  cases hf : findOpenIncidentForAck s.incidents.values severity input.parsed.codes
      (some input.senderId) none with
  | none => rfl
  | some target =>
      have hget := (hid.mem_values target).mp (findOpenIncidentForAck_some hf).1
      dsimp only
      cases hack : recordAck clock target.id input.senderId (some now) s with
      | none => exact RealAnswer.of_row hget rfl
      | some s' =>
          unfold recordAck at hack
          rw [hget] at hack
          dsimp only at hack
          split_ifs at hack
          cases hack
          refine ⟨_, OrderedMap.get?_set_self _ _ _, ?_⟩
          unfold withAck
          split <;> rfl

-- A report that opens no row is refused or goes into a row that is there.
theorem ingestReport_real (hreport : IsReport input severity)
    (hopens : ¬OpensRow js clock input severity s) :
    RealAnswer s (ingestReport js clock input severity (input.receivedAt.getD clock) s) := by
  unfold ingestReport
  dsimp only
  split
  · rfl
  · rename_i hrefused
    split
    · rename_i hunknown
      refine absurd ⟨hreport, fun hseed => ?_, hunknown⟩ hopens
      rw [hseed, Bool.true_and, Bool.not_eq_true, Bool.or_eq_false_iff] at hrefused
      exact hrefused
    · split
      · rfl
      · split
        · rfl
        · exact ⟨_, OrderedMap.get?_set_self _ _ _, rfl⟩

theorem OpensRow.openedRow_values (h : OpensRow js clock input severity s) :
    (rowsWith js clock input severity s).values =
      s.incidents.values ++ [openedRow js clock input severity] := by
  have hfresh := (OrderedMap.get?_eq_none_iff _ _).mp h.fresh
  simp only [rowsWith, OrderedMap.values, OrderedMap.entries_set_of_notMem _ _ hfresh,
    List.map_append]
  rfl

theorem openedRow_isOpenCritical : isOpenCritical (openedRow js clock input severity) = false ↔
    input.parsed.isDrill = true ∨ 1 < severity := by
  rw [← not_le]
  by_cases hs : severity ≤ 1 <;> simp [isOpenCritical, isUnresolved, openedRow, createIncident, hs]

theorem outranks_iff (h : isOpenCritical (openedRow js clock input severity) = false)
    (row : EmergencyIncident) : outranks clock input severity row = true ↔
      ¬compareEviction row (openedRow js clock input severity) ≤ 0 := by
  have hrank : rowRank (openedRow js clock input severity) = reportRank clock input severity := by
    simp [rowRank, reportRank, evictionRank, closedAt, openedRow, createIncident]
  have hkey : ∀ inc, evictionKey inc =
      toLex ((if isOpenCritical inc then 1 else 0 : ℤ), rowRank inc) := fun _ => rfl
  rw [compareEviction_le_iff, not_le, hkey, hkey, hrank, Prod.Lex.toLex_lt_toLex, h, outranks]
  cases isOpenCritical row <;> simp

-- The new row is ranked after all equals, so just the rows that outrank it follow it.
theorem OpensRow.kept_iff (h : Reachable js s) (hopens : OpensRow js clock input severity s) :
    (pruneIncidents js (rowsWith js clock input severity s)
        s.resolvedTombstones).incidents.get? (openedRow js clock input severity).id =
      some (openedRow js clock input severity) ↔
    ¬((input.parsed.isDrill = true ∨ 1 < severity) ∧
      MAX_INCIDENTS ≤ s.incidents.values.countP (outranks clock input severity)) := by
  have hid : OwnIds (rowsWith js clock input severity s) := OpensRow.ownIds h
  have hvalues := hopens.openedRow_values
  set created := openedRow js clock input severity with hcreated
  set rows := rowsWith js clock input severity s with hrows
  have hsize : rows.size = s.incidents.values.length + 1 := by
    rw [← rows.values_length, hvalues, List.length_append, List.length_singleton]
  have hget : rows.get? created.id = some created := OrderedMap.get?_set_self _ _ _
  by_cases hle : rows.size ≤ MAX_INCIDENTS
  · rw [pruneIncidents_of_le js _ hle]
    have hcount := List.countP_le_length (p := outranks clock input severity) (l := s.incidents.values)
    exact iff_of_true hget fun hcrowded => by omega
  · cases hcrit : isOpenCritical created with
    | true =>
        have hplain : ¬(input.parsed.isDrill = true ∨ 1 < severity) := by
          intro hdrill
          have hclosed : isOpenCritical created = false := openedRow_isOpenCritical.mpr hdrill
          rw [hcrit] at hclosed
          cases hclosed
        refine iff_of_true ?_ fun hcrowded => hplain hcrowded.1
        by_contra hdrop
        have hevicted := (pruneIncidents_dropped js hid _ hget hdrop).2.2
        rw [hcrit] at hevicted
        cases hevicted
    | false =>
        have hn : (s.incidents.values ++ [created]).Nodup := by
          rw [← hvalues]
          exact List.Nodup.of_map _ hid.ids_nodup
        obtain ⟨before, after, hsplit, hafter⟩ :=
          StableSort.insertionSort_concat (r := fun a b => compareEviction a b ≤ 0) hn
        have horder : evictionOrder rows = before ++ created :: after := by
          rw [evictionOrder, hvalues, hsplit]
        have hcount : after.length = s.incidents.values.countP (outranks clock input severity) := by
          rw [hafter]
          apply List.countP_congr
          intro row _
          rw [decide_eq_true_iff, outranks_iff hcrit]
        have hlen : rows.size = before.length + 1 + after.length := by
          rw [← evictionOrder_length, horder, List.length_append, List.length_cons]
          omega
        rw [pruneIncidents_get?_iff js hid _ (by omega), ← hcount]
        constructor
        · rintro ⟨hkept, _⟩ ⟨_, hcrowded⟩
          have hcut : created ∈ (evictionOrder rows).drop ((evictionOrder rows).length - MAX_INCIDENTS) :=
            (List.mem_append.mp hkept).resolve_left fun hm => by
              rw [(List.mem_filter.mp hm).2] at hcrit
              cases hcrit
          rw [evictionOrder_length, horder, List.drop_append, List.drop_eq_nil_of_le (by omega),
            List.nil_append, List.drop_cons (by omega)] at hcut
          have hno : (before ++ created :: after).Nodup := by
            rw [← horder]
            exact (evictionOrder_perm rows).nodup_iff.mpr (List.Nodup.of_map _ hid.ids_nodup)
          exact (List.nodup_cons.mp (List.nodup_append'.mp hno).2.1).1 (List.mem_of_mem_drop hcut)
        · intro hroom
          have hfew : after.length < MAX_INCIDENTS := by
            by_contra hmany
            exact hroom ⟨openedRow_isOpenCritical.mp hcrit, by omega⟩
          refine ⟨List.mem_append_right _ ?_, rfl⟩
          rw [evictionOrder_length, horder, List.drop_append_of_le_length (by omega)]
          exact List.mem_append_right _ List.mem_cons_self

theorem RealAnswer.of_not_opens (hid : OwnIds s.incidents)
    (hopens : ∀ severity, ¬OpensRow js clock input severity s) :
    RealAnswer s (upsertFromMecp js clock input s) := by
  unfold upsertFromMecp
  cases hsev : input.parsed.severity with
  | none => rfl
  | some severity =>
      dsimp only
      split_ifs with hcancel hack
      · exact cancelBeacons_real hid _
      · exact acknowledge_real hid _
      · rw [Bool.not_eq_true, Bool.or_eq_false_iff] at hack
        exact ingestReport_real ⟨hsev, by simpa using hcancel, hack⟩ (hopens severity)

theorem OpensRow.real_iff (h : Reachable js s) (hopens : OpensRow js clock input severity s) :
    RealAnswer s (some (openedRow js clock input severity).id,
        some (pruneIncidents js (rowsWith js clock input severity s) s.resolvedTombstones)) ↔
      ¬((input.parsed.isDrill = true ∨ 1 < severity) ∧
        MAX_INCIDENTS ≤ s.incidents.values.countP (outranks clock input severity)) := by
  have hid : OwnIds (rowsWith js clock input severity s) := OpensRow.ownIds h
  rw [← hopens.kept_iff h]
  constructor
  · rintro ⟨row, hget, _⟩
    have hrow := pruneIncidents_get? js hid _ hget
    rw [rowsWith, OrderedMap.get?_set_self] at hrow
    obtain rfl := Option.some.inj hrow
    exact hget
  · exact fun hget => ⟨_, hget, rfl⟩

-- The returned id names a row unless the report's own row is the one the cap evicts.
theorem returned_id_real_iff (h : Reachable js s) :
    RealAnswer s (upsertFromMecp js clock input s) ↔
      ¬∃ severity, CrowdedOut js clock input severity s := by
  by_cases hopens : ∃ severity, OpensRow js clock input severity s
  · obtain ⟨severity, hopens⟩ := hopens
    rw [hopens.upsertFromMecp_eq, hopens.real_iff h, not_iff_not]
    constructor
    · rintro ⟨hplain, hcount⟩
      exact ⟨severity, hopens, hplain, hcount⟩
    · rintro ⟨other, hother, hplain, hcount⟩
      have hsame := hopens.report.severity_eq.symm.trans hother.report.severity_eq
      obtain rfl := Option.some.inj hsame
      exact ⟨hplain, hcount⟩
  · have hnone : ∀ severity, ¬OpensRow js clock input severity s :=
      fun severity hop => hopens ⟨severity, hop⟩
    exact iff_of_true (RealAnswer.of_not_opens h.ownIds hnone)
      fun ⟨severity, hcrowded⟩ => hnone severity hcrowded.opens

theorem returned_id_real_first : RealAnswer .empty
    (upsertFromMecp asciiRuntime 0 (stationReport 0 0) .empty) ↔
      ¬∃ severity, CrowdedOut asciiRuntime 0 (stationReport 0 0) severity .empty :=
  returned_id_real_iff ⟨[], rfl⟩

-- Every station is in distress, so the routine report of one more is evicted as it comes in.
theorem routine_report_dropped : ∃ s, Reachable asciiRuntime s ∧
    ¬RealAnswer s (upsertFromMecp asciiRuntime 0 (stationReport 3 200) s) := by
  have hvalues := run_maydays (Nat.le_refl 200)
  have hreach := reachable_maydays 200
  have hopens := opensRow_routine
  generalize run asciiRuntime .empty (maydays 200) = s at hvalues hreach hopens
  refine ⟨s, hreach, ?_⟩
  have hcritical : ∀ row ∈ s.incidents.values, outranks 0 (stationReport 3 200) 3 row = true := by
    intro row hrow
    rw [hvalues] at hrow
    obtain ⟨i, _, rfl⟩ := List.mem_map.mp hrow
    rfl
  have hfull : MAX_INCIDENTS ≤ s.incidents.values.countP (outranks 0 (stationReport 3 200) 3) := by
    rw [List.countP_eq_length.mpr hcritical, hvalues, List.length_map, List.length_range]
    unfold MAX_INCIDENTS
    exact Nat.le_refl 200
  rw [hopens.upsertFromMecp_eq, hopens.real_iff hreach]
  exact fun hroom => hroom ⟨.inr (by decide), hfull⟩

end MeshClient.Incident
