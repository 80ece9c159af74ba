import MeshClient.Incident.Store

namespace MeshClient.Incident

open Lists Mecp Js

-- Every row is stored under its own id.
def OwnIds (rows : Incidents) : Prop := ∀ k inc, rows.get? k = some inc → inc.id = k

theorem OwnIds.empty : OwnIds ∅ := fun _ _ h => by simp at h

theorem OwnIds.set {rows : Incidents} (h : OwnIds rows) {k : String} {inc : EmergencyIncident}
    (hid : inc.id = k) : OwnIds (rows.set k inc) := by
  intro k' inc' hget
  rw [OrderedMap.get?_set] at hget
  split at hget
  · rename_i hk
    rw [← Option.some.inj hget, hid, hk]
  · exact h k' inc' hget

theorem OwnIds.values_id {rows : Incidents} (h : OwnIds rows) :
    rows.values.map EmergencyIncident.id = rows.keys := by
  simp only [OrderedMap.values, OrderedMap.keys, List.map_map]
  apply List.map_congr_left
  intro entry hentry
  exact h entry.1 entry.2 ((rows.mem_entries_iff _ _).mp hentry)

theorem OwnIds.ids_nodup {rows : Incidents} (h : OwnIds rows) :
    (rows.values.map EmergencyIncident.id).Nodup := h.values_id ▸ rows.nodup

theorem OwnIds.mem_values {rows : Incidents} (h : OwnIds rows) (inc : EmergencyIncident) :
    inc ∈ rows.values ↔ rows.get? inc.id = some inc := by
  rw [rows.mem_values_iff]
  constructor
  · rintro ⟨k, hk⟩
    rw [h k inc hk]
    exact hk
  · exact fun hk => ⟨inc.id, hk⟩

-- Storing a list of rows with distinct ids under their ids.
theorem get?_setAll_rows (start : Incidents) {rows : List EmergencyIncident}
    (hn : (rows.map EmergencyIncident.id).Nodup) (k : String) :
    (start.setAll (rows.map fun inc => (inc.id, inc))).get? k =
      (rows.find? fun inc => inc.id = k).or (start.get? k) := by
  have hkeys : ((rows.map fun inc => (inc.id, inc)).map Prod.fst).Nodup := by
    simpa [Function.comp_def] using hn
  cases hf : rows.find? fun inc => inc.id = k with
  | some inc =>
      have hid : inc.id = k := by simpa using List.find?_some hf
      simp only [Option.some_or]
      apply OrderedMap.get?_setAll_of_mem _ hkeys
      exact List.mem_map.mpr ⟨inc, List.mem_of_find?_eq_some hf, by rw [hid]⟩
  | none =>
      simp only [Option.none_or]
      apply OrderedMap.get?_setAll_of_notMem
      intro hm
      obtain ⟨entry, hentry, he⟩ := List.mem_map.mp hm
      obtain ⟨inc, hinc, rfl⟩ := List.mem_map.mp hentry
      exact absurd he (by simpa using List.find?_eq_none.mp hf inc hinc)

theorem get?_ofRows {rows : List EmergencyIncident}
    (hn : (rows.map EmergencyIncident.id).Nodup) (k : String) (inc : EmergencyIncident) :
    ((∅ : Incidents).setAll (rows.map fun inc => (inc.id, inc))).get? k = some inc ↔
      inc ∈ rows ∧ inc.id = k := by
  rw [get?_setAll_rows _ hn, OrderedMap.get?_empty, Option.or_none]
  constructor
  · intro h
    exact ⟨List.mem_of_find?_eq_some h, by simpa using List.find?_some h⟩
  · rintro ⟨hm, rfl⟩
    cases hf : rows.find? fun other => other.id = inc.id with
    | none => simpa using List.find?_eq_none.mp hf inc hm
    | some other =>
        have hid : other.id = inc.id := by simpa using List.find?_some hf
        rw [List.inj_on_of_nodup_map hn (List.mem_of_find?_eq_some hf) hm hid]

-- Rewriting the rows that satisfy `p` touches nothing else.
theorem get?_updateRows {rows : Incidents} (hid : OwnIds rows) (p : EmergencyIncident → Bool)
    (f : EmergencyIncident → EmergencyIncident) (k : String) :
    (rows.setAll ((rows.values.filter p).map fun inc => (inc.id, f inc))).get? k =
      (rows.get? k).map fun inc => if p inc then f inc else inc := by
  have hn : (((rows.values.filter p).map fun inc => (inc.id, f inc)).map Prod.fst).Nodup := by
    simpa [Function.comp_def] using hid.ids_nodup.sublist (List.filter_sublist.map _)
  by_cases hk : ∃ inc, rows.get? k = some inc ∧ p inc = true
  · obtain ⟨inc, hget, hp⟩ := hk
    have hm : inc ∈ rows.values.filter p :=
      List.mem_filter.mpr ⟨(rows.mem_values_iff inc).mpr ⟨k, hget⟩, hp⟩
    rw [hget, Option.map_some, if_pos hp]
    apply OrderedMap.get?_setAll_of_mem _ hn
    exact List.mem_map.mpr ⟨inc, hm, by rw [hid k inc hget]⟩
  · rw [OrderedMap.get?_setAll_of_notMem]
    · cases hget : rows.get? k with
      | none => rfl
      | some inc =>
          have hp : ¬p inc = true := fun hp => hk ⟨inc, hget, hp⟩
          rw [Option.map_some, if_neg hp]
    · simp only [List.map_map, List.mem_map, List.mem_filter, Function.comp_def, not_exists,
        not_and, and_imp]
      intro inc hm hp he
      exact hk ⟨inc, he ▸ (hid.mem_values inc).mp hm, hp⟩

theorem size_pruneTombstones (tombs : Tombstones) :
    (pruneTombstones tombs).size = min tombs.size MAX_RESOLVED_TOMBSTONES := by
  unfold pruneTombstones
  split_ifs with hle
  · exact (min_eq_left hle).symm
  · have hperm := List.perm_insertionSort (fun a b : String × Int => a.2 ≤ b.2) tombs.entries
    have hn : ((tombs.entries.insertionSort fun a b => a.2 ≤ b.2).map Prod.fst).Nodup :=
      (hperm.map Prod.fst).nodup_iff.mpr tombs.nodup
    have hsize : tombs.size = tombs.entries.length := rfl
    dsimp only
    rw [OrderedMap.size_setAll_of_fresh _ (hn.sublist ((List.drop_sublist _ _).map _))
      (fun k _ hk => by simpa using (OrderedMap.mem_keys_iff _ _).mp hk), List.length_drop,
      hperm.length_eq, OrderedMap.size_empty]
    omega

-- Where fewer tombstones than the cap are left, none was dropped.
theorem pruneTombstones_of_size_lt {tombs : Tombstones}
    (h : (pruneTombstones tombs).size < MAX_RESOLVED_TOMBSTONES) : pruneTombstones tombs = tombs := by
  rw [size_pruneTombstones] at h
  exact if_pos (by omega)

def evictionKey (inc : EmergencyIncident) : ℤ ×ₗ ℤ ×ₗ ℤ ×ₗ ℤ :=
  toLex (if isOpenCritical inc then 1 else 0, toLex (evictionRank inc,
    toLex (-(inc.severity.val : ℤ), closedAt inc)))

theorem compareEviction_le_iff (a b : EmergencyIncident) :
    compareEviction a b ≤ 0 ↔ evictionKey a ≤ evictionKey b := by
  simp only [compareEviction, evictionKey, Prod.Lex.toLex_le_toLex, ne_eq, ite_not]
  have hs : a.severity = b.severity ↔ (a.severity.val : ℤ) = b.severity.val := by
    rw [Int.natCast_inj, Fin.val_inj]
  simp only [hs]
  generalize (if isOpenCritical a then (1 : ℤ) else 0) = aCrit
  generalize (if isOpenCritical b then (1 : ℤ) else 0) = bCrit
  split_ifs <;> omega

instance : Std.Total fun a b => compareEviction a b ≤ 0 :=
  ⟨fun a b => by simpa only [compareEviction_le_iff] using le_total (evictionKey a) (evictionKey b)⟩

instance : IsTrans EmergencyIncident fun a b => compareEviction a b ≤ 0 :=
  ⟨fun a b c hab hbc => by simp only [compareEviction_le_iff] at *; exact hab.trans hbc⟩

theorem evictionOrder_perm (rows : Incidents) : (evictionOrder rows).Perm rows.values :=
  List.perm_insertionSort _ _

theorem evictionOrder_length (rows : Incidents) : (evictionOrder rows).length = rows.size := by
  rw [(evictionOrder_perm rows).length_eq, rows.values_length]

-- Whatever comes after an open critical row in the eviction order is open and critical too.
theorem isOpenCritical_of_compareEviction {a b : EmergencyIncident}
    (h : compareEviction a b ≤ 0) (ha : isOpenCritical a = true) : isOpenCritical b = true := by
  rw [compareEviction_le_iff] at h
  simp only [evictionKey, Prod.Lex.toLex_le_toLex, ha, if_true] at h
  by_contra hb
  simp [hb] at h

theorem keptRows_sublist (rows : Incidents) : (keptRows rows).Sublist (evictionOrder rows) := by
  have h := (List.filter_sublist (l := overCap rows) (p := isOpenCritical)).append_right
    ((evictionOrder rows).drop ((evictionOrder rows).length - MAX_INCIDENTS))
  rwa [overCap, List.take_append_drop] at h

theorem mem_evictionOrder_iff (rows : Incidents) (inc : EmergencyIncident) :
    inc ∈ evictionOrder rows ↔ inc ∈ keptRows rows ∨ inc ∈ evictedRows rows := by
  have hsplit : inc ∈ evictionOrder rows ↔ inc ∈ overCap rows ∨
      inc ∈ (evictionOrder rows).drop ((evictionOrder rows).length - MAX_INCIDENTS) := by
    rw [← List.mem_append, overCap, List.take_append_drop]
  rw [hsplit]
  simp only [keptRows, evictedRows, List.mem_append, List.mem_filter]
  cases isOpenCritical inc <;> simp [or_comm]

theorem keptRows_ids_nodup {rows : Incidents} (hid : OwnIds rows) :
    ((keptRows rows).map EmergencyIncident.id).Nodup := by
  have hn : ((evictionOrder rows).map EmergencyIncident.id).Nodup :=
    ((evictionOrder_perm rows).map _).nodup_iff.mpr hid.ids_nodup
  exact hn.sublist ((keptRows_sublist rows).map _)

variable (js : Runtime)

theorem pruneIncidents_of_le {rows : Incidents} (tombs : Tombstones)
    (h : rows.size ≤ MAX_INCIDENTS) : pruneIncidents js rows tombs = ⟨rows, tombs⟩ :=
  if_pos h

theorem pruneIncidents_of_gt {rows : Incidents} (tombs : Tombstones)
    (h : MAX_INCIDENTS < rows.size) :
    pruneIncidents js rows tombs =
      ⟨(∅ : Incidents).setAll ((keptRows rows).map fun inc => (inc.id, inc)),
        pruneTombstones (buryAll js (evictedRows rows) tombs)⟩ := by
  rw [pruneIncidents, if_neg (Nat.not_le_of_lt h)]

-- Over the cap the surviving rows are exactly the kept ones.
theorem pruneIncidents_get?_iff {rows : Incidents} (hid : OwnIds rows) (tombs : Tombstones)
    (h : MAX_INCIDENTS < rows.size) (k : String) (inc : EmergencyIncident) :
    (pruneIncidents js rows tombs).incidents.get? k = some inc ↔
      inc ∈ keptRows rows ∧ inc.id = k := by
  rw [pruneIncidents_of_gt js tombs h]
  exact get?_ofRows (keptRows_ids_nodup hid) k inc

-- Pruning changes no row: it keeps some and drops the others.
theorem pruneIncidents_get? {rows : Incidents} (hid : OwnIds rows) (tombs : Tombstones)
    {k : String} {inc : EmergencyIncident}
    (h : (pruneIncidents js rows tombs).incidents.get? k = some inc) :
    rows.get? k = some inc := by
  rcases Nat.lt_or_ge MAX_INCIDENTS rows.size with hgt | hle
  · obtain ⟨hm, rfl⟩ := (pruneIncidents_get?_iff js hid tombs hgt k inc).mp h
    have hv := (evictionOrder_perm rows).mem_iff.mp ((keptRows_sublist rows).subset hm)
    exact (hid.mem_values inc).mp hv
  · rwa [pruneIncidents_of_le js tombs hle] at h

-- A row that pruning drops is not an open MAYDAY or URGENT one.
theorem pruneIncidents_dropped {rows : Incidents} (hid : OwnIds rows) (tombs : Tombstones)
    {inc : EmergencyIncident} (h : rows.get? inc.id = some inc)
    (hdrop : (pruneIncidents js rows tombs).incidents.get? inc.id ≠ some inc) :
    MAX_INCIDENTS < rows.size ∧ inc ∈ evictedRows rows ∧ isOpenCritical inc = false := by
  rcases Nat.lt_or_ge MAX_INCIDENTS rows.size with hgt | hle
  · rw [ne_eq, pruneIncidents_get?_iff js hid tombs hgt] at hdrop
    have hm := (evictionOrder_perm rows).mem_iff.mpr ((hid.mem_values inc).mpr h)
    have he := ((mem_evictionOrder_iff rows inc).mp hm).resolve_left (fun hk => hdrop ⟨hk, rfl⟩)
    exact ⟨hgt, he, by simpa using (List.mem_filter.mp he).2⟩
  · rw [pruneIncidents_of_le js tombs hle] at hdrop
    exact absurd h hdrop

-- More rows than the cap are left only when all of them are open and critical.
theorem keptRows_critical {rows : Incidents} (h : MAX_INCIDENTS < (keptRows rows).length) :
    ∀ inc ∈ keptRows rows, isOpenCritical inc = true := by
  have hlen : ((evictionOrder rows).drop
      ((evictionOrder rows).length - MAX_INCIDENTS)).length ≤ MAX_INCIDENTS := by
    rw [List.length_drop]
    omega
  have hne : (overCap rows).filter isOpenCritical ≠ [] := by
    intro he
    rw [keptRows, he, List.nil_append] at h
    omega
  obtain ⟨first, hfirst⟩ := List.exists_mem_of_ne_nil _ hne
  obtain ⟨hover, hcrit⟩ := List.mem_filter.mp hfirst
  have hsorted := List.pairwise_insertionSort (fun a b => compareEviction a b ≤ 0) rows.values
  change (evictionOrder rows).Pairwise _ at hsorted
  rw [← List.take_append_drop ((evictionOrder rows).length - MAX_INCIDENTS) (evictionOrder rows)]
    at hsorted
  intro inc hm
  rcases List.mem_append.mp hm with hm | hm
  · exact (List.mem_filter.mp hm).2
  · exact isOpenCritical_of_compareEviction ((List.pairwise_append.mp hsorted).2.2 first hover inc hm) hcrit

theorem pruneIncidents_over {rows : Incidents} (hid : OwnIds rows) (tombs : Tombstones)
    (h : MAX_INCIDENTS < (pruneIncidents js rows tombs).incidents.size) {k : String}
    {inc : EmergencyIncident} (hget : (pruneIncidents js rows tombs).incidents.get? k = some inc) :
    isOpenCritical inc = true := by
  rcases Nat.lt_or_ge MAX_INCIDENTS rows.size with hgt | hle
  · have hkeys : (pruneIncidents js rows tombs).incidents.keys ⊆
        (keptRows rows).map EmergencyIncident.id := by
      intro k' hk'
      obtain ⟨other, ho⟩ := (OrderedMap.mem_keys_iff _ _).mp hk'
      obtain ⟨hm, rfl⟩ := (pruneIncidents_get?_iff js hid tombs hgt k' other).mp ho
      exact List.mem_map_of_mem hm
    have hlen := (List.subperm_of_subset (OrderedMap.keys_nodup _) hkeys).length_le
    rw [← OrderedMap.size_eq_keys_length, List.length_map] at hlen
    exact keptRows_critical (h.trans_le hlen) inc
      ((pruneIncidents_get?_iff js hid tombs hgt k inc).mp hget).1
  · rw [pruneIncidents_of_le js tombs hle] at h
    exact absurd h (Nat.not_lt_of_le hle)

end MeshClient.Incident
