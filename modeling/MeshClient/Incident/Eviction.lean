import MeshClient.Lib.StableSort
import MeshClient.Incident.Capacity
import MeshClient.Incident.Tombstones

namespace MeshClient.Incident

open Lists Mecp Js

-- The order of eviction among rows that may be evicted: resolved rows, then drills, then the
-- less severe, then the older.
def rowRank (inc : EmergencyIncident) : ℤ ×ₗ ℤ ×ₗ ℤ :=
  toLex (evictionRank inc, toLex (-(inc.severity.val : ℤ), closedAt inc))

-- The tombstone `later` is newer than `earlier`; of the same age, it was written after it.
def Outlasts (tombs : Tombstones) (later earlier : String × Int) : Prop :=
  earlier.2 < later.2 ∨ earlier.2 = later.2 ∧ [earlier, later].Sublist tombs.entries

def Evicted (rows : Incidents) (s' : IncidentSnapshot) (inc : EmergencyIncident) : Prop :=
  rows.get? inc.id = some inc ∧ s'.incidents.get? inc.id = none

variable (js : Runtime)

-- The report is not refused and no row stands for it.
structure OpensRow (clock : Int) (input : MecpIncidentInput) (severity : Severity)
    (s : IncidentSnapshot) : Prop where
  report : IsReport input severity
  live : input.fromSeed = true →
    isTombstoned s.resolvedTombstones (openedRow js clock input severity).id
        (payloadTombstoneKeyIfDistinct js severity input.parsed.codes
          (input.parsed.freetext.getD "")) = false ∧
      isTooOldToSeed clock (input.receivedAt.getD clock) = false
  unknown : findExistingIncident js s.incidents (queryOf js input severity
    (input.parsed.freetext.getD "") (input.receivedAt.getD clock)) = none

-- The rows present together with the one the report opens.
def rowsWith (clock : Int) (input : MecpIncidentInput) (severity : Severity)
    (s : IncidentSnapshot) : Incidents :=
  s.incidents.set (openedRow js clock input severity).id (openedRow js clock input severity)

variable {js} {clock : Int} {input : MecpIncidentInput} {severity : Severity} {s : IncidentSnapshot}

theorem OpensRow.fresh (h : OpensRow js clock input severity s) :
    s.incidents.get? (openedRow js clock input severity).id = none :=
  findExistingIncident_none h.unknown

theorem OpensRow.upsertFromMecp_eq (h : OpensRow js clock input severity s) :
    upsertFromMecp js clock input s = (some (openedRow js clock input severity).id,
      some (pruneIncidents js (rowsWith js clock input severity s) s.resolvedTombstones)) := by
  have hrefused : (input.fromSeed && (isTombstoned s.resolvedTombstones
      (queryOf js input severity (input.parsed.freetext.getD "") (input.receivedAt.getD clock)).id
      (payloadTombstoneKeyIfDistinct js severity input.parsed.codes
        (input.parsed.freetext.getD "")) ||
      isTooOldToSeed clock (input.receivedAt.getD clock))) = false := by
    cases hseed : input.fromSeed with
    | false => rfl
    | true =>
        obtain ⟨htomb, hold⟩ := h.live hseed
        rw [Bool.true_and, Bool.or_eq_false_iff]
        exact ⟨htomb, hold⟩
  have htwice : (input.fromSeed && isTombstoned s.resolvedTombstones
      (queryOf js input severity (input.parsed.freetext.getD "") (input.receivedAt.getD clock)).id
      (payloadTombstoneKeyIfDistinct js severity input.parsed.codes
        (input.parsed.freetext.getD ""))) = false := by
    cases hseed : input.fromSeed with
    | false => rfl
    | true => exact (h.live hseed).1
  rw [upsertFromMecp_report h.report, ingestReport]
  simp only [hrefused, htwice, h.unknown, Bool.false_eq_true, if_false]
  rfl

theorem OpensRow.step_eq (h : OpensRow js clock input severity s) :
    step js s (clock, .upsertFromMecp input) =
      pruneIncidents js (rowsWith js clock input severity s) s.resolvedTombstones := by
  simp only [step, StoreOp.update, h.upsertFromMecp_eq, Option.getD_some]

theorem OpensRow.ownIds (h : Reachable js s) : OwnIds (rowsWith js clock input severity s) :=
  h.ownIds.set rfl

theorem rowRank_le_of_compareEviction {a b : EmergencyIncident} (h : compareEviction a b ≤ 0)
    (ha : isOpenCritical a = false) (hb : isOpenCritical b = false) : rowRank a ≤ rowRank b := by
  rw [compareEviction_le_iff] at h
  simp only [evictionKey, ha, hb, Prod.Lex.toLex_le_toLex (x := _)] at h
  simpa [rowRank, Prod.Lex.toLex_le_toLex] using h

-- Whatever the cap drops from the tombstones is outlasted by all that stay.
theorem pruneTombstones_get? {tombs : Tombstones} {key : String} {time : Int}
    (h : tombs.get? key = some time) :
    (pruneTombstones tombs).get? key = some time ∨
      (pruneTombstones tombs).size = MAX_RESOLVED_TOMBSTONES ∧
        ∀ key' time', (pruneTombstones tombs).get? key' = some time' →
          Outlasts tombs (key', time') (key, time) := by
  have hsize := size_pruneTombstones tombs
  by_cases hle : tombs.size ≤ MAX_RESOLVED_TOMBSTONES
  · rw [show pruneTombstones tombs = tombs from if_pos hle]
    exact .inl h
  · rw [min_eq_right (by omega)] at hsize
    simp only [pruneTombstones, if_neg hle] at hsize ⊢
    set ranked := tombs.entries.insertionSort fun a b => a.2 ≤ b.2 with hranked
    set dropped := tombs.size - MAX_RESOLVED_TOMBSTONES
    have hperm : ranked.Perm tombs.entries := List.perm_insertionSort _ _
    have hkeys : ((ranked.drop dropped).map Prod.fst).Nodup :=
      ((hperm.map Prod.fst).nodup_iff.mpr tombs.nodup).sublist ((List.drop_sublist _ _).map _)
    have hm : (key, time) ∈ ranked := hperm.mem_iff.mpr ((tombs.mem_entries_iff key time).mpr h)
    rw [← List.take_append_drop dropped ranked] at hm
    rcases List.mem_append.mp hm with htaken | hkept
    · refine .inr ⟨hsize, fun key' time' hget => ?_⟩
      have hkept : (key', time') ∈ ranked.drop dropped := by
        by_contra hnot
        have hnone : key' ∉ (ranked.drop dropped).map Prod.fst := by
          intro hkey
          obtain ⟨entry, hentry, rfl⟩ := List.mem_map.mp hkey
          rw [OrderedMap.get?_setAll_of_mem _ hkeys hentry] at hget
          exact hnot (Option.some.inj hget ▸ hentry)
        rw [OrderedMap.get?_setAll_of_notMem _ _ _ hnone] at hget
        cases hget
      have hn : tombs.entries.Nodup := List.Nodup.of_map _ tombs.nodup
      obtain ⟨hage, htie⟩ := StableSort.of_pair_sublist_insertionSort hn
        (StableSort.pair_sublist_of_cut htaken hkept)
      rcases lt_or_eq_of_le hage with hlt | heq
      · exact .inl hlt
      · exact .inr ⟨heq, htie heq.ge⟩
    · exact .inl (OrderedMap.get?_setAll_of_mem _ hkeys hkept)

theorem get?_bury_of_not_buriedUnder {inc : EmergencyIncident} {time : Int} {tombs : Tombstones}
    {key : String} (h : ¬BuriedUnder js inc key) :
    (bury js inc.id inc time tombs).get? key = tombs.get? key := by
  simp only [BuriedUnder, rowPayloadKey, not_or] at h
  unfold bury
  split
  · rename_i payload hp
    have hne : key ≠ payload := fun he => h.2 (hp.trans (congrArg some he.symm))
    rw [OrderedMap.get?_set_of_ne _ _ hne, OrderedMap.get?_set_of_ne _ _ h.1]
  · exact OrderedMap.get?_set_of_ne _ _ h.1

theorem get?_bury_self {inc : EmergencyIncident} (h : rowPayloadKey js inc ≠ some inc.id)
    (time : Int) (tombs : Tombstones) : (bury js inc.id inc time tombs).get? inc.id = some time := by
  unfold bury
  split
  · rename_i payload hp
    have hne : inc.id ≠ payload := fun he => h (hp.trans (congrArg some he.symm))
    rw [OrderedMap.get?_set_of_ne _ _ hne, OrderedMap.get?_set_self]
  · exact OrderedMap.get?_set_self _ _ _

-- Each evicted row leaves a tombstone of its own age, which no other row's tombstones replace.
theorem get?_buryAll {evicted : List EmergencyIncident}
    (hn : (evicted.map EmergencyIncident.id).Nodup)
    (hpayload : ∀ a ∈ evicted, ∀ b ∈ evicted, rowPayloadKey js a ≠ some b.id)
    {inc : EmergencyIncident} (hm : inc ∈ evicted) (tombs : Tombstones) :
    (buryAll js evicted tombs).get? inc.id = some (closedAt inc) := by
  induction evicted using List.reverseRecOn generalizing tombs with
  | nil => exact absurd hm List.not_mem_nil
  | append_singleton front last ih =>
      have hlast : last ∈ front ++ [last] := List.mem_append_right _ (List.mem_singleton_self last)
      simp only [buryAll, List.foldl_append, List.foldl_cons, List.foldl_nil] at ih ⊢
      rw [List.map_append, List.nodup_append'] at hn
      rcases List.mem_append.mp hm with hfront | hm
      · rw [get?_bury_of_not_buriedUnder]
        · exact ih hn.1 (fun a ha b hb => hpayload a (List.mem_append_left _ ha) b
            (List.mem_append_left _ hb)) hfront tombs
        · rintro (hid | hpay)
          · exact hn.2.2 (List.mem_map_of_mem hfront) (by simp [hid])
          · exact hpayload last hlast inc hm hpay
      · rw [List.mem_singleton.mp hm]
        exact get?_bury_self (hpayload last hlast last hlast) _ _

theorem Evicted.mem_evictedRows {rows : Incidents} (hid : OwnIds rows) {tombs : Tombstones}
    {inc : EmergencyIncident} (h : Evicted rows (pruneIncidents js rows tombs) inc) :
    MAX_INCIDENTS < rows.size ∧ inc ∈ evictedRows rows ∧ isOpenCritical inc = false :=
  pruneIncidents_dropped js hid tombs h.1 (by simp [h.2])

-- A kept row that may be evicted comes after the cut, so after every evicted row.
theorem Evicted.rowRank_le {rows : Incidents} (hid : OwnIds rows) {tombs : Tombstones}
    {evicted kept : EmergencyIncident} (h : Evicted rows (pruneIncidents js rows tombs) evicted)
    (hkept : (pruneIncidents js rows tombs).incidents.get? kept.id = some kept)
    (hplain : isOpenCritical kept = false) : rowRank evicted ≤ rowRank kept := by
  obtain ⟨hover, hm, hevicted⟩ := h.mem_evictedRows hid
  have hkeptRows := ((pruneIncidents_get?_iff js hid tombs hover kept.id kept).mp hkept).1
  have hbefore : evicted ∈ overCap rows := (List.mem_filter.mp hm).1
  have hafter : kept ∈
      (evictionOrder rows).drop ((evictionOrder rows).length - MAX_INCIDENTS) := by
    refine (List.mem_append.mp hkeptRows).resolve_left fun hcrit => ?_
    rw [(List.mem_filter.mp hcrit).2] at hplain
    cases hplain
  have hsub := StableSort.pair_sublist_of_cut hbefore hafter
  have hsorted := List.pairwise_insertionSort (fun a b => compareEviction a b ≤ 0) rows.values
  exact rowRank_le_of_compareEviction (List.pairwise_iff_forall_sublist.mp hsorted hsub) hevicted
    hplain

theorem size_pruneIncidents_le {rows : Incidents} (hid : OwnIds rows) (tombs : Tombstones) :
    (pruneIncidents js rows tombs).incidents.size ≤
      max MAX_INCIDENTS ((pruneIncidents js rows tombs).incidents.values.countP isOpenCritical) := by
  by_cases hle : (pruneIncidents js rows tombs).incidents.size ≤ MAX_INCIDENTS
  · exact hle.trans (Nat.le_max_left _ _)
  · have hall : ∀ inc ∈ (pruneIncidents js rows tombs).incidents.values,
        isOpenCritical inc = true := by
      intro inc hm
      obtain ⟨k, hget⟩ := (OrderedMap.mem_values_iff _ _).mp hm
      exact pruneIncidents_over js hid tombs (by omega) hget
    rw [List.countP_eq_length.mpr hall, OrderedMap.values_length]
    exact Nat.le_max_right _ _

theorem Evicted.tombstone {rows : Incidents} (hid : OwnIds rows) {tombs : Tombstones}
    (hpayload : ∀ a b : EmergencyIncident, b.id ∈ rows.keys → rowPayloadKey js a ≠ some b.id)
    {inc : EmergencyIncident} (h : Evicted rows (pruneIncidents js rows tombs) inc) :
    (pruneIncidents js rows tombs).resolvedTombstones.get? inc.id = some (closedAt inc) ∨
      (pruneIncidents js rows tombs).resolvedTombstones.size = MAX_RESOLVED_TOMBSTONES ∧
        ∀ key time, (pruneIncidents js rows tombs).resolvedTombstones.get? key = some time →
          Outlasts (buryAll js (evictedRows rows) tombs) (key, time) (inc.id, closedAt inc) := by
  obtain ⟨hover, hm, _⟩ := h.mem_evictedRows hid
  have hsub : (evictedRows rows).Sublist (evictionOrder rows) :=
    List.filter_sublist.trans (List.take_sublist _ _)
  have hn : ((evictedRows rows).map EmergencyIncident.id).Nodup :=
    (((evictionOrder_perm rows).map _).nodup_iff.mpr hid.ids_nodup).sublist (hsub.map _)
  have hburied : (buryAll js (evictedRows rows) tombs).get? inc.id = some (closedAt inc) := by
    refine get?_buryAll hn (fun a _ b hb => hpayload a b ?_) hm tombs
    have hb := (evictionOrder_perm rows).mem_iff.mp (hsub.subset hb)
    exact (OrderedMap.mem_keys_iff _ _).mpr ⟨b, (hid.mem_values b).mp hb⟩
  rw [pruneIncidents_of_gt js tombs hover]
  exact pruneTombstones_get? hburied

theorem Reachable.payloadKey_ne (h : Reachable js s) {k : String}
    (hk : k ∈ (rowsWith js clock input severity s).keys) (inc : EmergencyIncident) :
    rowPayloadKey js inc ≠ some k := by
  rcases (OrderedMap.mem_keys_set _ _ _ _).mp hk with rfl | hk
  · exact fun hp => payloadKey_ne_fingerprint _ _ _ _ _ _ _ hp
  · obtain ⟨row, hget⟩ := (OrderedMap.mem_keys_iff _ _).mp hk
    obtain ⟨_, _, _, _, rfl⟩ := h.fingerprintIds k row hget
    exact fun hp => payloadKey_ne_fingerprint _ _ _ _ _ _ _ hp

-- The number that `cyrb53` writes in hexadecimal.
def hashNumber (units : List Nat) : Nat :=
  let h := units.foldl
    (fun (h : UInt32 × UInt32) ch =>
      ((h.1 ^^^ UInt32.ofNat ch) * (2654435761 : UInt32),
        (h.2 ^^^ UInt32.ofNat ch) * (1597334677 : UInt32)))
    ((0xdeadbeef : UInt32), (0x41c6ce57 : UInt32))
  let h1 : UInt32 := ((h.1 ^^^ (h.1 >>> (16 : UInt32))) * (2246822507 : UInt32)) ^^^
    ((h.2 ^^^ (h.2 >>> (13 : UInt32))) * (3266489909 : UInt32))
  let h2 : UInt32 := ((h.2 ^^^ (h.2 >>> (16 : UInt32))) * (2246822507 : UInt32)) ^^^
    ((h1 ^^^ (h1 >>> (13 : UInt32))) * (3266489909 : UInt32))
  4294967296 * (h2.toNat % 2097152) + h1.toNat

def digitsOf (number : Nat) : List Char :=
  List.replicate (14 - (Nat.toDigits 16 number).length) '0' ++ Nat.toDigits 16 number

theorem cyrb53_toList (str : String) :
    (cyrb53 str).toList = digitsOf (hashNumber (codeUnits str)) :=
  String.toList_ofList

theorem normalizedSender_toString (i : Nat) :
    asciiRuntime.toLowerCase (trim (toString i)) = toString i := by
  have hdigit : ∀ c ∈ Nat.toDigits 10 i, 48 ≤ c.toNat ∧ c.toNat ≤ 57 := by
    intro c hc
    have hc := Nat.isDigit_of_mem_toDigits (by decide) (by decide) hc
    simp only [Char.isDigit, Bool.and_eq_true, decide_eq_true_eq, ge_iff_le,
      UInt32.le_iff_toNat_le] at hc
    exact hc
  have hspace : ∀ c ∈ Nat.toDigits 10 i, isSpace c = false := by
    intro c hc
    have hc := hdigit c hc
    simp [isSpace]
    omega
  have hlower : ∀ c ∈ Nat.toDigits 10 i, c.toLower = c := by
    intro c hc
    unfold Char.toLower
    rw [dif_neg]
    rintro ⟨hupper, _⟩
    have hupper : 65 ≤ c.toNat := hupper
    have hc := hdigit c hc
    omega
  rw [trim, Nat.toString_eq_ofList_toDigits, String.toList_ofList, trimChars_of_forall hspace]
  change String.ofList ((String.ofList _).toList.map Char.toLower) = _
  rw [String.toList_ofList, List.map_congr_left hlower, List.map_id']

-- What the station with this number reports without any text.
def stationReport (severity : Severity) (i : Nat) : MecpIncidentInput :=
  heardReport (toString i) severity ["M01"] "" 0

def stationRow (severity : Severity) (i : Nat) : EmergencyIncident :=
  openedRow asciiRuntime 0 (stationReport severity i) severity

-- As many stations in distress as the store has room for.
def maydays (n : Nat) : List TimedOp :=
  (List.range n).map fun i => (0, .upsertFromMecp (stationReport 0 i))

theorem toString_inj {i j : Nat} (h : toString i = toString j) : i = j := by
  have hdigits := congrArg String.toList h
  rw [show (toString i).toList = _ from Nat.toList_repr,
    show (toString j).toList = _ from Nat.toList_repr] at hdigits
  rw [← Nat.ofDigitChars_ten_toDigits (n := i), hdigits, Nat.ofDigitChars_ten_toDigits]

theorem stationRow_id (severity : Severity) (i : Nat) : (stationRow severity i).id =
    "mecp-" ++ cyrb53 (toString severity.val ++ "|M01||" ++ toString i) := by
  have hcodes : normalizedCodes asciiRuntime ["M01"] = "M01" := by decide
  have htext : normalizeMecpFreetextForMatch asciiRuntime "" = "" := by decide
  have hkey : "|".intercalate [toString severity.val, "M01", "", toString i] =
      toString severity.val ++ "|M01||" ++ toString i := by
    apply String.toList_inj.mp
    simp
  change incidentFingerprint asciiRuntime severity ["M01"] "" (toString i) = _
  rw [incidentFingerprint, hcodes, htext, normalizedSender_toString]
  exact congrArg (fun key => "mecp-" ++ cyrb53 key) hkey

-- The digits of the fingerprint read as one number, which the kernel compares at once.
def stationNumber (severity : Severity) (i : Nat) : Nat :=
  (digitsOf (hashNumber ((Nat.toDigits 10 severity.val ++ ['|', 'M', '0', '1', '|', '|'] ++
    Nat.toDigits 10 i).flatMap charCodes))).foldl (fun v c => 128 * v + c.toNat) 0

theorem stationNumber_eq (severity : Severity) (i : Nat) : stationNumber severity i =
    ((stationRow severity i).id.toList.drop 5).foldl (fun v c => 128 * v + c.toNat) 0 := by
  have hunits : codeUnits (toString severity.val ++ "|M01||" ++ toString i) =
      (Nat.toDigits 10 severity.val ++ ['|', 'M', '0', '1', '|', '|'] ++
        Nat.toDigits 10 i).flatMap charCodes := by
    have hdigits : ∀ n : Nat, (toString n).toList = Nat.toDigits 10 n := fun n => Nat.toList_repr
    rw [codeUnits, String.toList_append, String.toList_append, hdigits, hdigits]
    rfl
  have hdrop : ("mecp-".toList ++
      (cyrb53 (toString severity.val ++ "|M01||" ++ toString i)).toList).drop 5 =
        (cyrb53 (toString severity.val ++ "|M01||" ++ toString i)).toList :=
    List.drop_left' (by decide)
  rw [stationNumber, ← hunits, ← cyrb53_toList, stationRow_id, String.toList_append, hdrop]

theorem stationNumbers_nodup :
    (stationNumber 3 200 :: (List.range 200).map (stationNumber 0)).Nodup := by
  decide +kernel

theorem stationRow_id_inj {i j : Nat} (hi : i < 200) (hj : j < 200)
    (h : (stationRow 0 i).id = (stationRow 0 j).id) : i = j := by
  apply List.inj_on_of_nodup_map (List.nodup_cons.mp stationNumbers_nodup).2
    (List.mem_range.mpr hi) (List.mem_range.mpr hj)
  rw [stationNumber_eq, stationNumber_eq, h]

theorem stationRow_id_ne {i : Nat} (hi : i < 200) : (stationRow 0 i).id ≠ (stationRow 3 200).id := by
  intro h
  apply (List.nodup_cons.mp stationNumbers_nodup).1
  refine List.mem_map.mpr ⟨i, List.mem_range.mpr hi, ?_⟩
  rw [stationNumber_eq, stationNumber_eq, h]

-- A station not heard before opens a row.
theorem opensRow_station {severity : Severity} {n i : Nat} (hi : n ≤ i) {s : IncidentSnapshot}
    (hvalues : s.incidents.values = (List.range n).map (stationRow 0)) (hid : OwnIds s.incidents)
    (hnew : ∀ j < n, (stationRow 0 j).id ≠ (stationRow severity i).id) :
    OpensRow asciiRuntime 0 (stationReport severity i) severity s := by
  have hold : ∀ row ∈ s.incidents.values, ∃ j < n, row = stationRow 0 j := by
    intro row hrow
    rw [hvalues] at hrow
    obtain ⟨j, hj, rfl⟩ := List.mem_map.mp hrow
    exact ⟨j, List.mem_range.mp hj, rfl⟩
  have hget : s.incidents.get? (stationRow severity i).id = none := by
    rw [OrderedMap.get?_eq_none_iff, ← hid.values_id]
    intro hm
    obtain ⟨row, hrow, he⟩ := List.mem_map.mp hm
    obtain ⟨j, hj, rfl⟩ := hold row hrow
    exact hnew j hj he
  have hsender : s.incidents.values.find? (matchesSameSender asciiRuntime
      (queryOf asciiRuntime (stationReport severity i) severity "" 0)) = none := by
    rw [List.find?_eq_none]
    intro row hrow hmatch
    obtain ⟨j, hj, rfl⟩ := hold row hrow
    simp only [matchesSameSender, Bool.and_eq_true, decide_eq_true_eq] at hmatch
    have hji : j = i := toString_inj hmatch.1.2
    omega
  have hbridged : s.incidents.values.find? (matchesCrossProtocol asciiRuntime
      (queryOf asciiRuntime (stationReport severity i) severity "" 0)) = none := by
    rw [List.find?_eq_none]
    intro row hrow hmatch
    obtain ⟨j, _, rfl⟩ := hold row hrow
    simp only [matchesCrossProtocol, Bool.and_eq_true] at hmatch
    have hseen : (!(stationRow 0 j).protocolsSeen.contains .meshtastic) = true := hmatch.1.1.1.2
    simp [stationRow, openedRow, createIncident, stationReport, heardReport] at hseen
  refine ⟨⟨rfl, rfl, rfl, rfl⟩, fun hseed => by simp [stationReport, heardReport] at hseed, ?_⟩
  change findExistingIncident asciiRuntime s.incidents
    (queryOf asciiRuntime (stationReport severity i) severity "" 0) = none
  have hquery : (queryOf asciiRuntime (stationReport severity i) severity "" 0).id =
      (stationRow severity i).id := rfl
  rw [findExistingIncident, hquery, hget]
  simp only [hsender, hbridged]

theorem reachable_maydays (n : Nat) :
    Reachable asciiRuntime (run asciiRuntime .empty (maydays n)) := ⟨maydays n, rfl⟩

theorem run_maydays {n : Nat} (hn : n ≤ 200) :
    (run asciiRuntime .empty (maydays n)).incidents.values = (List.range n).map (stationRow 0) := by
  induction n with
  | zero => rfl
  | succ n ih =>
      have hvalues := ih (by omega)
      have hid : OwnIds (run asciiRuntime .empty (maydays n)).incidents :=
        (reachable_maydays n).ownIds
      have hnew : ∀ j < n, (stationRow 0 j).id ≠ (stationRow 0 n).id := by
        intro j hj he
        have hjn := stationRow_id_inj (by omega) (by omega) he
        omega
      have hopens := opensRow_station (Nat.le_refl n) hvalues hid hnew
      have hfresh := (OrderedMap.get?_eq_none_iff _ _).mp hopens.fresh
      have hsize : (rowsWith asciiRuntime 0 (stationReport 0 n) 0
          (run asciiRuntime .empty (maydays n))).size ≤ MAX_INCIDENTS := by
        rw [rowsWith, OrderedMap.size_set_of_notMem _ _ hfresh, ← OrderedMap.values_length, hvalues,
          List.length_map, List.length_range]
        unfold MAX_INCIDENTS
        exact hn
      have hlast : maydays (n + 1) = maydays n ++ [(0, .upsertFromMecp (stationReport 0 n))] := by
        rw [maydays, List.range_succ, List.map_append]
        rfl
      rw [hlast, run, Run.run_concat, ← run, hopens.step_eq, pruneIncidents_of_le _ _ hsize,
        List.range_succ, List.map_append, ← hvalues]
      simp only [rowsWith, OrderedMap.values, OrderedMap.entries_set_of_notMem _ _ hfresh,
        List.map_append]
      rfl

-- A routine report that reaches a store full of MAYDAYs.
theorem opensRow_routine : OpensRow asciiRuntime 0 (stationReport 3 200) 3
    (run asciiRuntime .empty (maydays 200)) :=
  opensRow_station (Nat.le_refl 200) (run_maydays (Nat.le_refl 200))
    (reachable_maydays 200).ownIds fun _ hj => stationRow_id_ne hj


-- What a report that opens a row leaves of the rows when the store is full.
theorem capped_on_open (h : Reachable js s) (hopens : OpensRow js clock input severity s) :
    let created := openedRow js clock input severity
    let rows := s.incidents.set created.id created
    let s' := step js s (clock, .upsertFromMecp input)
    s.incidents.get? created.id = none ∧
    (∀ inc, rows.get? inc.id = some inc → isOpenCritical inc = true →
      s'.incidents.get? inc.id = some inc) ∧
    s'.incidents.size ≤ max MAX_INCIDENTS (s'.incidents.values.countP isOpenCritical) ∧
    (∀ evicted kept, Evicted rows s' evicted → s'.incidents.get? kept.id = some kept →
      isOpenCritical kept = false → rowRank evicted ≤ rowRank kept) ∧
    ∀ evicted, Evicted rows s' evicted →
      s'.resolvedTombstones.get? evicted.id = some (closedAt evicted) ∨
        s'.resolvedTombstones.size = MAX_RESOLVED_TOMBSTONES ∧
          ∀ key time, s'.resolvedTombstones.get? key = some time →
            Outlasts (buryAll js (evictedRows rows) s.resolvedTombstones) (key, time)
              (evicted.id, closedAt evicted) := by
  intro created rows s'
  have hid : OwnIds rows := OpensRow.ownIds h
  have hstep : s' = pruneIncidents js rows s.resolvedTombstones := hopens.step_eq
  rw [hstep]
  refine ⟨hopens.fresh, fun inc hget hcrit => ?_, size_pruneIncidents_le hid _, ?_, ?_⟩
  · by_contra hdrop
    have hplain := (pruneIncidents_dropped js hid _ hget hdrop).2.2
    rw [hcrit] at hplain
    cases hplain
  · exact fun evicted kept hevicted hkept hplain => hevicted.rowRank_le hid hkept hplain
  · exact fun evicted hevicted => hevicted.tombstone hid fun a b hb => h.payloadKey_ne hb a

theorem capped_on_open_routine :
    let s := run asciiRuntime .empty (maydays 200)
    let created := stationRow 3 200
    let rows := s.incidents.set created.id created
    let s' := step asciiRuntime s (0, .upsertFromMecp (stationReport 3 200))
    s.incidents.get? created.id = none ∧
    (∀ inc, rows.get? inc.id = some inc → isOpenCritical inc = true →
      s'.incidents.get? inc.id = some inc) ∧
    s'.incidents.size ≤ max MAX_INCIDENTS (s'.incidents.values.countP isOpenCritical) ∧
    (∀ evicted kept, Evicted rows s' evicted → s'.incidents.get? kept.id = some kept →
      isOpenCritical kept = false → rowRank evicted ≤ rowRank kept) ∧
    ∀ evicted, Evicted rows s' evicted →
      s'.resolvedTombstones.get? evicted.id = some (closedAt evicted) ∨
        s'.resolvedTombstones.size = MAX_RESOLVED_TOMBSTONES ∧
          ∀ key time, s'.resolvedTombstones.get? key = some time →
            Outlasts (buryAll asciiRuntime (evictedRows rows) s.resolvedTombstones) (key, time)
              (evicted.id, closedAt evicted) :=
  capped_on_open (reachable_maydays 200) opensRow_routine

end MeshClient.Incident
