import MeshClient.Mqtt.ChannelKeys

namespace MeshClient.Mqtt

open Js Lists Run

-- Everything the manual lines do not decide is as the radio pushed it.
structure Layered (slots : String → Nat → Prop) (keys : String → Psk → Prop) (s : ChannelKeys) : Prop where
  slots : ∀ name idx, s.radioTopicIndexByName.get? name = some idx → slots name idx
  keys : ∀ name ∉ s.manualChannelKeyNames, ∀ key, s.channelKeysByName.get? name = some key → keys name key
  indexed : ∀ name ∉ s.manualChannelKeyNames, s.channelNameToIndex.get? name = s.radioTopicIndexByName.get? name
  keyNames : ∀ name, name ∈ s.radioChannelKeyNames ↔
    name ∈ s.channelKeysByName.keys ∧ name ∉ s.manualChannelKeyNames

-- The step leaves the manual lines' part alone.
structure SameManual (s s' : ChannelKeys) : Prop where
  lines : s'.manualChannelPskLines = s.manualChannelPskLines
  names : s'.manualChannelKeyNames = s.manualChannelKeyNames
  extra : s'.extraDecryptPsks = s.extraDecryptPsks
  session : s'.radioChannelSessionId = s.radioChannelSessionId

-- The named channels are gone from the radio's maps.
structure Evicted (names : List String) (s s' : ChannelKeys) : Prop where
  radio : ∀ name, s'.radioTopicIndexByName.get? name =
    if name ∈ names then none else s.radioTopicIndexByName.get? name
  index : ∀ name, s'.channelNameToIndex.get? name = if name ∈ names then none else s.channelNameToIndex.get? name
  keys : ∀ name, s'.channelKeysByName.get? name =
    if name ∈ names ∧ name ∈ s.radioChannelKeyNames then none else s.channelKeysByName.get? name
  keyNames : ∀ name, name ∈ s'.radioChannelKeyNames ↔ name ∈ s.radioChannelKeyNames ∧ name ∉ names
  manual : SameManual s s'

variable {decode : String → List UInt8} {slots slots' : String → Nat → Prop} {keys keys' : String → Psk → Prop}
variable {s s' s'' : ChannelKeys}

theorem SameManual.refl (s : ChannelKeys) : SameManual s s := ⟨rfl, rfl, rfl, rfl⟩

theorem SameManual.trans (h : SameManual s s') (h' : SameManual s' s'') : SameManual s s'' :=
  ⟨h'.lines.trans h.lines, h'.names.trans h.names, h'.extra.trans h.extra, h'.session.trans h.session⟩

theorem evicted_one (s : ChannelKeys) (name : String) : Evicted [name] s (s.evictRadioChannelName name) := by
  unfold ChannelKeys.evictRadioChannelName
  dsimp only
  split_ifs with hname
  · refine ⟨fun other => ?_, fun other => ?_, fun other => ?_, fun other => ?_, ⟨rfl, rfl, rfl, rfl⟩⟩
    · simp [OrderedMap.get?_erase]
    · simp [OrderedMap.get?_erase]
    · by_cases hother : other = name
      · subst hother
        simp [OrderedMap.get?_erase, hname]
      · simp [OrderedMap.get?_erase, hother]
    · simp
  · refine ⟨fun other => ?_, fun other => ?_, fun other => ?_, fun other => ?_, ⟨rfl, rfl, rfl, rfl⟩⟩
    · simp [OrderedMap.get?_erase]
    · simp [OrderedMap.get?_erase]
    · by_cases hother : other = name
      · subst hother
        simp [hname]
      · simp [hother]
    · simp only [List.mem_singleton]
      constructor
      · intro hmem
        exact ⟨hmem, fun heq => hname (heq ▸ hmem)⟩
      · exact And.left

theorem evicted_nil (s : ChannelKeys) : Evicted [] s s :=
  ⟨by simp, by simp, by simp, by simp, .refl s⟩

theorem Evicted.append {names names' : List String} (h : Evicted names s s') (h' : Evicted names' s' s'') :
    Evicted (names ++ names') s s'' := by
  refine ⟨fun name => ?_, fun name => ?_, fun name => ?_, fun name => ?_, h.manual.trans h'.manual⟩
  · rw [h'.radio, h.radio]
    by_cases hin : name ∈ names <;> by_cases hin' : name ∈ names' <;> simp [hin, hin']
  · rw [h'.index, h.index]
    by_cases hin : name ∈ names <;> by_cases hin' : name ∈ names' <;> simp [hin, hin']
  · simp only [h'.keys, h.keys, h.keyNames]
    by_cases hin : name ∈ names <;> by_cases hin' : name ∈ names' <;> simp [hin, hin']
  · rw [h'.keyNames, h.keyNames, List.mem_append]
    tauto

theorem evicted_all (s : ChannelKeys) (names : List String) : Evicted names s (s.evictAll names) := by
  induction names generalizing s with
  | nil => exact evicted_nil s
  | cons name rest ih => exact (evicted_one s name).append (ih (s.evictRadioChannelName name))

theorem mem_namesAt (m : OrderedMap String Nat) (idx : Nat) (name other : String) :
    other ∈ namesAt m idx name ↔ m.get? other = some idx ∧ other ≠ name := by
  rw [← OrderedMap.mem_entries_iff]
  simp [namesAt]

-- Taking a slot evicts the names that have it.
theorem takeSlot_evicted (s : ChannelKeys) (name : String) (idx : Nat) :
    ∃ s' names, s.takeSlot name idx = { s' with
        radioTopicIndexByName := s'.radioTopicIndexByName.set name idx
        channelNameToIndex := s'.channelNameToIndex.set name idx } ∧
      Evicted names s s' ∧ ∀ other, other ∈ names ↔ other ≠ name ∧
        (s.channelNameToIndex.get? other = some idx ∨ s.radioTopicIndexByName.get? other = some idx) := by
  have hfirst := evicted_all s (namesAt s.channelNameToIndex idx name)
  have hsecond := evicted_all (s.evictAll (namesAt s.channelNameToIndex idx name))
    (namesAt (s.evictAll (namesAt s.channelNameToIndex idx name)).radioTopicIndexByName idx name)
  refine ⟨_, _, rfl, hfirst.append hsecond, fun other => ?_⟩
  simp only [List.mem_append, mem_namesAt, hfirst.radio]
  by_cases hother : other = name <;> by_cases hslot : s.channelNameToIndex.get? other = some idx <;>
    simp [hother, hslot]

theorem takeSlot_manual (s : ChannelKeys) (name : String) (idx : Nat) : SameManual s (s.takeSlot name idx) := by
  obtain ⟨s', names, heq, hevicted, _⟩ := takeSlot_evicted s name idx
  rw [heq]
  exact ⟨hevicted.manual.lines, hevicted.manual.names, hevicted.manual.extra, hevicted.manual.session⟩

theorem Layered.mono (h : Layered slots keys s) (hslots : ∀ name idx, slots name idx → slots' name idx)
    (hkeys : ∀ name key, keys name key → keys' name key) : Layered slots' keys' s :=
  ⟨fun name idx hget => hslots name idx (h.slots name idx hget),
    fun name hname key hget => hkeys name key (h.keys name hname key hget), h.indexed, h.keyNames⟩

theorem Layered.evicted {names : List String} (h : Layered slots keys s) (he : Evicted names s s') :
    Layered slots keys s' := by
  refine ⟨fun name idx hget => ?_, fun name hname key hget => ?_, fun name hname => ?_, fun name => ?_⟩
  · rw [he.radio] at hget
    split_ifs at hget
    exact h.slots name idx hget
  · rw [he.manual.names] at hname
    rw [he.keys] at hget
    split_ifs at hget
    exact h.keys name hname key hget
  · rw [he.manual.names] at hname
    rw [he.index, he.radio, h.indexed name hname]
  · rw [he.keyNames, he.manual.names, h.keyNames, OrderedMap.mem_keys_iff, OrderedMap.mem_keys_iff, he.keys]
    by_cases hname : name ∈ names
    · by_cases hradio : name ∈ s.radioChannelKeyNames
      · simp [hname, hradio]
      · rw [h.keyNames, OrderedMap.mem_keys_iff] at hradio
        simp only [hname, not_true_eq_false, and_false, false_iff, true_and]
        rw [if_neg (by rwa [h.keyNames, OrderedMap.mem_keys_iff])]
        exact hradio
    · simp [hname]

theorem Layered.takeSlot {name : String} {idx : Nat} (h : Layered slots keys s) (hslot : slots name idx) :
    Layered slots keys (s.takeSlot name idx) := by
  obtain ⟨s', names, heq, hevicted, _⟩ := takeSlot_evicted s name idx
  have h' := h.evicted hevicted
  rw [heq]
  refine ⟨fun other idx' hget => ?_, h'.keys, fun other hother => ?_, h'.keyNames⟩
  · rw [OrderedMap.get?_set] at hget
    split_ifs at hget with hname
    · obtain rfl := Option.some.inj hget
      exact hname ▸ hslot
    · exact h'.slots other idx' hget
  · rw [OrderedMap.get?_set, OrderedMap.get?_set, h'.indexed other hother]

theorem Layered.addRadioKey {name : String} {psk : Psk} (h : Layered slots keys s) (hkey : keys name psk)
    (hname : name ∉ s.manualChannelKeyNames) : Layered slots keys (s.addRadioKey name psk) := by
  refine ⟨h.slots, fun other hother key hget => ?_, h.indexed, fun other => ?_⟩
  · change (s.channelKeysByName.set name psk).get? other = some key at hget
    rw [OrderedMap.get?_set] at hget
    split_ifs at hget with heq
    · obtain rfl := Option.some.inj hget
      exact heq ▸ hkey
    · exact h.keys other hother key hget
  · change other ∈ s.radioChannelKeyNames.insert name ↔ other ∈ (s.channelKeysByName.set name psk).keys ∧
      other ∉ s.manualChannelKeyNames
    rw [List.mem_insert_iff, OrderedMap.mem_keys_iff, OrderedMap.get?_set]
    by_cases heq : other = name
    · subst heq
      simp [hname]
    · have hradio := h.keyNames other
      rw [OrderedMap.mem_keys_iff] at hradio
      simpa [heq] using hradio

theorem Layered.clear (h : Layered slots keys s) :
    Layered (fun _ _ => False) (fun _ _ => False) s.clearRadioChannelAttribution := by
  refine ⟨fun name idx hget => ?_, fun name hname key hget => ?_, fun name hname => ?_, fun name => ?_⟩
  · change (∅ : OrderedMap String Nat).get? name = some idx at hget
    simp at hget
  · change (s.channelKeysByName.filter fun name _ => name ∉ s.radioChannelKeyNames).get? name = some key at hget
    rw [OrderedMap.get?_filter, Option.filter_eq_some_iff] at hget
    have hmem : name ∈ s.radioChannelKeyNames :=
      (h.keyNames name).mpr ⟨(OrderedMap.mem_keys_iff _ _).mpr ⟨key, hget.1⟩, hname⟩
    simp [hmem] at hget
  · change (s.channelNameToIndex.filter fun name _ => name ∉ s.radioTopicIndexByName.keys).get? name = none
    rw [OrderedMap.get?_filter, h.indexed name hname]
    cases hget : s.radioTopicIndexByName.get? name with
    | none => rfl
    | some idx =>
        have hmem : name ∈ s.radioTopicIndexByName.keys := (OrderedMap.mem_keys_iff _ _).mpr ⟨idx, hget⟩
        simp [Option.filter, hmem]
  · change name ∈ ([] : List String) ↔
      name ∈ (s.channelKeysByName.filter fun name _ => name ∉ s.radioChannelKeyNames).keys ∧
        name ∉ s.manualChannelKeyNames
    rw [OrderedMap.mem_keys_filter]
    have hradio := h.keyNames name
    simp only [List.not_mem_nil, false_iff, decide_eq_true_eq]
    tauto

section Manual

variable {line : String} {lines : List String} {name : String}

-- What one manual line does, and what all of them do.
structure Applied (key : String → Option Psk) (slot : String → Option Nat) (bare : List Psk)
    (s s' : ChannelKeys) : Prop where
  keys : ∀ name, s'.channelKeysByName.get? name = (key name).or (s.channelKeysByName.get? name)
  slots : ∀ name, s'.channelNameToIndex.get? name = (slot name).or (s.channelNameToIndex.get? name)
  names : ∀ name, name ∈ s'.manualChannelKeyNames ↔ (key name).isSome ∨ name ∈ s.manualChannelKeyNames
  bare : s'.decryptOnlyPsks = s.decryptOnlyPsks ++ bare
  radio : s'.radioTopicIndexByName = s.radioTopicIndexByName
  radioKeys : s'.radioChannelKeyNames = s.radioChannelKeyNames
  lines : s'.manualChannelPskLines = s.manualChannelPskLines
  extra : s'.extraDecryptPsks = s.extraDecryptPsks
  session : s'.radioChannelSessionId = s.radioChannelSessionId

theorem applied_line (s : ChannelKeys) (line : String) :
    Applied (fun name => lineKey decode name line) (fun name => lineSlot decode name line)
      (bareKey decode line).toList s (s.applyLine decode line) := by
  unfold ChannelKeys.applyLine lineKey lineSlot bareKey
  cases parseChannelPskLine decode line with
  | none => exact ⟨by simp, by simp, by simp, by simp, rfl, rfl, rfl, rfl, rfl⟩
  | some parsed =>
      obtain ⟨name, index, psk⟩ := parsed
      cases name with
      | none => exact ⟨by simp, by simp, by simp, by simp, rfl, rfl, rfl, rfl, rfl⟩
      | some name =>
          have hkeys : ∀ other, (s.channelKeysByName.set name psk).get? other =
              (if some name = some other then some psk else none).or (s.channelKeysByName.get? other) := by
            intro other
            rw [OrderedMap.get?_set]
            by_cases hother : other = name
            · simp [hother]
            · simp [hother, Ne.symm hother]
          have hnames : ∀ other, other ∈ s.manualChannelKeyNames.insert name ↔
              (if some name = some other then some psk else none).isSome ∨ other ∈ s.manualChannelKeyNames := by
            intro other
            rw [List.mem_insert_iff]
            by_cases hother : other = name
            · simp [hother]
            · simp [hother, Ne.symm hother]
          have hslots : ∀ idx other, (s.channelNameToIndex.set name idx).get? other =
              (if some name = some other then some idx else none).or (s.channelNameToIndex.get? other) := by
            intro idx other
            rw [OrderedMap.get?_set]
            by_cases hother : other = name
            · simp [hother]
            · simp [hother, Ne.symm hother]
          cases index with
          | some idx =>
              simp only [Option.bind_some, reduceCtorEq, if_false, Option.toList_none]
              split_ifs with hidx
              · exact ⟨hkeys, hslots idx, hnames, by simp, rfl, rfl, rfl, rfl, rfl⟩
              · exact ⟨hkeys, by simp, hnames, by simp, rfl, rfl, rfl, rfl, rfl⟩
          | none =>
              simp only [Option.bind_some, reduceCtorEq, if_false, Option.toList_none]
              split_ifs with hname
              · refine ⟨hkeys, fun other => ?_, hnames, by simp, rfl, rfl, rfl, rfl, rfl⟩
                change (s.channelNameToIndex.set name 0).get? other = _
                rw [hslots]
                by_cases hother : some name = some other
                · rw [if_pos hother, if_pos hother, if_pos (Option.some.inj hother ▸ hname)]
                · rw [if_neg hother, if_neg hother]
              · refine ⟨hkeys, fun other => ?_, hnames, by simp, rfl, rfl, rfl, rfl, rfl⟩
                by_cases hother : some name = some other
                · rw [if_pos hother, if_neg (Option.some.inj hother ▸ hname), Option.none_or]
                · rw [if_neg hother, Option.none_or]

theorem applied_lines (s : ChannelKeys) (lines : List String) :
    Applied (fun name => manualKey decode name lines) (fun name => manualSlot decode name lines)
      (lines.filterMap (bareKey decode)) s (lines.foldl (ChannelKeys.applyLine decode) s) := by
  induction lines using List.reverseRecOn with
  | nil => exact ⟨by simp [manualKey], by simp [manualSlot], by simp [manualKey], by simp, rfl, rfl, rfl, rfl, rfl⟩
  | append_singleton lines line ih =>
      have hline := @applied_line decode (lines.foldl (ChannelKeys.applyLine decode) s) line
      have hkey : ∀ name, manualKey decode name (lines ++ [line]) =
          (lineKey decode name line).or (manualKey decode name lines) := by
        intro name
        rw [manualKey, List.reverse_append, List.reverse_singleton, List.singleton_append, List.findSome?_cons]
        cases lineKey decode name line <;> rfl
      have hslot : ∀ name, manualSlot decode name (lines ++ [line]) =
          (lineSlot decode name line).or (manualSlot decode name lines) := by
        intro name
        rw [manualSlot, List.reverse_append, List.reverse_singleton, List.singleton_append, List.findSome?_cons]
        cases lineSlot decode name line <;> rfl
      rw [List.foldl_append, List.foldl_cons, List.foldl_nil]
      refine ⟨fun name => ?_, fun name => ?_, fun name => ?_, ?_, hline.radio.trans ih.radio,
        hline.radioKeys.trans ih.radioKeys, hline.lines.trans ih.lines, hline.extra.trans ih.extra,
        hline.session.trans ih.session⟩
      · rw [hline.keys, ih.keys, hkey, Option.or_assoc]
      · rw [hline.slots, ih.slots, hslot, Option.or_assoc]
      · rw [hline.names, ih.names, hkey, Option.isSome_or, Bool.or_eq_true, or_assoc]
      · rw [hline.bare, ih.bare, List.filterMap_append, List.append_assoc]
        cases hb : bareKey decode line <;> simp [hb]

theorem manualKey_of_slot {idx : Nat} (h : manualSlot decode name lines = some idx) :
    (manualKey decode name lines).isSome := by
  obtain ⟨line, hline, hslot⟩ := List.exists_of_findSome?_eq_some h
  rw [manualKey, List.findSome?_isSome_iff]
  refine ⟨line, hline, ?_⟩
  unfold lineSlot at hslot
  unfold lineKey
  obtain ⟨parsed, hparsed, hslot⟩ := Option.bind_eq_some_iff.mp hslot
  rw [hparsed, Option.bind_some]
  by_cases hname : parsed.name = some name
  · rw [if_pos hname]
    rfl
  · rw [if_neg hname] at hslot
    cases hslot

end Manual

-- The state between two pushes.
structure Settled (decode : String → List UInt8) (lines : List String) (slots : String → Nat → Prop)
    (keys : String → Psk → Prop) (s : ChannelKeys) : Prop where
  given : s.manualChannelPskLines = lines
  names : ∀ name, name ∈ s.manualChannelKeyNames ↔ (manualKey decode name lines).isSome
  layered : Layered slots keys s
  manual : ∀ name key, manualKey decode name lines = some key → s.channelKeysByName.get? name = some key
  attributed : ∀ name, s.channelNameToIndex.get? name =
    (s.radioTopicIndexByName.get? name).or (manualSlot decode name lines)
  bare : s.decryptOnlyPsks = lines.filterMap (bareKey decode)
  all : s.allDecryptKeys =
    unique ([DEFAULT_PSK] ++ s.extraDecryptPsks ++ s.channelKeysByName.values ++ s.decryptOnlyPsks)

theorem get?_setAll_entries (m m' : OrderedMap String Nat) (name : String) :
    (m.setAll m'.entries).get? name = (m'.get? name).or (m.get? name) := by
  cases hget : m'.get? name with
  | none =>
      rw [OrderedMap.get?_setAll_of_notMem _ _ _ ((OrderedMap.get?_eq_none_iff m' name).mp hget)]
      rfl
  | some idx =>
      rw [OrderedMap.get?_setAll_of_mem _ m'.nodup ((OrderedMap.mem_entries_iff m' name idx).mpr hget)]
      rfl

-- The manual lines are applied again, and the radio's slots over them.
theorem settled_of_layered (h : Layered slots keys s)
    (hnames : ∀ name, name ∈ s.manualChannelKeyNames → (manualKey decode name s.manualChannelPskLines).isSome)
    (hfree : ∀ name ∈ s.radioChannelKeyNames, manualKey decode name s.manualChannelPskLines = none) :
    Settled decode s.manualChannelPskLines slots keys
      ({ s.applyManualChannelPskLines decode s.manualChannelPskLines with
        channelNameToIndex := (s.applyManualChannelPskLines decode
            s.manualChannelPskLines).channelNameToIndex.setAll
          (s.applyManualChannelPskLines decode s.manualChannelPskLines).radioTopicIndexByName.entries
      } : ChannelKeys).rebuildAllDecryptKeys := by
  have ha := @applied_lines decode { s with
    channelKeysByName := s.channelKeysByName.filter fun name _ => name ∉ s.manualChannelKeyNames
    channelNameToIndex := s.channelNameToIndex.filter fun name _ => name ∉ s.manualChannelKeyNames
    manualChannelKeyNames := []
    decryptOnlyPsks := [] } s.manualChannelPskLines
  change Applied _ _ _ _ (s.applyManualChannelPskLines decode s.manualChannelPskLines) at ha
  generalize s.applyManualChannelPskLines decode s.manualChannelPskLines = s' at ha ⊢
  have hnames' : ∀ name, name ∈ s'.manualChannelKeyNames ↔
      (manualKey decode name s.manualChannelPskLines).isSome := by
    intro name
    rw [ha.names]
    simp
  -- names without a manual line are as the radio has them
  have hradio : ∀ name ∉ s'.manualChannelKeyNames,
      s'.channelKeysByName.get? name = s.channelKeysByName.get? name ∧
      s'.channelNameToIndex.get? name = s.channelNameToIndex.get? name := by
    intro name hname
    have hold : name ∉ s.manualChannelKeyNames := fun hmem => hname ((hnames' name).mpr (hnames name hmem))
    rw [hnames'] at hname
    have hkey : manualKey decode name s.manualChannelPskLines = none := by simpa using hname
    have hslot : manualSlot decode name s.manualChannelPskLines = none := by
      rw [Option.eq_none_iff_forall_not_mem]
      intro idx hidx
      exact hname (manualKey_of_slot hidx)
    constructor
    · rw [ha.keys, hkey, Option.none_or, OrderedMap.get?_filter]
      cases hget : s.channelKeysByName.get? name with
      | none => rfl
      | some key => simp [Option.filter, hold]
    · rw [ha.slots, hslot, Option.none_or, OrderedMap.get?_filter]
      cases hget : s.channelNameToIndex.get? name with
      | none => rfl
      | some idx => simp [Option.filter, hold]
  refine ⟨ha.lines, hnames', ⟨?_, ?_, ?_, ?_⟩, ?_, ?_, ha.bare, rfl⟩
  · intro name idx hget
    refine h.slots name idx ?_
    rw [← hget]
    exact congrArg (fun m => OrderedMap.get? m name) ha.radio.symm
  · intro name hname key hget
    refine h.keys name (fun hmem => hname ((hnames' name).mpr (hnames name hmem))) key ?_
    rw [← (hradio name hname).1]
    exact hget
  · intro name hname
    change (s'.channelNameToIndex.setAll s'.radioTopicIndexByName.entries).get? name =
      s'.radioTopicIndexByName.get? name
    rw [get?_setAll_entries, (hradio name hname).2,
      h.indexed name (fun hmem => hname ((hnames' name).mpr (hnames name hmem))), ha.radio]
    exact Option.or_self
  · intro name
    change name ∈ s'.radioChannelKeyNames ↔ name ∈ s'.channelKeysByName.keys ∧ name ∉ s'.manualChannelKeyNames
    have hkeys := h.keyNames name
    rw [ha.radioKeys]
    by_cases hname : name ∈ s'.manualChannelKeyNames
    · simp only [hname, not_true_eq_false, and_false, iff_false]
      intro hmem
      rw [hnames', hfree name hmem] at hname
      cases hname
    · have hold : name ∉ s.manualChannelKeyNames := fun hmem => hname ((hnames' name).mpr (hnames name hmem))
      rw [OrderedMap.mem_keys_iff] at hkeys ⊢
      rw [(hradio name hname).1]
      simpa [hname, hold] using hkeys
  · intro name key hkey
    change s'.channelKeysByName.get? name = some key
    rw [ha.keys, hkey, Option.some_or]
  · intro name
    change (s'.channelNameToIndex.setAll s'.radioTopicIndexByName.entries).get? name =
      (s'.radioTopicIndexByName.get? name).or (manualSlot decode name s.manualChannelPskLines)
    rw [get?_setAll_entries]
    by_cases hname : name ∈ s.manualChannelKeyNames
    · have hgone : (s.channelNameToIndex.filter fun name _ => name ∉ s.manualChannelKeyNames).get? name = none := by
        rw [OrderedMap.get?_filter]
        cases s.channelNameToIndex.get? name <;> simp [Option.filter, hname]
      rw [ha.slots]
      change (s'.radioTopicIndexByName.get? name).or ((manualSlot decode name s.manualChannelPskLines).or
        ((s.channelNameToIndex.filter fun name _ => name ∉ s.manualChannelKeyNames).get? name)) = _
      rw [hgone, Option.or_none]
    · have hkept : (s.channelNameToIndex.filter fun name _ => name ∉ s.manualChannelKeyNames).get? name =
          s'.radioTopicIndexByName.get? name := by
        rw [OrderedMap.get?_filter, h.indexed name hname, ha.radio]
        cases s.radioTopicIndexByName.get? name <;> simp [Option.filter, hname]
      rw [ha.slots]
      change (s'.radioTopicIndexByName.get? name).or ((manualSlot decode name s.manualChannelPskLines).or
        ((s.channelNameToIndex.filter fun name _ => name ∉ s.manualChannelKeyNames).get? name)) = _
      rw [hkept]
      cases s'.radioTopicIndexByName.get? name with
      | none => simp
      | some idx => rfl

section Loops

variable {name : String} {idx : Nat} {entries : List (String × Nat)}

-- The slot belongs to the name and to no other name of the radio's map.
structure Holds (name : String) (idx : Nat) (s : ChannelKeys) : Prop where
  radio : s.radioTopicIndexByName.get? name = some idx
  index : s.channelNameToIndex.get? name = some idx
  only : ∀ other, s.radioTopicIndexByName.get? other = some idx → other = name

theorem holds_takeSlot (s : ChannelKeys) (name : String) (idx : Nat) : Holds name idx (s.takeSlot name idx) := by
  obtain ⟨s', names, heq, hevicted, hmem⟩ := takeSlot_evicted s name idx
  rw [heq]
  refine ⟨OrderedMap.get?_set_self _ _ _, OrderedMap.get?_set_self _ _ _, fun other hget => ?_⟩
  change (s'.radioTopicIndexByName.set name idx).get? other = some idx at hget
  by_contra hother
  rw [OrderedMap.get?_set_of_ne _ _ hother, hevicted.radio] at hget
  split_ifs at hget with hin
  exact hin ((hmem other).mpr ⟨hother, Or.inr hget⟩)

theorem Holds.takeSlot {name' : String} {idx' : Nat} (h : Holds name idx s) (hname : name ≠ name')
    (hidx : idx ≠ idx') : Holds name idx (s.takeSlot name' idx') := by
  obtain ⟨s', names, heq, hevicted, hmem⟩ := takeSlot_evicted s name' idx'
  have hstays : name ∉ names := by
    rw [hmem, h.radio, h.index]
    rintro ⟨_, hsame | hsame⟩
    · exact hidx (Option.some.inj hsame)
    · exact hidx (Option.some.inj hsame)
  rw [heq]
  refine ⟨?_, ?_, fun other hget => ?_⟩
  · rw [OrderedMap.get?_set_of_ne _ _ hname, hevicted.radio, if_neg hstays, h.radio]
  · rw [OrderedMap.get?_set_of_ne _ _ hname, hevicted.index, if_neg hstays, h.index]
  · change (s'.radioTopicIndexByName.set name' idx').get? other = some idx at hget
    rw [OrderedMap.get?_set] at hget
    split_ifs at hget with hother
    · exact absurd (Option.some.inj hget).symm hidx
    · rw [hevicted.radio] at hget
      split_ifs at hget
      exact h.only other hget

theorem Holds.evicted {names : List String} (h : Holds name idx s) (he : Evicted names s s') (hname : name ∉ names) :
    Holds name idx s' := by
  refine ⟨?_, ?_, fun other hget => ?_⟩
  · rw [he.radio, if_neg hname, h.radio]
  · rw [he.index, if_neg hname, h.index]
  · rw [he.radio] at hget
    split_ifs at hget
    exact h.only other hget

theorem Holds.takeSlots (h : Holds name idx s) (hname : name ∉ entries.map Prod.fst)
    (hidx : idx ∉ entries.map Prod.snd) :
    Holds name idx (entries.foldl (fun s e => s.takeSlot e.1 e.2) s) := by
  induction entries generalizing s with
  | nil => exact h
  | cons e rest ih =>
      rw [List.map_cons, List.mem_cons, not_or] at hname hidx
      exact ih (h.takeSlot hname.1 hidx.1) hname.2 hidx.2

-- Every entry of the push holds its slot at the end.
theorem holds_takeSlots (s : ChannelKeys) (hnames : (entries.map Prod.fst).Nodup) (hslots : (entries.map Prod.snd).Nodup)
    (hmem : (name, idx) ∈ entries) : Holds name idx (entries.foldl (fun s e => s.takeSlot e.1 e.2) s) := by
  induction entries generalizing s with
  | nil => cases hmem
  | cons e rest ih =>
      obtain ⟨hname, hnames⟩ := List.nodup_cons.mp hnames
      obtain ⟨hslot, hslots⟩ := List.nodup_cons.mp hslots
      rcases List.mem_cons.mp hmem with rfl | hmem
      · exact (holds_takeSlot s name idx).takeSlots hname hslot
      · exact ih _ hnames hslots hmem

theorem takeSlots_manual (s : ChannelKeys) (entries : List (String × Nat)) :
    SameManual s (entries.foldl (fun s e => s.takeSlot e.1 e.2) s) := by
  induction entries generalizing s with
  | nil => exact .refl s
  | cons e rest ih => exact (takeSlot_manual s e.1 e.2).trans (ih (s.takeSlot e.1 e.2))

theorem Layered.takeSlots (h : Layered slots keys s) (hslots : ∀ e ∈ entries, slots e.1 e.2) :
    Layered slots keys (entries.foldl (fun s e => s.takeSlot e.1 e.2) s) := by
  induction entries generalizing s with
  | nil => exact h
  | cons e rest ih =>
      exact ih (h.takeSlot (hslots e List.mem_cons_self)) fun e he => hslots e (List.mem_cons_of_mem _ he)

-- No other names come into the radio's map.
theorem takeSlots_radio (hget : (entries.foldl (fun s e => s.takeSlot e.1 e.2) s).radioTopicIndexByName.get? name = some idx) :
    (name, idx) ∈ entries ∨ s.radioTopicIndexByName.get? name = some idx := by
  induction entries generalizing s with
  | nil => exact Or.inr hget
  | cons e rest ih =>
      rcases ih hget with hmem | hget
      · exact Or.inl (List.mem_cons_of_mem _ hmem)
      · obtain ⟨s', names, heq, hevicted, _⟩ := takeSlot_evicted s e.1 e.2
        dsimp only at hget
        rw [heq] at hget
        change (s'.radioTopicIndexByName.set e.1 e.2).get? name = some idx at hget
        rw [OrderedMap.get?_set] at hget
        split_ifs at hget with hname
        · obtain rfl := Option.some.inj hget
          exact Or.inl (hname ▸ List.mem_cons_self)
        · rw [hevicted.radio] at hget
          split_ifs at hget
          exact Or.inr hget

-- The keys of the push change no slot.
theorem addRadioKeys_slots (s : ChannelKeys) (psks : List (String × Psk)) :
    (psks.foldl (fun s e => s.addRadioKey e.1 e.2) s).radioTopicIndexByName = s.radioTopicIndexByName ∧
    (psks.foldl (fun s e => s.addRadioKey e.1 e.2) s).channelNameToIndex = s.channelNameToIndex ∧
    SameManual s (psks.foldl (fun s e => s.addRadioKey e.1 e.2) s) := by
  induction psks generalizing s with
  | nil => exact ⟨rfl, rfl, .refl s⟩
  | cons e rest ih =>
      obtain ⟨hradio, hindex, hmanual⟩ := ih (s.addRadioKey e.1 e.2)
      exact ⟨hradio, hindex, ⟨hmanual.lines, hmanual.names, hmanual.extra, hmanual.session⟩⟩

theorem Layered.addRadioKeys {psks : List (String × Psk)} (h : Layered slots keys s)
    (hpsks : ∀ e ∈ psks, keys e.1 e.2 ∧ e.1 ∉ s.manualChannelKeyNames) :
    Layered slots keys (psks.foldl (fun s e => s.addRadioKey e.1 e.2) s) := by
  induction psks generalizing s with
  | nil => exact h
  | cons e rest ih =>
      obtain ⟨hkey, hname⟩ := hpsks e List.mem_cons_self
      exact ih (h.addRadioKey hkey hname) fun e he => hpsks e (List.mem_cons_of_mem _ he)

end Loops

section Push

variable {entries : List MqttChannelKeyEntry} {name : String} {idx : Nat}

-- What a push gives comes from its entries.
theorem radioTopicIndices_get (hget : (radioTopicIndices decode entries).get? name = some idx) :
    ∃ entry ∈ entries, entry.gives decode name idx := by
  induction entries using List.reverseRecOn with
  | nil => simp [radioTopicIndices] at hget
  | append_singleton rest entry ih =>
      unfold radioTopicIndices at hget ih
      rw [List.foldl_append, List.foldl_cons, List.foldl_nil] at hget
      have hrest : (∃ e ∈ rest, e.gives decode name idx) → ∃ e ∈ rest ++ [entry], e.gives decode name idx := by
        rintro ⟨e, he, hgives⟩
        exact ⟨e, List.mem_append_left _ he, hgives⟩
      cases hvalid : entry.valid decode with
      | none =>
          simp only [hvalid] at hget
          exact hrest (ih hget)
      | some named =>
          cases hslot : entry.slot with
          | none =>
              simp only [hvalid, hslot] at hget
              exact hrest (ih hget)
          | some idx' =>
              simp only [hvalid, hslot] at hget
              rw [OrderedMap.get?_set] at hget
              split_ifs at hget with hname
              · obtain rfl := Option.some.inj hget
                refine ⟨entry, by simp, ⟨⟨named.2, ?_⟩, hslot⟩⟩
                rw [hvalid, hname]
              · exact hrest (ih hget)

theorem radioPskByName_get {key : Psk} (hget : (s.radioPskByName decode entries).get? name = some key) :
    (∃ entry ∈ entries, entry.valid decode = some (name, key)) ∧ name ∉ s.manualChannelKeyNames := by
  induction entries using List.reverseRecOn with
  | nil => simp [ChannelKeys.radioPskByName] at hget
  | append_singleton rest entry ih =>
      unfold ChannelKeys.radioPskByName at hget ih
      rw [List.foldl_append, List.foldl_cons, List.foldl_nil] at hget
      have hrest : ((∃ e ∈ rest, e.valid decode = some (name, key)) ∧ name ∉ s.manualChannelKeyNames) →
          (∃ e ∈ rest ++ [entry], e.valid decode = some (name, key)) ∧ name ∉ s.manualChannelKeyNames := by
        rintro ⟨⟨e, he, hvalid⟩, hname⟩
        exact ⟨⟨e, List.mem_append_left _ he, hvalid⟩, hname⟩
      cases hvalid : entry.valid decode with
      | none =>
          simp only [hvalid] at hget
          exact hrest (ih hget)
      | some named =>
          simp only [hvalid] at hget
          split_ifs at hget with hmanual hdefault
          · exact hrest (ih hget)
          · exact hrest (ih hget)
          · rw [OrderedMap.get?_set] at hget
            split_ifs at hget with hname
            · obtain rfl := Option.some.inj hget
              refine ⟨⟨entry, by simp, ?_⟩, hname ▸ hmanual⟩
              rw [hvalid, hname]
            · exact hrest (ih hget)

-- Names are told apart after trimming, slots by the low bits of the index.
def Distinct (entries : List MqttChannelKeyEntry) : Prop :=
  (entries.map fun entry => trim entry.name).Nodup ∧ (entries.filterMap MqttChannelKeyEntry.slot).Nodup

instance (entries : List MqttChannelKeyEntry) : Decidable (Distinct entries) :=
  inferInstanceAs (Decidable (_ ∧ _))

theorem valid_name {entry : MqttChannelKeyEntry} {key : Psk} (h : entry.valid decode = some (name, key)) :
    trim entry.name = name := by
  unfold MqttChannelKeyEntry.valid at h
  dsimp only at h
  cases hpsk : parsePsk decode entry.pskBase64 with
  | none =>
      rw [hpsk] at h
      cases h
  | some psk =>
      rw [hpsk] at h
      dsimp only at h
      split_ifs at h
      exact congrArg Prod.fst (Option.some.inj h)

theorem radioTopicIndices_of_gives (hdistinct : (entries.map fun entry => trim entry.name).Nodup)
    {entry : MqttChannelKeyEntry} (hentry : entry ∈ entries) (hgives : entry.gives decode name idx) :
    (radioTopicIndices decode entries).get? name = some idx := by
  induction entries using List.reverseRecOn with
  | nil => cases hentry
  | append_singleton rest last ih =>
      rw [List.map_append, List.nodup_append] at hdistinct
      have hlater : ∀ e ∈ rest, trim e.name ≠ trim last.name := by
        intro e he
        exact hdistinct.2.2 _ (List.mem_map_of_mem he) _ (by simp)
      obtain ⟨⟨psk, hvalid⟩, hslot⟩ := hgives
      unfold radioTopicIndices at ih ⊢
      rw [List.foldl_append, List.foldl_cons, List.foldl_nil]
      rcases List.mem_append.mp hentry with hentry | hentry
      · have hget := ih hdistinct.1 hentry
        cases hlast : last.valid decode with
        | none => exact hget
        | some named =>
            cases hlastSlot : last.slot with
            | none => exact hget
            | some idx' =>
                dsimp only
                rw [OrderedMap.get?_set_of_ne _ _ ?_]
                · exact hget
                · intro hname
                  have hsame : trim last.name = named.1 := valid_name hlast
                  exact hlater entry hentry (by rw [valid_name hvalid, hsame, hname])
      · obtain rfl := List.mem_singleton.mp hentry
        rw [hvalid, hslot]
        exact OrderedMap.get?_set_self _ _ _

theorem eq_of_slot (hslots : (entries.filterMap MqttChannelKeyEntry.slot).Nodup) {a b : MqttChannelKeyEntry}
    (ha : a ∈ entries) (hb : b ∈ entries) (haslot : a.slot = some idx) (hbslot : b.slot = some idx) : a = b := by
  induction entries with
  | nil => cases ha
  | cons e rest ih =>
      have hrest : (rest.filterMap MqttChannelKeyEntry.slot).Nodup :=
        hslots.sublist ((List.sublist_cons_self e rest).filterMap _)
      -- the first entry shares its slot with no later one
      have hfirst : ∀ c ∈ rest, e.slot = some idx → c.slot ≠ some idx := by
        intro c hc he hcslot
        rw [List.filterMap_cons_some he, List.nodup_cons] at hslots
        exact hslots.1 (List.mem_filterMap.mpr ⟨c, hc, hcslot⟩)
      rcases List.mem_cons.mp ha with rfl | ha'
      · rcases List.mem_cons.mp hb with rfl | hb'
        · rfl
        · exact absurd hbslot (hfirst b hb' haslot)
      · rcases List.mem_cons.mp hb with rfl | hb'
        · exact absurd haslot (hfirst a ha' hbslot)
        · exact ih hrest ha' hb'

-- Different names of a push have different slots.
theorem radioTopicIndices_slots (hslots : (entries.filterMap MqttChannelKeyEntry.slot).Nodup) :
    ((radioTopicIndices decode entries).entries.map Prod.snd).Nodup := by
  refine List.Nodup.map_on ?_ (List.Nodup.of_map _ (radioTopicIndices decode entries).nodup)
  rintro ⟨name, idx⟩ hmem ⟨name', idx'⟩ hmem' hsame
  obtain rfl : idx = idx' := hsame
  rw [OrderedMap.mem_entries_iff] at hmem hmem'
  obtain ⟨entry, hentry, ⟨psk, hvalid⟩, hslot⟩ := radioTopicIndices_get hmem
  obtain ⟨entry', hentry', ⟨psk', hvalid'⟩, hslot'⟩ := radioTopicIndices_get hmem'
  obtain rfl := eq_of_slot hslots hentry hentry' hslot hslot'
  rw [← valid_name hvalid, ← valid_name hvalid']

theorem mergePush_manual (s : ChannelKeys) (entries : List MqttChannelKeyEntry) :
    SameManual s (s.mergePush decode entries) := by
  have hslots := takeSlots_manual s (radioTopicIndices decode entries).entries
  have hkeys := (addRadioKeys_slots ((radioTopicIndices decode entries).entries.foldl
    (fun s e => s.takeSlot e.1 e.2) s) (s.radioPskByName decode entries).entries).2.2
  unfold ChannelKeys.mergePush
  dsimp only
  split_ifs
  · exact (hslots.trans hkeys).trans (evicted_all _ _).manual
  · exact hslots.trans hkeys

theorem Layered.mergePush (h : Layered slots keys s)
    (hslots : ∀ entry ∈ entries, ∀ name idx, entry.gives decode name idx → slots name idx)
    (hkeys : ∀ entry ∈ entries, ∀ name key, entry.valid decode = some (name, key) → keys name key) :
    Layered slots keys (s.mergePush decode entries) := by
  have htaken : Layered slots keys
      ((radioTopicIndices decode entries).entries.foldl (fun s e => s.takeSlot e.1 e.2) s) := by
    refine h.takeSlots fun e he => ?_
    obtain ⟨entry, hentry, hgives⟩ := radioTopicIndices_get ((OrderedMap.mem_entries_iff _ _ _).mp he)
    exact hslots entry hentry e.1 e.2 hgives
  have hadded : Layered slots keys ((s.radioPskByName decode entries).entries.foldl
      (fun s e => s.addRadioKey e.1 e.2)
      ((radioTopicIndices decode entries).entries.foldl (fun s e => s.takeSlot e.1 e.2) s)) := by
    refine htaken.addRadioKeys fun e he => ?_
    obtain ⟨⟨entry, hentry, hvalid⟩, hname⟩ := radioPskByName_get ((OrderedMap.mem_entries_iff _ _ _).mp he)
    exact ⟨hkeys entry hentry e.1 e.2 hvalid, (takeSlots_manual s _).names ▸ hname⟩
  unfold ChannelKeys.mergePush
  dsimp only
  split_ifs
  · exact hadded.evicted (evicted_all _ _)
  · exact hadded

theorem holds_mergePush (s : ChannelKeys) (hdistinct : Distinct entries) {entry : MqttChannelKeyEntry}
    (hentry : entry ∈ entries) (hgives : entry.gives decode name idx) : Holds name idx (s.mergePush decode entries) := by
  have hget := radioTopicIndices_of_gives hdistinct.1 hentry hgives
  have htaken := holds_takeSlots s (radioTopicIndices decode entries).nodup (radioTopicIndices_slots hdistinct.2)
    ((OrderedMap.mem_entries_iff _ _ _).mpr hget)
  obtain ⟨hradio, hindex, _⟩ := addRadioKeys_slots ((radioTopicIndices decode entries).entries.foldl
    (fun s e => s.takeSlot e.1 e.2) s) (s.radioPskByName decode entries).entries
  have hadded : Holds name idx ((s.radioPskByName decode entries).entries.foldl (fun s e => s.addRadioKey e.1 e.2)
      ((radioTopicIndices decode entries).entries.foldl (fun s e => s.takeSlot e.1 e.2) s)) :=
    ⟨hradio ▸ htaken.radio, hindex ▸ htaken.index, fun other hother => htaken.only other (hradio ▸ hother)⟩
  unfold ChannelKeys.mergePush
  dsimp only
  split_ifs
  · refine hadded.evicted (evicted_all _ _) ?_
    have hmem : name ∈ (radioTopicIndices decode entries).keys := (OrderedMap.mem_keys_iff _ _).mpr ⟨idx, hget⟩
    simp [hmem]
  · exact hadded

-- A push that covers every slot replaces the radio's names.
theorem mergePush_replaces (hdistinct : Distinct entries)
    (hcovers : ∀ idx ∈ s.radioTopicIndexByName.values, ∃ entry ∈ entries, ∃ name, entry.gives decode name idx)
    (hget : (s.mergePush decode entries).radioTopicIndexByName.get? name = some idx) :
    ∃ entry ∈ entries, entry.gives decode name idx := by
  obtain ⟨hradio, -, -⟩ := addRadioKeys_slots ((radioTopicIndices decode entries).entries.foldl
    (fun s e => s.takeSlot e.1 e.2) s) (s.radioPskByName decode entries).entries
  have hcovered : ∀ i ∈ s.radioTopicIndexByName.values, i ∈ (radioTopicIndices decode entries).values := by
    intro i hi
    obtain ⟨entry, hentry, name', hgives⟩ := hcovers i hi
    exact (OrderedMap.mem_values_iff _ _).mpr ⟨name', radioTopicIndices_of_gives hdistinct.1 hentry hgives⟩
  have hpushed : ∀ {n : String} {i : Nat}, (n, i) ∈ (radioTopicIndices decode entries).entries →
      ∃ entry ∈ entries, entry.gives decode n i :=
    fun hmem => radioTopicIndices_get ((OrderedMap.mem_entries_iff _ _ _).mp hmem)
  unfold ChannelKeys.mergePush at hget
  dsimp only at hget
  split_ifs at hget with hcover
  · rw [(evicted_all _ _).radio] at hget
    split_ifs at hget with hout
    rw [hradio] at hget
    rcases takeSlots_radio hget with hmem | hprior
    · exact hpushed hmem
    · have hkey : name ∈ (radioTopicIndices decode entries).keys := by
        by_contra hnone
        refine hout (List.mem_filter.mpr ⟨(OrderedMap.mem_keys_iff _ _).mpr ⟨idx, hprior⟩, ?_⟩)
        simpa using hnone
      obtain ⟨idx', hget'⟩ := (OrderedMap.mem_keys_iff _ _).mp hkey
      have hholds := holds_takeSlots s (radioTopicIndices decode entries).nodup
        (radioTopicIndices_slots hdistinct.2) ((OrderedMap.mem_entries_iff _ _ _).mpr hget')
      rw [hholds.radio] at hget
      exact Option.some.inj hget ▸ radioTopicIndices_get hget'
  · rw [hradio] at hget
    rcases takeSlots_radio hget with hmem | hprior
    · exact hpushed hmem
    · -- the radio's map was empty
      have hvalue : idx ∈ s.radioTopicIndexByName.values := (OrderedMap.mem_values_iff _ _).mpr ⟨name, hprior⟩
      have hsize : 0 < s.radioTopicIndexByName.size := by
        rw [← OrderedMap.values_length]
        exact List.length_pos_of_mem hvalue
      exact absurd ⟨hsize, hcovered⟩ hcover

end Push

-- A push of the radio's channels, and the pushes of one radio session.
structure Push where
  entries : List MqttChannelKeyEntry
  radioSessionId : Option String

structure RadioSession where
  id : Option String
  pushes : List Push

def RadioSession.push (r : RadioSession) (push : Push) : RadioSession :=
  if push.radioSessionId.isSome ∧ push.radioSessionId ≠ r.id then ⟨push.radioSessionId, [push]⟩
  else ⟨r.id, r.pushes ++ [push]⟩

inductive KeyEvent where
  | pushed (push : Push)
  | published (psk : Psk)

-- The client's keys beside what the radio has pushed in its session.
structure Feed where
  keys : ChannelKeys
  session : RadioSession

def Feed.step (decode : String → List UInt8) (feed : Feed) : KeyEvent → Feed
  | .pushed push =>
      ⟨feed.keys.updateChannelKeys decode push.entries push.radioSessionId, feed.session.push push⟩
  | .published psk => { feed with keys := feed.keys.ensureDecryptKey psk }

def Feed.connected (decode : String → List UInt8) (s : ChannelKeys) (channelPsks : List String) : Feed :=
  ⟨s.connect decode channelPsks, ⟨none, []⟩⟩

def RadioSession.gives (decode : String → List UInt8) (r : RadioSession) (name : String) (idx : Nat) : Prop :=
  ∃ push ∈ r.pushes, ∃ entry ∈ push.entries, entry.gives decode name idx

def RadioSession.givesKey (decode : String → List UInt8) (r : RadioSession) (name : String) (key : Psk) : Prop :=
  ∃ push ∈ r.pushes, ∃ entry ∈ push.entries, entry.valid decode = some (name, key)

structure Feed.Good (decode : String → List UInt8) (lines : List String) (feed : Feed) : Prop where
  settled : Settled decode lines (feed.session.gives decode) (feed.session.givesKey decode) feed.keys
  session : feed.keys.radioChannelSessionId = feed.session.id

section Run

variable {lines : List String} {feed : Feed} {push : Push}

theorem connected_good (s : ChannelKeys) (lines : List String) : (Feed.connected decode s lines).Good decode lines := by
  set cleared : ChannelKeys := { s with
    channelKeysByName := ∅, channelNameToIndex := ∅, radioTopicIndexByName := ∅, radioChannelKeyNames := []
    radioChannelSessionId := none, manualChannelPskLines := lines, manualChannelKeyNames := []
    decryptOnlyPsks := [], extraDecryptPsks := [] } with hcleared
  have hempty : Layered (Feed.connected decode s lines |>.session.gives decode)
      (Feed.connected decode s lines |>.session.givesKey decode) cleared :=
    ⟨by simp [hcleared], by simp [hcleared], by simp [hcleared], by simp [hcleared, OrderedMap.mem_keys_iff]⟩
  have hsettled := @settled_of_layered decode _ _ _ hempty (by simp [hcleared]) (by simp [hcleared])
  have happlied := @applied_lines decode cleared lines
  have hradio : (cleared.applyManualChannelPskLines decode lines).radioTopicIndexByName = ∅ := happlied.radio
  have hsession : (cleared.applyManualChannelPskLines decode lines).radioChannelSessionId = none := happlied.session
  change Settled decode lines _ _ ({ cleared.applyManualChannelPskLines decode lines with
    channelNameToIndex := _ } : ChannelKeys).rebuildAllDecryptKeys at hsettled
  rw [hradio] at hsettled
  exact ⟨hsettled, hsession⟩

theorem openSession_layered (h : feed.Good decode lines) (push : Push) :
    Layered ((feed.session.push push).gives decode) ((feed.session.push push).givesKey decode)
      (feed.keys.openSession push.radioSessionId) ∧
    (feed.keys.openSession push.radioSessionId).radioChannelSessionId = (feed.session.push push).id ∧
    push ∈ (feed.session.push push).pushes := by
  unfold ChannelKeys.openSession RadioSession.push
  rw [h.session]
  split_ifs with hnew
  · have hcleared := h.settled.layered.clear
    refine ⟨?_, rfl, by simp⟩
    exact ⟨fun name idx hget => absurd (hcleared.slots name idx hget) id,
      fun name hname key hget => absurd (hcleared.keys name hname key hget) id, hcleared.indexed, hcleared.keyNames⟩
  · refine ⟨h.settled.layered.mono ?_ ?_, h.session, by simp⟩
    · rintro name idx ⟨earlier, hmem, hgives⟩
      exact ⟨earlier, List.mem_append_left _ hmem, hgives⟩
    · rintro name key ⟨earlier, hmem, hgives⟩
      exact ⟨earlier, List.mem_append_left _ hmem, hgives⟩

theorem openSession_names (s : ChannelKeys) (radioSessionId : Option String) :
    (s.openSession radioSessionId).manualChannelKeyNames = s.manualChannelKeyNames ∧
    (s.openSession radioSessionId).manualChannelPskLines = s.manualChannelPskLines := by
  unfold ChannelKeys.openSession
  split_ifs
  · exact ⟨rfl, rfl⟩
  · exact ⟨rfl, rfl⟩

-- The manual lines leave the radio's map and session alone.
theorem updateChannelKeys_radio (s : ChannelKeys) (push : Push) :
    (s.updateChannelKeys decode push.entries push.radioSessionId).radioTopicIndexByName =
      ((s.openSession push.radioSessionId).mergePush decode push.entries).radioTopicIndexByName ∧
    (s.updateChannelKeys decode push.entries push.radioSessionId).radioChannelSessionId =
      (s.openSession push.radioSessionId).radioChannelSessionId := by
  have hmerged := @mergePush_manual decode (s.openSession push.radioSessionId) push.entries
  set merged := (s.openSession push.radioSessionId).mergePush decode push.entries with hset
  have happlied := @applied_lines decode { merged with
    channelKeysByName := merged.channelKeysByName.filter fun name _ => name ∉ merged.manualChannelKeyNames
    channelNameToIndex := merged.channelNameToIndex.filter fun name _ => name ∉ merged.manualChannelKeyNames
    manualChannelKeyNames := []
    decryptOnlyPsks := [] } merged.manualChannelPskLines
  exact ⟨happlied.radio, happlied.session.trans hmerged.session⟩

theorem Feed.Good.step (h : feed.Good decode lines) (event : KeyEvent) : (feed.step decode event).Good decode lines := by
  cases event with
  | published psk =>
      obtain ⟨hsettled, hsession⟩ := h
      unfold Feed.step ChannelKeys.ensureDecryptKey
      dsimp only
      split_ifs
      · exact ⟨hsettled, hsession⟩
      · exact ⟨⟨hsettled.given, hsettled.names, ⟨hsettled.layered.slots, hsettled.layered.keys, hsettled.layered.indexed,
          hsettled.layered.keyNames⟩, hsettled.manual, hsettled.attributed, hsettled.bare, rfl⟩, hsession⟩
  | pushed push =>
      obtain ⟨hopened, hid, hpush⟩ := openSession_layered h push
      obtain ⟨hnames, hgiven⟩ := openSession_names feed.keys push.radioSessionId
      have hmerged : Layered ((feed.session.push push).gives decode) ((feed.session.push push).givesKey decode)
          ((feed.keys.openSession push.radioSessionId).mergePush decode push.entries) :=
        hopened.mergePush (fun entry hentry name idx hgives => ⟨push, hpush, entry, hentry, hgives⟩)
          (fun entry hentry name key hvalid => ⟨push, hpush, entry, hentry, hvalid⟩)
      have hmanual := @mergePush_manual decode (feed.keys.openSession push.radioSessionId) push.entries
      have hlines : ((feed.keys.openSession push.radioSessionId).mergePush decode
          push.entries).manualChannelPskLines = lines := hmanual.lines.trans (hgiven.trans h.settled.given)
      have hmk : ∀ name, name ∈ ((feed.keys.openSession push.radioSessionId).mergePush decode
          push.entries).manualChannelKeyNames ↔ (manualKey decode name lines).isSome := by
        intro name
        rw [hmanual.names, hnames]
        exact h.settled.names name
      have hsettled := @settled_of_layered decode _ _ _ hmerged (by
        rw [hlines]
        exact fun name hname => (hmk name).mp hname) (by
        rw [hlines]
        intro name hname
        have hfree := ((hmerged.keyNames name).mp hname).2
        rw [hmk] at hfree
        simpa using hfree)
      rw [hlines] at hsettled
      refine ⟨?_, ?_⟩
      · unfold Feed.step ChannelKeys.updateChannelKeys
        dsimp only
        rw [hlines]
        exact hsettled
      · exact (updateChannelKeys_radio feed.keys push).2.trans hid

-- What the client knows after a push: the slots of the push, the names and keys of this session
-- and of the manual lines, and nothing else.
structure Follows (decode : String → List UInt8) (lines : List String) (session : RadioSession) (push : Push)
    (before after : ChannelKeys) : Prop where
  attributed : ∀ entry ∈ push.entries, ∀ name idx, entry.gives decode name idx →
    after.channelNameToIndex.get? name = some idx ∧
    ∀ other ∈ after.radioTopicIndexByName.keys, after.channelNameToIndex.get? other = some idx → other = name
  replaced : (∀ idx ∈ before.radioTopicIndexByName.values, ∃ entry ∈ push.entries, ∃ name, entry.gives decode name idx) →
    ∀ name, name ∈ after.radioTopicIndexByName.keys ↔ ∃ entry ∈ push.entries, ∃ idx, entry.gives decode name idx
  radio : ∀ name idx, after.radioTopicIndexByName.get? name = some idx → session.gives decode name idx
  slots : ∀ name idx, after.channelNameToIndex.get? name = some idx →
    session.gives decode name idx ∨ manualSlot decode name lines = some idx
  keys : ∀ name key, after.channelKeysByName.get? name = some key →
    session.givesKey decode name key ∨ manualKey decode name lines = some key
  manual : ∀ name key, manualKey decode name lines = some key → after.channelKeysByName.get? name = some key
  once : after.allDecryptKeys.Nodup
  decrypts : ∀ key, key ∈ after.allDecryptKeys ↔ key = DEFAULT_PSK ∨ key ∈ after.extraDecryptPsks ∨
    (∃ name, after.channelKeysByName.get? name = some key) ∨ ∃ line ∈ lines, bareKey decode line = some key

-- The slots of the radio as they were are those of the same session, or gone.
theorem openSession_radio (s : ChannelKeys) (radioSessionId : Option String) :
    ∀ idx ∈ (s.openSession radioSessionId).radioTopicIndexByName.values, idx ∈ s.radioTopicIndexByName.values := by
  intro idx hidx
  unfold ChannelKeys.openSession at hidx
  split_ifs at hidx
  · cases hidx
  · exact hidx

-- Names and slots that come from the radio come from the pushes of its session.
theorem channels_follow_radio (decode : String → List UInt8) (s : ChannelKeys) (lines : List String)
    (events : List KeyEvent) (push : Push) (hdistinct : Distinct push.entries) :
    let feed := run (Feed.step decode) (.connected decode s lines) events
    let after := feed.step decode (.pushed push)
    Follows decode lines after.session push feed.keys after.keys := by
  intro feed after
  have hgood : feed.Good decode lines :=
    invariant_run (P := Feed.Good decode lines) (fun _ event h => h.step event) (connected_good s lines) events
  obtain ⟨hsettled, -⟩ := hgood.step (.pushed push)
  have hradio : after.keys.radioTopicIndexByName =
      ((feed.keys.openSession push.radioSessionId).mergePush decode push.entries).radioTopicIndexByName :=
    (updateChannelKeys_radio feed.keys push).1
  have hholds : ∀ entry ∈ push.entries, ∀ name idx, entry.gives decode name idx →
      Holds name idx ((feed.keys.openSession push.radioSessionId).mergePush decode push.entries) :=
    fun entry hentry name idx hgives => holds_mergePush _ hdistinct hentry hgives
  -- the radio's slot is the one that counts
  have hindex : ∀ name idx, after.keys.radioTopicIndexByName.get? name = some idx →
      after.keys.channelNameToIndex.get? name = some idx := by
    intro name idx hget
    rw [hsettled.attributed, hget, Option.some_or]
  refine ⟨fun entry hentry name idx hgives => ?_, fun hcovers name => ?_, hsettled.layered.slots,
    fun name idx hget => ?_, fun name key hget => ?_, hsettled.manual, ?_, fun key => ?_⟩
  · have hholds := hholds entry hentry name idx hgives
    refine ⟨hindex name idx (hradio ▸ hholds.radio), fun other hother hget => ?_⟩
    obtain ⟨idx', hother⟩ := (OrderedMap.mem_keys_iff _ _).mp hother
    have hsame := hindex other idx' hother
    rw [hget] at hsame
    obtain rfl := Option.some.inj hsame
    exact hholds.only other (hradio ▸ hother)
  · rw [OrderedMap.mem_keys_iff, hradio]
    constructor
    · rintro ⟨idx, hget⟩
      obtain ⟨entry, hentry, hgives⟩ := mergePush_replaces hdistinct
        (fun i hi => hcovers i (openSession_radio _ _ i hi)) hget
      exact ⟨entry, hentry, idx, hgives⟩
    · rintro ⟨entry, hentry, idx, hgives⟩
      exact ⟨idx, (hholds entry hentry name idx hgives).radio⟩
  · rw [hsettled.attributed, Option.or_eq_some_iff] at hget
    rcases hget with hget | ⟨-, hmanual⟩
    · exact Or.inl (hsettled.layered.slots name idx hget)
    · exact Or.inr hmanual
  · by_cases hname : name ∈ after.keys.manualChannelKeyNames
    · obtain ⟨key', hkey⟩ := Option.isSome_iff_exists.mp ((hsettled.names name).mp hname)
      have hsame := hsettled.manual name key' hkey
      rw [hget] at hsame
      exact Or.inr (hkey.trans hsame.symm)
    · exact Or.inl (hsettled.layered.keys name hname key hget)
  · rw [hsettled.all]
    exact unique_nodup _
  · rw [hsettled.all, mem_unique, hsettled.bare]
    simp only [List.mem_append, List.mem_singleton, OrderedMap.mem_values_iff, List.mem_filterMap]
    tauto

-- The public channel moves from slot 0 to slot 1 and a private one takes its place.
theorem channels_follow_radio_swap :
    let decode : String → List UInt8 := fun b64 =>
      if b64 = "AQ==" then [1]
      else if b64 = "AAECAwQFBgcICQoLDA0ODw==" then (List.range 16).map UInt8.ofNat
      else []
    let push : Push := ⟨[⟨"OnTrail", "AAECAwQFBgcICQoLDA0ODw==", some 0⟩, ⟨"LongFast", "AQ==", some 1⟩], some "rf:1"⟩
    let feed := run (Feed.step decode) (.connected decode {} ["Ham@3=AQ=="])
      [.pushed ⟨[⟨"LongFast", "AQ==", some 0⟩], some "rf:1"⟩]
    let after := feed.step decode (.pushed push)
    Distinct push.entries ∧ Follows decode ["Ham@3=AQ=="] after.session push feed.keys after.keys :=
  ⟨by decide, channels_follow_radio _ _ _ _ _ (by decide)⟩

end Run

end MeshClient.Mqtt
