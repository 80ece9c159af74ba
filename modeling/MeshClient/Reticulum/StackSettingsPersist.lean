import MeshClient.Reticulum.StackSettingsForms

namespace MeshClient.Reticulum

open TextLines Tally Trim

variable {σ σ' F : Parsing} {b b' : IniBlock} {k v text : Text} {P P' Q : ParsedConfig} {s : StackSettings}

def isKeyChar (c : Char) : Bool :=
  !isWhitespace c && c != '=' && c != '#' && c != '"' && c != '\n' && c != '['

def PlainKey (k : Text) : Prop := k ≠ [] ∧ k.all isKeyChar = true

instance : DecidablePred PlainKey := fun _ => inferInstanceAs (Decidable (_ ∧ _))

theorem neat_of_forall {p : Char → Bool} {xs : Text} (h : ∀ c ∈ xs, p c = false) : Neat p xs :=
  ⟨fun c hc => h c (List.mem_of_mem_head? hc), fun c hc => h c (List.mem_of_mem_getLast? hc)⟩

theorem PlainKey.facts (h : PlainKey k) {c : Char} (hc : c ∈ k) :
    isWhitespace c = false ∧ c ≠ '=' ∧ c ≠ '#' ∧ c ≠ '"' ∧ c ≠ '\n' ∧ c ≠ '[' := by
  have hchar := List.all_eq_true.mp h.2 c hc
  simpa [isKeyChar, and_assoc] using hchar

theorem PlainKey.keyText (h : PlainKey k) : KeyText k where
  ne := h.1
  neat := neat_of_forall fun _ hc => (h.facts hc).1
  noEq := fun hmem => (h.facts hmem).2.1 rfl
  plain := stripCommentFrom_of_notMem fun hmem => (h.facts hmem).2.2.1 rfl
  line := fun hmem => (h.facts hmem).2.2.2.2.1 rfl

theorem PlainKey.head_ne (h : PlainKey k) : k.head? ≠ some '[' :=
  fun hhead => (h.facts (List.mem_of_mem_head? hhead)).2.2.2.2.2 rfl

-- What is written for a setting is read as it is written.
structure PlainValue (v : Text) : Prop where
  neat : Neat isWhitespace v
  chars : ∀ c ∈ v, c ≠ '#' ∧ c ≠ '"' ∧ c ≠ '\n'

theorem PlainKey.pair (hk : PlainKey k) (hv : PlainValue v) : PlainPair k v where
  key := hk.keyText
  value := ⟨neat_of_forall fun c hc => by simpa [isQuote] using (hv.chars c hc).2.1, fun hmem => (hv.chars _ hmem).2.2 rfl⟩
  entry := by
    refine ⟨hv.neat, stripCommentFrom_of_notMem fun hmem => ?_, fun hheader => hk.head_ne hheader.1⟩
    rw [entryLine_eq, List.mem_append] at hmem
    obtain hmem | hmem := hmem
    · exact (hk.facts hmem).2.2.1 rfl
    · have hv' : '#' ∈ v := by simpa using hmem
      exact (hv.chars _ hv').1 rfl
  sign := fun hmem => (hv.chars _ hmem).1 rfl
  quote := fun hmem => (hv.chars _ hmem).2.1 rfl

def isValueChar (c : Char) : Bool := !isWhitespace c && c != '#' && c != '"' && c != '\n'

theorem plainValue_of_all (h : v.all isValueChar = true) : PlainValue v := by
  have hchar : ∀ c ∈ v, isWhitespace c = false ∧ c ≠ '#' ∧ c ≠ '"' ∧ c ≠ '\n' := fun c hc => by
    simpa [isValueChar, and_assoc] using List.all_eq_true.mp h c hc
  exact ⟨neat_of_forall fun c hc => (hchar c hc).1, fun c hc => (hchar c hc).2⟩

theorem plainValue_boolToIni (x : Bool) : PlainValue (boolToIni x) := by
  cases x with
  | true => exact plainValue_of_all (by decide)
  | false => exact plainValue_of_all (by decide)

theorem plain_of_digit {c : Char} (h : Js.isDigit c = true) : isValueChar c = true := by
  have hrange : 48 ≤ c.toNat ∧ c.toNat ≤ 57 := by
    simpa [Js.isDigit] using h
  have hblank : isWhitespace c = false := by
    simp [isWhitespace]
    omega
  have hne : ∀ d : Char, d.toNat < 48 → c ≠ d := by
    rintro d hd rfl
    omega
  simp [isValueChar, hblank, hne '#' (by decide), hne '"' (by decide), hne '\n' (by decide)]

theorem natText_plain (n : Nat) : (natText n).all isValueChar = true :=
  List.all_eq_true.mpr fun _ hc => plain_of_digit (digit_of_mem_natText hc)

theorem plainValue_natText (n : Nat) : PlainValue (natText n) := plainValue_of_all (natText_plain n)

theorem plainValue_intText (n : Int) : PlainValue (intText n) := by
  refine plainValue_of_all ?_
  unfold intText
  split
  · rw [List.all_cons, natText_plain]
    decide
  · exact natText_plain _

theorem plainValue_sources (h : NormalSources text) : PlainValue text := by
  obtain ⟨hashes, hall, rfl⟩ := h
  have hneat : ∀ hash ∈ hashes, Neat isWhitespace hash ∧ hash ≠ [] := by
    intro hash hmem
    obtain ⟨hlen, hlower⟩ := hall hash hmem
    refine ⟨neat_of_forall fun c hc => (lowerHex_facts (List.all_eq_true.mp hlower c hc)).2.2.1, ?_⟩
    rintro rfl
    cases hlen
  have hchars : ∀ hash ∈ hashes, ∀ c ∈ hash, c ≠ '#' ∧ c ≠ '"' ∧ c ≠ '\n' := fun hash hmem c hc =>
    (lowerHex_facts (List.all_eq_true.mp (hall hash hmem).2 c hc)).2.2.2.2
  clear hall
  induction hashes with
  | nil => exact ⟨neat_nil, fun _ hc => absurd hc List.not_mem_nil⟩
  | cons hash rest ih =>
      rw [List.forall_mem_cons] at hneat hchars
      cases rest with
      | nil =>
          rw [List.intercalate_singleton]
          exact ⟨hneat.1.1, hchars.1⟩
      | cons second rest =>
          obtain ⟨hlater, hlaterChars⟩ := ih hneat.2 hchars.2
          have hne : ", ".toList.intercalate (second :: rest) ≠ [] := by
            intro hnil
            have hsecond := (hneat.2 second List.mem_cons_self).2
            cases rest with
            | nil => exact hsecond (by simpa using hnil)
            | cons third rest =>
                rw [List.intercalate_cons_cons] at hnil
                simp at hnil
          rw [List.intercalate_cons_cons, List.append_assoc]
          refine ⟨hneat.1.1.append hlater hneat.1.2 hne, fun c hc => ?_⟩
          rw [List.mem_append, List.mem_append] at hc
          obtain hc | hc | hc := hc
          · exact hchars.1 c hc
          · obtain rfl | rfl : c = ',' ∨ c = ' ' := by simpa using hc
            · decide
            · decide
          · exact hlaterChars c hc

-- The keys of the settings in the file; an old name is one of them only where it is taken out.
def settingKeys : List Text :=
  [ENABLE_TRANSPORT, SHARE_INSTANCE, ANNOUNCE_INTERVAL_SEC, AUTOCONNECT, REQUIRED_VALUE, REQUIRED_VALUE_ALIAS,
    DISCOVERY_SOURCES, NETWORK_IDENTITY, SLOW_RF_FILTER]

theorem plainKey_settings : (settingKeys.all fun k => k ≠ [] ∧ k.all isKeyChar = true) = true ∧ PlainKey LOGLEVEL := by
  decide

theorem plainKey_of_setting (h : k ∈ settingKeys) : PlainKey k := by
  have hall := List.all_eq_true.mp plainKey_settings.1 k h
  simpa [PlainKey] using hall

theorem PlainBlockPairs.remove (h : PlainBlockPairs b) : PlainBlockPairs (b.remove k) :=
  fun e he => h e (List.mem_of_mem_filter he)

theorem PlainBlockPairs.setOrRemove (h : PlainBlockPairs b) (hk : PlainKey k) (hv : PlainValue v) :
    PlainBlockPairs (setOrRemove b k v) := by
  unfold Reticulum.setOrRemove
  split
  · exact h.remove
  · exact h.set (hk.pair hv)

theorem PlainBlockPairs.stampFixed (h : PlainBlockPairs b) : PlainBlockPairs (stampFixed b s) := by
  have hkey : ∀ k ∈ settingKeys, PlainKey k := fun k hk => plainKey_of_setting hk
  unfold Reticulum.stampFixed
  refine PlainBlockPairs.remove ?_
  refine ((((((h.set ?_).set ?_).set ?_).set ?_).set ?_).set ?_)
  · exact (hkey _ (by simp [settingKeys])).pair (plainValue_boolToIni _)
  · exact (hkey _ (by simp [settingKeys])).pair (plainValue_boolToIni _)
  · exact (hkey _ (by simp [settingKeys])).pair (plainValue_natText _)
  · exact (hkey _ (by simp [settingKeys])).pair (plainValue_natText _)
  · exact (hkey _ (by simp [settingKeys])).pair (plainValue_natText _)
  · exact (hkey _ (by simp [settingKeys])).pair (plainValue_boolToIni _)

theorem get_set (b : IniBlock) (key k v : Text) : (b.set key v).get k = if k = key then some v else b.get k :=
  b.values.get?_set key k v

theorem get_remove (b : IniBlock) (key k : Text) : (b.remove key).get k = if k = key then none else b.get k :=
  b.values.get?_erase key k

theorem get_setOrRemove (b : IniBlock) (key k v : Text) :
    (setOrRemove b key v).get k = if k = key then (if v = [] then none else some v) else b.get k := by
  unfold setOrRemove
  by_cases hv : v = []
  · rw [if_pos hv, if_pos hv, get_remove]
  · rw [if_neg hv, if_neg hv, get_set]

-- What the reticulum block of the file holds after a write.
def stampedBlock (b : IniBlock) (s : StackSettings) (sources : Text) : IniBlock :=
  setOrRemove (setOrRemove (stampFixed b s) DISCOVERY_SOURCES sources) NETWORK_IDENTITY (trim s.networkIdentity)

theorem get_stampedBlock_other {sources : Text} (h : k ∉ settingKeys) : (stampedBlock b s sources).get k = b.get k := by
  simp only [settingKeys, List.mem_cons, List.not_mem_nil, or_false, not_or] at h
  obtain ⟨h1, h2, h3, h4, h5, h6, h7, h8, h9⟩ := h
  rw [stampedBlock, get_setOrRemove, if_neg h8, get_setOrRemove, if_neg h7, stampFixed, get_remove, if_neg h6, get_set,
    if_neg h9, get_set, if_neg h5, get_set, if_neg h4, get_set, if_neg h3, get_set, if_neg h2, get_set, if_neg h1]

def stampedConfig (P : ParsedConfig) (s : StackSettings) (sources : Text) : ParsedConfig :=
  { P with
    reticulum := stampedBlock P.reticulum s sources
    logging := P.logging.set LOGLEVEL (intText s.loglevel.val) }

theorem stampSettings_eq_ok (h : stampSettings P s = .ok P') :
    ∃ sources, normalizeDiscoverySources s.interfaceDiscoverySources = .ok sources ∧
      '\n' ∉ trim s.networkIdentity ∧ P' = stampedConfig P s sources := by
  unfold stampSettings at h
  cases hsources : normalizeDiscoverySources s.interfaceDiscoverySources with
  | error e =>
      rw [hsources] at h
      cases h
  | ok sources =>
      rw [hsources] at h
      simp only [bind, Except.bind, pure, Except.pure] at h
      by_cases hnil : trim s.networkIdentity = []
      · rw [if_neg (not_not.mpr hnil)] at h
        exact ⟨sources, rfl, by rw [hnil]; exact List.not_mem_nil, (Except.ok.inj h).symm⟩
      · rw [if_pos hnil, validateIniScalar] at h
        by_cases hscalar : '\n' ∈ trim s.networkIdentity ∨ '\r' ∈ trim s.networkIdentity ∨ '\x00' ∈ trim s.networkIdentity
        · rw [if_pos hscalar] at h
          cases h
        · rw [if_neg hscalar] at h
          exact ⟨sources, rfl, fun hmem => hscalar (.inl hmem), (Except.ok.inj h).symm⟩

-- An identity line loses its outer quotes and its comment when it is read again.
def readBack (e : Text × Text) : Text := if e.1 = NETWORK_IDENTITY then reread e.2 else e.2

theorem readLine_identity (v : Text) :
    readLine (entryLine NETWORK_IDENTITY v) = .ok (.entry NETWORK_IDENTITY (reread v)) := by
  have hkey : PlainKey NETWORK_IDENTITY := plainKey_of_setting (by simp [settingKeys])
  have hstrip := (congrArg stripComment (entryLine_eq NETWORK_IDENTITY v)).trans (stripComment_key hkey.keyText v)
  rw [readLine_of_strip hkey.keyText hstrip, if_neg fun hheader => hkey.head_ne hheader.1, trim_space]
  rfl

theorem mem_setOrRemove {e : Text × Text} (h : e ∈ (setOrRemove b k v).values.entries) :
    (e.1 = k ∧ e.2 = v) ∨ e ∈ b.values.entries := by
  have hget : (setOrRemove b k v).get e.1 = some e.2 := ((setOrRemove b k v).values.mem_entries_iff e.1 e.2).mp h
  rw [get_setOrRemove] at hget
  split at hget
  · rename_i hk
    split at hget
    · cases hget
    · exact .inl ⟨hk, (Option.some.inj hget).symm⟩
  · exact .inr ((b.values.mem_entries_iff e.1 e.2).mpr hget)

theorem stampedBlock_reads {sources : Text} (hb : PlainBlockPairs b) (hsources : NormalSources sources) :
    ∀ e ∈ (stampedBlock b s sources).values.entries, readLine (entryLine e.1 e.2) = .ok (.entry e.1 (readBack e)) := by
  intro e he
  have hold : PlainBlockPairs (setOrRemove (stampFixed b s) DISCOVERY_SOURCES sources) :=
    hb.stampFixed.setOrRemove (plainKey_of_setting (by simp [settingKeys])) (plainValue_sources hsources)
  by_cases hk : e.1 = NETWORK_IDENTITY
  · rw [readBack, if_pos hk, hk]
    exact readLine_identity e.2
  · rw [readBack, if_neg hk]
    obtain hnew | he := mem_setOrRemove he
    · exact absurd hnew.1 hk
    · exact hold.reads e he

theorem feed_notMem_stamped {sources : Text} (hb : PlainBlockPairs b) (hsources : NormalSources sources)
    (hline : '\n' ∉ trim s.networkIdentity) :
    ∀ l ∈ entryLines (stampedBlock b s sources), '\n' ∉ l := by
  have hold : PlainBlockPairs (setOrRemove (stampFixed b s) DISCOVERY_SOURCES sources) :=
    hb.stampFixed.setOrRemove (plainKey_of_setting (by simp [settingKeys])) (plainValue_sources hsources)
  intro l hl
  obtain ⟨e, he, rfl⟩ := List.mem_map.mp hl
  obtain ⟨hk, hv⟩ | he := mem_setOrRemove he
  · rw [hk, hv]
    exact feed_notMem_entryLine (by decide) hline
  · exact feed_notMem_entryLine (hold e he).key.line (hold e he).value.line

-- What is written under the keys of the settings.
theorem get_stampedBlock (b : IniBlock) (s : StackSettings) (sources : Text) :
    (stampedBlock b s sources).get ENABLE_TRANSPORT = some (boolToIni s.enableTransport) ∧
    (stampedBlock b s sources).get SHARE_INSTANCE = some (boolToIni s.shareInstance) ∧
    (stampedBlock b s sources).get ANNOUNCE_INTERVAL_SEC = some (natText s.announceIntervalSec.val) ∧
    (stampedBlock b s sources).get AUTOCONNECT = some (natText s.autoconnectDiscoveredInterfaces.val) ∧
    (stampedBlock b s sources).get REQUIRED_VALUE = some (natText (max s.requiredDiscoveryValue.val 1)) ∧
    (stampedBlock b s sources).get SLOW_RF_FILTER = some (boolToIni s.slowRfAnnounceFilter) ∧
    (stampedBlock b s sources).get DISCOVERY_SOURCES = (if sources = [] then none else some sources) ∧
    (stampedBlock b s sources).get NETWORK_IDENTITY =
      if trim s.networkIdentity = [] then none else some (trim s.networkIdentity) := by
  simp +decide [stampedBlock, get_setOrRemove, stampFixed, get_remove, get_set]

theorem getD_stored {g : Text → Text} (hnil : g [] = []) (v : Text) :
    ((if v = [] then none else some v : Option Text).map g).getD [] = g v := by
  split
  · rename_i hv
    rw [hv, hnil]
    rfl
  · rfl

-- What a file is read as whose blocks hold what was written.
theorem settings_reread {sources : Text}
    (hret : ∀ k, Q.reticulum.get k = ((stampedBlock b s sources).get k).map fun v => readBack (k, v))
    (hlog : Q.logging.get LOGLEVEL = some (intText s.loglevel.val)) :
    stackSettingsFromParsed Q = { s with
      requiredDiscoveryValue := ⟨max s.requiredDiscoveryValue.val 1, by omega⟩
      interfaceDiscoverySources := sources
      networkIdentity := reread (trim s.networkIdentity) } := by
  obtain ⟨h1, h2, h3, h4, h5, h6, h7, h8⟩ := get_stampedBlock b s sources
  have hread : ∀ k v, k ≠ NETWORK_IDENTITY → readBack (k, v) = v := fun k v hk => if_neg hk
  have hsame : ∀ {k v}, k ≠ NETWORK_IDENTITY → (stampedBlock b s sources).get k = some v → Q.reticulum.get k = some v := by
    intro k v hk hget
    rw [hret, hget, Option.map_some, hread k v hk]
  have hsources : Q.reticulum.get DISCOVERY_SOURCES = if sources = [] then none else some sources := by
    rw [hret, h7]
    split
    · rfl
    · rw [Option.map_some, hread _ _ (by decide)]
  have hidentity : (Q.reticulum.get NETWORK_IDENTITY).getD [] = reread (trim s.networkIdentity) := by
    rw [hret, h8]
    exact getD_stored (g := reread) (by decide) _
  have hlt : max s.requiredDiscoveryValue.val 1 < 256 := by omega
  have hlist : (if sources = [] then none else some sources : Option Text).getD [] = sources := by
    split
    · rename_i hnil
      rw [hnil]
      rfl
    · rfl
  unfold stackSettingsFromParsed
  simp only [IniBlock.getBool, hsame (by decide) h1, hsame (by decide) h2, hsame (by decide) h3, hsame (by decide) h4,
    hsame (by decide) h5, hsame (by decide) h6, hsources, hidentity, hlog, Option.some_or, Option.bind_some,
    parseBool_boolToIni, parseUnsigned_natText (Fin.is_lt _), parseUnsigned_natText hlt, parseI32_intText, Option.getD_some,
    hlist]

-- The settings that are written as they are.
structure Storable (s : StackSettings) : Prop where
  required : s.requiredDiscoveryValue ≠ 0
  sources : NormalSources s.interfaceDiscoverySources
  identity : NormalIdentity s.networkIdentity

theorem storable_iff {sources : Text} (hsources : normalizeDiscoverySources s.interfaceDiscoverySources = .ok sources) :
    { s with
      requiredDiscoveryValue := ⟨max s.requiredDiscoveryValue.val 1, by omega⟩
      interfaceDiscoverySources := sources
      networkIdentity := reread (trim s.networkIdentity) } = s ↔ Storable s := by
  have hrequired : (⟨max s.requiredDiscoveryValue.val 1, by omega⟩ : Fin 256) = s.requiredDiscoveryValue ↔
      s.requiredDiscoveryValue ≠ 0 := by
    rw [Fin.ext_iff, ne_eq, Fin.ext_iff]
    simp only [Fin.val_zero]
    omega
  constructor
  · intro h
    rw [StackSettings.mk.injEq] at h
    obtain ⟨_, _, _, _, _, hreq, hsame, hid, _⟩ := h
    exact ⟨hrequired.mp hreq, hsame ▸ normalSources_of_normalize hsources, normalIdentity_iff.mpr hid⟩
  · rintro ⟨hreq, hnormal, hid⟩
    have hsame := Except.ok.inj (hsources.symm.trans (normalSources_iff.mp hnormal))
    rw [StackSettings.mk.injEq]
    exact ⟨rfl, rfl, rfl, rfl, rfl, hrequired.mpr hreq, hsame, normalIdentity_iff.mp hid, rfl⟩

structure OmittedKept (patch : StackSettingsPatch) (before after : StackSettings) : Prop where
  enableTransport : patch.enableTransport = none → after.enableTransport = before.enableTransport
  shareInstance : patch.shareInstance = none → after.shareInstance = before.shareInstance
  loglevel : patch.loglevel = none → after.loglevel = before.loglevel
  announceIntervalSec : patch.announceIntervalSec = none → after.announceIntervalSec = before.announceIntervalSec
  autoconnectDiscoveredInterfaces : patch.autoconnectDiscoveredInterfaces = none →
    after.autoconnectDiscoveredInterfaces = before.autoconnectDiscoveredInterfaces
  requiredDiscoveryValue : patch.requiredDiscoveryValue = none →
    after.requiredDiscoveryValue = before.requiredDiscoveryValue
  interfaceDiscoverySources : patch.interfaceDiscoverySources = none →
    after.interfaceDiscoverySources = before.interfaceDiscoverySources
  networkIdentity : patch.networkIdentity = none → after.networkIdentity = before.networkIdentity
  slowRfAnnounceFilter : patch.slowRfAnnounceFilter = none → after.slowRfAnnounceFilter = before.slowRfAnnounceFilter

theorem omittedKept_merge (patch : StackSettingsPatch) (current : StackSettings) :
    OmittedKept patch current (patch.merge current) := by
  constructor
  all_goals
    intro h
    simp only [StackSettingsPatch.merge, h, Option.getD_none]

structure OthersKept (P Q : ParsedConfig) : Prop where
  reticulum : ∀ k ∉ settingKeys, Q.reticulum.get k = P.reticulum.get k
  logging : ∀ k, k ≠ LOGLEVEL → Q.logging.get k = P.logging.get k
  interfaces : List.Forall₂ SameBlock Q.interfaces P.interfaces

-- What a patch that was taken leaves in the file.
structure Persisted (file : Option Text) (patch : StackSettingsPatch) (settings : StackSettings) (content : Text) : Prop where
  reported : getStackSettings (some content) = .ok settings
  omitted : ∀ before after, getStackSettings file = .ok before → getStackSettings (some content) = .ok after →
    OmittedKept patch before after
  others : ∀ P Q, parseConfig (readConfig file) = .ok P → parseConfig content = .ok Q → OthersKept P Q

-- The lines outside the three sections that a rewrite can carry over.
structure Rewritable (content : Text) (P : ParsedConfig) : Prop where
  leading : LeadingKept (leadingEntries (lines content)) P.interfaces
  unknown : ∀ n ∈ firstUnknown (lines content), PlainName n

theorem setStackSettings_eq_ok {io : Except String Unit} {file : Option Text} {content : Text}
    (hP : parseConfig (readConfig file) = .ok P) (h : setStackSettings io file s = .ok content) :
    ∃ P' Q, stampSettings P s = .ok P' ∧ content = serializeConfig P' ∧ parseConfig content = .ok Q := by
  unfold setStackSettings at h
  simp only [hP, bind, Except.bind] at h
  cases hstamp : stampSettings P s with
  | error e =>
      rw [hstamp] at h
      cases h
  | ok P' =>
      simp only [hstamp, writeConfig, bind, Except.bind] at h
      cases hQ : parseConfig (serializeConfig P') with
      | error e =>
          rw [hQ] at h
          cases h
      | ok Q =>
          rw [hQ] at h
          cases io with
          | error e => cases h
          | ok u =>
              obtain rfl := Except.ok.inj h
              exact ⟨P', Q, rfl, rfl, hQ⟩

theorem persisted_iff {file : Option Text} {patch : StackSettingsPatch} (hplain : PlainValues (readConfig file))
    (hP : parseConfig (readConfig file) = .ok P)
    (hP' : stampSettings P (patch.merge (stackSettingsFromParsed P)) = .ok P')
    (hQ : parseConfig (serializeConfig P') = .ok Q) :
    Persisted file patch (patch.merge (stackSettingsFromParsed P)) (serializeConfig P') ↔
      Storable (patch.merge (stackSettingsFromParsed P)) ∧ Rewritable (readConfig file) P := by
  generalize hs : patch.merge (stackSettingsFromParsed P) = s at hP' ⊢
  obtain ⟨sources, hsources, hline, rfl⟩ := stampSettings_eq_ok hP'
  have hblocks := plainBlocks_of_parse hplain hP
  have hnormal := normalSources_of_normalize hsources
  have hloglevel : PlainPair LOGLEVEL (intText s.loglevel.val) := plainKey_settings.2.pair (plainValue_intText _)
  obtain ⟨hread, hsame⟩ := @config_reread P (stampedConfig P s sources) Q _ readBack hplain hP rfl
    (stampedBlock_reads hblocks.reticulum.2 hnormal) (feed_notMem_stamped hblocks.reticulum.2 hnormal hline)
    (hblocks.logging.2.set hloglevel) hblocks.logging.1 hblocks.interfaces hQ
  have hget : getStackSettings (some (serializeConfig (stampedConfig P s sources))) =
      .ok (stackSettingsFromParsed Q) := by
    rw [getStackSettings, readConfig, Option.getD_some, hQ]
    rfl
  have hsettings : (∀ n ∈ firstUnknown (lines (readConfig file)), PlainName n) →
      (stackSettingsFromParsed Q = s ↔ Storable s) := by
    intro hnames
    obtain ⟨hret, hlog⟩ := hread hnames
    have hlevel : Q.logging.get LOGLEVEL = some (intText s.loglevel.val) := by
      rw [hlog, stampedConfig, get_set, if_pos rfl]
    rw [settings_reread hret hlevel, storable_iff hsources]
  constructor
  · rintro ⟨hreported, _, hothers⟩
    obtain ⟨hleading, hnames⟩ := hsame.mp (hothers P Q hP hQ).interfaces
    exact ⟨(hsettings hnames).mp (Except.ok.inj (hget.symm.trans hreported)), hleading, hnames⟩
  · rintro ⟨hstorable, hleading, hnames⟩
    have hreported := (hsettings hnames).mpr hstorable
    obtain ⟨hret, hlog⟩ := hread hnames
    refine ⟨hget.trans (congrArg _ hreported), fun before after hbefore hafter => ?_, fun P₁ Q₁ hP₁ hQ₁ => ?_⟩
    · rw [getStackSettings, hP] at hbefore
      obtain rfl := Except.ok.inj hbefore
      obtain rfl := Except.ok.inj (hget.symm.trans hafter)
      rw [hreported, ← hs]
      exact omittedKept_merge patch _
    · obtain rfl := Except.ok.inj (hP.symm.trans hP₁)
      obtain rfl := Except.ok.inj (hQ.symm.trans hQ₁)
      refine ⟨fun k hk => ?_, fun k hk => ?_, hsame.mpr ⟨hleading, hnames⟩⟩
      · have hne : k ≠ NETWORK_IDENTITY := fun heq => hk (heq ▸ by decide)
        have hid : (fun v => readBack (k, v)) = id := funext fun v => if_neg hne
        rw [hret k, hid, Option.map_id_fun, id, stampedConfig, get_stampedBlock_other hk]
      · rw [hlog, stampedConfig, get_set, if_neg hk]

-- A refused patch leaves the file alone. One that is taken says what is in the file afterwards
-- exactly for settings that are written as they are, in a file whose other lines can be carried over.
theorem patch_persists_iff (io : Except String Unit) (file : Option Text) (patch : StackSettingsPatch)
    (hplain : PlainValues (readConfig file)) :
    (∀ e, (applyStackSettingsPatch io file patch).1 = .error e → (applyStackSettingsPatch io file patch).2 = file) ∧
    ∀ settings, (applyStackSettingsPatch io file patch).1 = .ok settings →
      ∃ P content, parseConfig (readConfig file) = .ok P ∧ (applyStackSettingsPatch io file patch).2 = some content ∧
        (Persisted file patch settings content ↔
          Storable (patch.merge (stackSettingsFromParsed P)) ∧ Rewritable (readConfig file) P) := by
  unfold applyStackSettingsPatch
  cases hP : parseConfig (readConfig file) with
  | error e => simp [getStackSettings, hP, Except.map]
  | ok P =>
      have hcurrent : getStackSettings file = .ok (stackSettingsFromParsed P) := by
        rw [getStackSettings, hP]
        rfl
      simp only [hcurrent]
      cases hset : setStackSettings io file (patch.merge (stackSettingsFromParsed P)) with
      | error e => simp
      | ok content =>
          obtain ⟨P', Q, hstamp, rfl, hQ⟩ := setStackSettings_eq_ok hP hset
          refine ⟨fun e he => (by cases he), fun settings hsettings => ⟨P, _, rfl, rfl, ?_⟩⟩
          obtain rfl := Except.ok.inj hsettings
          exact persisted_iff hplain hP hstamp hQ

theorem plainValues_of_lines {content : Text}
    (h : ((lines content).all fun raw => (rawValue raw).all fun c => c != '#' && c != '"') = true) : PlainValues content := by
  intro raw hraw k v _ c hc
  simpa using List.all_eq_true.mp (List.all_eq_true.mp h raw hraw) c hc

theorem patch_persists_identity :
    ∃ settings content,
      applyStackSettingsPatch (.ok ()) (some "[reticulum]\nnetwork_identity = /id\n".toList) { enableTransport := some true } =
        (.ok settings, some content) ∧
      settings.networkIdentity = "/id".toList ∧
      Persisted (some "[reticulum]\nnetwork_identity = /id\n".toList) { enableTransport := some true } settings content := by
  have hplain : PlainValues (readConfig (some "[reticulum]\nnetwork_identity = /id\n".toList)) :=
    plainValues_of_lines (by decide +kernel)
  have hwrite := (patch_persists_iff (.ok ()) (some "[reticulum]\nnetwork_identity = /id\n".toList)
    { enableTransport := some true } hplain).2
  have hP : parseConfig (readConfig (some "[reticulum]\nnetwork_identity = /id\n".toList)) =
    .ok { reticulum := blockOf "reticulum" [("network_identity", "/id")] } := by decide +kernel
  have hresult : (applyStackSettingsPatch (.ok ()) (some "[reticulum]\nnetwork_identity = /id\n".toList)
      { enableTransport := some true }).1 = .ok (StackSettingsPatch.merge { enableTransport := some true }
        (stackSettingsFromParsed { reticulum := blockOf "reticulum" [("network_identity", "/id")] })) := by
    decide +kernel
  obtain ⟨P, content, hparsed, hcontent, hiff⟩ := hwrite _ hresult
  obtain rfl := Except.ok.inj (hP.symm.trans hparsed)
  refine ⟨_, content, Prod.ext hresult hcontent, by decide +kernel, hiff.mpr ⟨⟨?_, ⟨[], by simp, ?_⟩, ?_⟩, ?_, ?_⟩⟩
  · decide +kernel
  · decide +kernel
  · exact normalIdentity_iff.mpr (by decide +kernel)
  · intro b hb
    cases hb
  · have hnone : firstUnknown (lines (readConfig (some "[reticulum]\nnetwork_identity = /id\n".toList))) = none := by
      decide +kernel
    intro n hn
    rw [hnone] at hn
    cases hn

def zeroRequired : ParsedConfig :=
  { reticulum := blockOf "reticulum" [("required_discovery_value", "0")] }

-- A value of 0 in the file is reported as it is, and becomes 1 when any other setting is written.
theorem zero_required_value_becomes_one : ¬ ∀ io file patch, PlainValues (readConfig file) →
    (∀ e, (applyStackSettingsPatch io file patch).1 = .error e → (applyStackSettingsPatch io file patch).2 = file) ∧
    ∀ settings, (applyStackSettingsPatch io file patch).1 = .ok settings →
      ∃ content, (applyStackSettingsPatch io file patch).2 = some content ∧ Persisted file patch settings content := by
  intro h
  have hplain : PlainValues (readConfig (some "[reticulum]\nrequired_discovery_value = 0\n".toList)) :=
    plainValues_of_lines (by decide +kernel)
  obtain ⟨content, hcontent, hpersisted⟩ := (h (.ok ()) (some "[reticulum]\nrequired_discovery_value = 0\n".toList)
    { enableTransport := some true } hplain).2 { stackSettingsFromParsed zeroRequired with enableTransport := true }
    (by decide +kernel)
  have hstored : (getStackSettings (applyStackSettingsPatch (.ok ()) (some "[reticulum]\nrequired_discovery_value = 0\n".toList)
      { enableTransport := some true }).2).toOption.map (·.requiredDiscoveryValue) = some 1 := by decide +kernel
  have hreported := congrArg (fun r => r.toOption.map (·.requiredDiscoveryValue)) hpersisted.reported
  rw [← hcontent] at hreported
  exact absurd (hstored.symm.trans hreported) (by decide +kernel)

end MeshClient.Reticulum
