import MeshClient.Reticulum.ConfigRewrite

namespace MeshClient.Reticulum

open TextLines Tally

variable {σ σ' F : Parsing} {b b' : IniBlock} {raw k v name : Text} {P Q : ParsedConfig} {ls : List Text}

-- The config before and after a rewrite, whatever the order of the keys is.
def SameBlock (b b' : IniBlock) : Prop := b.name = b'.name ∧ ∀ k, b.get k = b'.get k

structure SameConfig (P Q : ParsedConfig) : Prop where
  reticulum : ∀ k, P.reticulum.get k = Q.reticulum.get k
  logging : ∀ k, P.logging.get k = Q.logging.get k
  interfaces : List.Forall₂ SameBlock P.interfaces Q.interfaces
  extraSections : P.extraSections = Q.extraSections

theorem SameConfig.refl (P : ParsedConfig) : SameConfig P P :=
  ⟨fun _ => rfl, fun _ => rfl, List.forall₂_same.mpr fun _ _ => ⟨rfl, fun _ => rfl⟩, rfl⟩

theorem size_eq_of_get (h : ∀ k, b.get k = b'.get k) : b.size = b'.size := by
  have hkeys : ∀ k, k ∈ b.values.keys ↔ k ∈ b'.values.keys := by
    intro k
    rw [OrderedMap.mem_keys_iff, OrderedMap.mem_keys_iff]
    exact exists_congr fun v => by rw [show b.values.get? k = b'.values.get? k from h k]
  exact le_antisymm (OrderedMap.size_le_of_keys_subset _ _ fun k hk => (hkeys k).mp hk)
    (OrderedMap.size_le_of_keys_subset _ _ fun k hk => (hkeys k).mpr hk)

theorem keysIn_eq_of_same {blocks blocks' : List IniBlock} (h : List.Forall₂ SameBlock blocks blocks') :
    keysIn blocks = keysIn blocks' := by
  induction h with
  | nil => rfl
  | cons hb _ ih =>
      simp only [keysIn, List.map_cons, List.sum_cons] at ih ⊢
      rw [ih, size_eq_of_get hb.2]

theorem SameConfig.count_eq (h : SameConfig P Q) : count P = count Q := by
  rw [count, count, size_eq_of_get h.reticulum, size_eq_of_get h.logging, h.interfaces.length_eq,
    keysIn_eq_of_same h.interfaces, h.extraSections]

-- Lines that count, one each, keep the section or leave the three sections for good.
theorem stays_step {t : Text} {m m' : Parsing} (htop : m.currentTop = some t ∨ Foreign m)
    (h : parseLine m raw = .ok m') (hcount : count m'.toParsedConfig = count m.toParsedConfig + 1) :
    (m'.currentTop = some t ∨ Foreign m') ∧ (t ≠ RETICULUM → m'.reticulum = m.reticulum) ∧
      (t ≠ LOGGING → m'.logging = m.logging) ∧ (t ≠ INTERFACES → m'.interfaces = m.interfaces) := by
  have hreserved : ∀ r, m.currentTop = some r → reserved r = true → t = r := by
    intro r hr hres
    obtain htop | ⟨n, hn, hfree⟩ := htop
    · exact Option.some.inj (htop.symm.trans hr)
    · obtain rfl := Option.some.inj (hn.symm.trans hr)
      exact absurd (hres.symm.trans hfree) (by simp)
  obtain ⟨_, rfl⟩ | ⟨n, _, rfl⟩ | ⟨n, _, hiface, rfl⟩ | ⟨k, v, _, rfl⟩ := parseLine_cases h
  · omega
  · cases hres : reserved n with
    | true =>
        rw [count_openTop, hres] at hcount
        simp at hcount
    | false => exact ⟨.inr ⟨n, rfl, hres⟩, fun _ => rfl, fun _ => rfl, fun _ => rfl⟩
  · obtain rfl := hreserved _ hiface (by decide)
    exact ⟨.inl hiface, fun _ => rfl, fun _ => rfl, fun hne => absurd rfl hne⟩
  · obtain ⟨b, htarget, hplace⟩ | ⟨_, _, hplace⟩ | ⟨hnone, hplace⟩ | ⟨n, hn, hres, hplace⟩ := placeEntry_cases m k v
    · rw [hplace]
      have hstay : (setTarget m (b.set k v)).currentTop = some t ∨ Foreign (setTarget m (b.set k v)) := by
        simpa [Foreign] using htop
      refine ⟨hstay, ?_⟩
      obtain ⟨hret, _⟩ | ⟨hlog, _⟩ | ⟨idx, hiface, hidx, _⟩ := target_cases htarget
      · obtain rfl := hreserved _ hret (by decide)
        rw [setTarget_of_reticulum hret]
        exact ⟨fun hne => absurd rfl hne, fun _ => rfl, fun _ => rfl⟩
      · obtain rfl := hreserved _ hlog (by decide)
        rw [setTarget_of_logging hlog]
        exact ⟨fun _ => rfl, fun hne => absurd rfl hne, fun _ => rfl⟩
      · obtain rfl := hreserved _ hiface (by decide)
        rw [setTarget_of_iface hiface hidx]
        exact ⟨fun _ => rfl, fun _ => rfl, fun hne => absurd rfl hne⟩
    · rw [hplace]
      exact ⟨htop, fun _ => rfl, fun _ => rfl, fun _ => rfl⟩
    · rw [hplace]
      exact ⟨htop, fun _ => rfl, fun _ => rfl, fun _ => rfl⟩
    · rw [hplace]
      exact ⟨htop, fun _ => rfl, fun _ => rfl, fun _ => rfl⟩

theorem stays_run {t : Text} (htop : σ.currentTop = some t ∨ Foreign σ) (h : Runs parseLine σ ls F)
    (hfull : count F.toParsedConfig = count σ.toParsedConfig + ls.length) :
    (F.currentTop = some t ∨ Foreign F) ∧ (t ≠ RETICULUM → F.reticulum = σ.reticulum) ∧
      (t ≠ LOGGING → F.logging = σ.logging) ∧ (t ≠ INTERFACES → F.interfaces = σ.interfaces) := by
  refine full_invariant (c := fun m : Parsing => count m.toParsedConfig)
    (I := fun m => (m.currentTop = some t ∨ Foreign m) ∧ (t ≠ RETICULUM → m.reticulum = σ.reticulum) ∧
      (t ≠ LOGGING → m.logging = σ.logging) ∧ (t ≠ INTERFACES → m.interfaces = σ.interfaces))
    count_parseLine_le ?_ ⟨htop, fun _ => rfl, fun _ => rfl, fun _ => rfl⟩ h hfull
  rintro m raw m' ⟨hm, hret, hlog, hiface⟩ hstep hcount
  obtain ⟨hm', hret', hlog', hiface'⟩ := stays_step hm hstep hcount
  exact ⟨hm', fun hne => (hret' hne).trans (hret hne), fun hne => (hlog' hne).trans (hlog hne),
    fun hne => (hiface' hne).trans (hiface hne)⟩

-- Out of the three sections every line goes to the unknown ones.
theorem foreign_run (hforeign : Foreign σ) (h : Runs parseLine σ ls F)
    (hfull : count F.toParsedConfig = count σ.toParsedConfig + ls.length) :
    F.reticulum = σ.reticulum ∧ F.logging = σ.logging ∧ F.interfaces = σ.interfaces ∧
      F.extraSections.length = σ.extraSections.length + ls.length := by
  have hret := (stays_run (t := LOGGING) (.inr hforeign) h hfull).2.1 logging_ne_reticulum
  have hlog := (stays_run (t := RETICULUM) (.inr hforeign) h hfull).2.2.1 logging_ne_reticulum.symm
  have hiface := (stays_run (t := RETICULUM) (.inr hforeign) h hfull).2.2.2 interfaces_ne_reticulum.symm
  refine ⟨hret, hlog, hiface, ?_⟩
  rw [count, count, hret, hlog, hiface] at hfull
  omega

def ReadAs (e e' : Text × Text) : Prop := readLine (entryLine e.1 e.2) = .ok (.entry e'.1 e'.2)

-- A line that counts but is no key of the block it stands in.
def Strays (m m' : Parsing) : Prop :=
  (∃ n, reserved n = false ∧ m' = openTop m n) ∨ ∃ n, m.currentTop = some INTERFACES ∧ m' = pushIface m n

theorem entry_step {e : Text × Text} (htarget : target σ = some b) (h : parseLine σ (entryLine e.1 e.2) = .ok σ')
    (hcount : count σ'.toParsedConfig = count σ.toParsedConfig + 1) :
    (∃ e', ReadAs e e' ∧ e'.1 ∉ b.values.keys ∧ σ' = setTarget σ (b.set e'.1 e'.2)) ∨ Strays σ σ' := by
  obtain ⟨_, rfl⟩ | ⟨n, _, rfl⟩ | ⟨n, _, hiface, rfl⟩ | ⟨k, v, hread, rfl⟩ := parseLine_cases h
  · omega
  · cases hres : reserved n with
    | true =>
        rw [count_openTop, hres] at hcount
        simp at hcount
    | false => exact .inr (.inl ⟨n, hres, rfl⟩)
  · exact .inr (.inr ⟨n, hiface, rfl⟩)
  · have hplace := placeEntry_of_target htarget k v
    refine .inl ⟨(k, v), hread, ?_, hplace⟩
    intro hmem
    have hsize : (b.set k v).size = b.size := OrderedMap.size_set_of_mem _ _ hmem
    have hset := count_setTarget htarget (b.set k v)
    rw [hplace] at hcount
    omega

-- Key lines that all count are all taken into their block, or one of them strays.
theorem entries_run {entries : List (Text × Text)} (htarget : target σ = some b)
    (h : Runs parseLine σ (entries.map (fun e => entryLine e.1 e.2) ++ ls) F)
    (hfull : count F.toParsedConfig =
      count σ.toParsedConfig + (entries.map (fun e => entryLine e.1 e.2) ++ ls).length) :
    (∃ es b', List.Forall₂ ReadAs entries es ∧ b'.name = b.name ∧ b'.values.entries = b.values.entries ++ es ∧
      Runs parseLine (setTarget σ b') ls F ∧
      count F.toParsedConfig = count (setTarget σ b').toParsedConfig + ls.length) ∨
    ∃ b' m post, b'.size < b.size + entries.length ∧ Strays (setTarget σ b') m ∧ Runs parseLine m (post ++ ls) F ∧
      count F.toParsedConfig = count m.toParsedConfig + (post ++ ls).length := by
  induction entries generalizing σ b with
  | nil =>
      refine .inl ⟨[], b, List.Forall₂.nil, rfl, (List.append_nil _).symm, ?_⟩
      rw [setTarget_self htarget]
      exact ⟨h, hfull⟩
  | cons e rest ih =>
      rw [List.map_cons, List.cons_append] at h hfull
      obtain ⟨m, hstep, hcount, hrest, hfull⟩ :=
        full_cons (c := fun m : Parsing => count m.toParsedConfig) count_parseLine_le h hfull
      obtain ⟨e', hread, hk, rfl⟩ | hstray := entry_step htarget hstep hcount
      · have hset := IniBlock.entries_set (v := e'.2) hk
        have hsize : (b.set e'.1 e'.2).size = b.size + 1 := OrderedMap.size_set_of_notMem _ _ hk
        obtain ⟨es, b', hreads, hname, hentries, hruns⟩ | ⟨b', m, post, hlt, hstray, hruns⟩ :=
          ih (target_setTarget htarget _) hrest hfull
        · rw [setTarget_setTarget htarget] at hruns
          rw [hset, List.append_assoc] at hentries
          exact .inl ⟨e' :: es, b', List.Forall₂.cons hread hreads, hname, hentries, hruns⟩
        · rw [setTarget_setTarget htarget] at hstray
          refine .inr ⟨b', m, post, ?_, hstray, hruns⟩
          rw [List.length_cons]
          omega
      · refine .inr ⟨b, m, rest.map (fun e => entryLine e.1 e.2), ?_, ?_, hrest, hfull⟩
        · rw [List.length_cons]
          omega
        · rwa [setTarget_self htarget]

theorem length_openTop_extras {n : Text} (h : reserved n = false) :
    (openTop σ n).extraSections.length = σ.extraSections.length + 1 := by
  simp [openTop, h]

theorem interfaces_mono (σ : Parsing) (raw : Text) (σ' : Parsing) (h : parseLine σ raw = .ok σ') :
    σ.interfaces.length ≤ σ'.interfaces.length := by
  obtain ⟨_, rfl⟩ | ⟨n, _, rfl⟩ | ⟨n, _, _, rfl⟩ | ⟨k, v, _, rfl⟩ := parseLine_cases h
  · exact le_refl _
  · exact le_refl _
  · simp [pushIface]
  · obtain ⟨b, _, hplace⟩ | ⟨_, _, hplace⟩ | ⟨_, hplace⟩ | ⟨n, _, _, hplace⟩ := placeEntry_cases σ k v
    · rw [hplace, setTarget_interfaces_length]
    · rw [hplace]
    · rw [hplace]
    · rw [hplace]

-- A block's header line opens a block or stops the parser.
theorem parseLine_header_header (hname : NameText name) (h : parseLine σ (header (header name)) = .ok σ') :
    σ.currentTop = some INTERFACES ∧ PlainName name ∧ σ' = pushIface σ name := by
  have hge : ∀ l, readLine (header (header name)) = .ok l → ∃ e n, l = .section' e n ∧ 2 ≤ e := by
    intro l hl
    rw [header_header_eq_wrap, readLine_wrap_eq (by decide) hname] at hl
    unfold readSection at hl
    simp only [opened_wrap] at hl
    split_ifs at hl
    exact ⟨_, _, (Except.ok.inj hl).symm, by omega⟩
  obtain ⟨hread, rfl⟩ | ⟨n, hread, rfl⟩ | ⟨n, hread, htop, rfl⟩ | ⟨k, v, hread, rfl⟩ := parseLine_cases h
  · obtain ⟨e, n, heq, _⟩ := hge _ hread
    exact absurd heq (by simp)
  · obtain ⟨e, n', heq, he⟩ := hge _ hread
    obtain ⟨rfl, _⟩ := Line.section'.inj heq
    omega
  · rw [header_header_eq_wrap] at hread
    have hplain := (readLine_wrap_iff (by decide) hname).mp ⟨hread, by
      rintro e n' heq
      exact (Line.section'.inj heq).1 ▸ le_refl _⟩
    obtain ⟨_, rfl⟩ := Line.section'.inj hplain.2
    exact ⟨htop, hplain.1, rfl⟩
  · obtain ⟨e, n, heq, _⟩ := hge _ hread
    exact absurd heq (by simp)

theorem interfaces_length_ge {blocks : List IniBlock} (hnames : ∀ b ∈ blocks, NameText b.name)
    (h : Runs parseLine σ (blocks.flatMap blockLines ++ ls) F) :
    σ.interfaces.length + blocks.length ≤ F.interfaces.length := by
  induction blocks generalizing σ with
  | nil => exact h.mono interfaces_mono
  | cons b rest ih =>
      rw [List.flatMap_cons, List.append_assoc, blockLines, List.cons_append, runs_cons] at h
      obtain ⟨m, hstep, hrest⟩ := h
      obtain ⟨m', hentries, hlater⟩ := runs_append.mp hrest
      obtain ⟨_, _, rfl⟩ := parseLine_header_header (hnames b List.mem_cons_self) hstep
      have hlast := ih (fun b' hb' => hnames b' (List.mem_cons_of_mem _ hb')) hlater
      have hmono := hentries.mono interfaces_mono
      simp only [pushIface, List.length_append, List.length_singleton] at hmono
      rw [List.length_cons]
      omega

def BlockReadAs (b b' : IniBlock) : Prop :=
  PlainName b.name ∧ b'.name = b.name ∧ List.Forall₂ ReadAs b.values.entries b'.values.entries

-- Every header opens its own block, so no other line may; and what strays to the unknown
-- sections is one line too many there.
theorem blocks_run {blocks : List IniBlock} (hnames : ∀ b ∈ blocks, NameText b.name)
    (htop : σ.currentTop = some INTERFACES) (h : Runs parseLine σ (blocks.flatMap blockLines ++ ls) F)
    (hfull : count F.toParsedConfig = count σ.toParsedConfig + (blocks.flatMap blockLines ++ ls).length)
    (hifaces : F.interfaces.length = σ.interfaces.length + blocks.length)
    (hextras : F.extraSections.length = σ.extraSections.length + ls.length) :
    ∃ blocks' m, List.Forall₂ BlockReadAs blocks blocks' ∧ m.interfaces = σ.interfaces ++ blocks' ∧
      m.currentTop = some INTERFACES ∧ m.extraSections = σ.extraSections ∧ Runs parseLine m ls F ∧
      count F.toParsedConfig = count m.toParsedConfig + ls.length := by
  induction blocks generalizing σ with
  | nil => exact ⟨[], σ, List.Forall₂.nil, (List.append_nil _).symm, htop, rfl, h, hfull⟩
  | cons b rest ih =>
      have hnames' := fun b' hb' => hnames b' (List.mem_cons_of_mem b hb')
      rw [List.flatMap_cons, List.append_assoc, blockLines, List.cons_append] at h hfull
      obtain ⟨m, hstep, _, hrest, hfull⟩ :=
        full_cons (c := fun m : Parsing => count m.toParsedConfig) count_parseLine_le h hfull
      obtain ⟨_, hplain, rfl⟩ := parseLine_header_header (hnames b List.mem_cons_self) hstep
      have htop' : (pushIface σ b.name).currentTop = some INTERFACES := htop
      have htarget : target (pushIface σ b.name) = some { name := b.name } := by
        rw [target_of_iface htop' rfl]
        simp [pushIface]
      have hpushed : (pushIface σ b.name).interfaces.length = σ.interfaces.length + 1 := by simp [pushIface]
      rw [List.length_cons] at hifaces
      obtain ⟨es, b', hreads, hname, hentries, hruns, hfull⟩ | ⟨b', m, post, _, hstray, hruns, hfull⟩ :=
        entries_run htarget hrest hfull
      · have hset : (setTarget (pushIface σ b.name) b').interfaces = σ.interfaces ++ [b'] := by
          rw [setTarget_of_iface htop' rfl]
          simp [pushIface]
        obtain ⟨blocks', m, hblocks, hm, hmtop, hmextras, hruns⟩ :=
          ih hnames' (by simpa using htop') hruns hfull (by rw [setTarget_interfaces_length]; omega)
            (by simpa [pushIface] using hextras)
        rw [hset, List.append_assoc, List.singleton_append] at hm
        refine ⟨b' :: blocks', m, List.Forall₂.cons ⟨hplain, hname, ?_⟩ hblocks, hm, hmtop, ?_, hruns⟩
        · rw [hentries]
          exact hreads
        · rw [hmextras, setTarget_extraSections]
          rfl
      · obtain ⟨n, hres, rfl⟩ | ⟨n, _, rfl⟩ := hstray
        · have hforeign := (foreign_run ⟨n, rfl, hres⟩ hruns hfull).2.2.2
          rw [length_openTop_extras hres, setTarget_extraSections, List.length_append, List.length_append] at hforeign
          simp only [pushIface] at hforeign
          omega
        · obtain ⟨m', hpost, hlater⟩ := runs_append.mp hruns
          have hge := interfaces_length_ge hnames' hlater
          have hmono := hpost.mono interfaces_mono
          have hlen : (pushIface (setTarget (pushIface σ b.name) b') n).interfaces.length
              = σ.interfaces.length + 2 := by
            simp [pushIface]
          omega

theorem extras_length_le (σ : Parsing) (raw : Text) (σ' : Parsing) (h : parseLine σ raw = .ok σ') :
    σ'.extraSections.length ≤ σ.extraSections.length + 1 := by
  obtain ⟨_, rfl⟩ | ⟨n, _, rfl⟩ | ⟨n, _, _, rfl⟩ | ⟨k, v, _, rfl⟩ := parseLine_cases h
  · omega
  · cases hres : reserved n with
    | true => simp [openTop, hres]
    | false => rw [length_openTop_extras hres]
  · exact Nat.le_succ _
  · obtain ⟨b, _, hplace⟩ | ⟨_, _, hplace⟩ | ⟨_, hplace⟩ | ⟨n, _, _, hplace⟩ := placeEntry_cases σ k v
    · rw [hplace, setTarget_extraSections]
      omega
    · rw [hplace]
      omega
    · rw [hplace]
      simp
    · rw [hplace]
      simp

theorem extras_step (htop : σ.currentTop ≠ none) (h : parseLine σ raw = .ok σ')
    (hcount : σ'.extraSections.length = σ.extraSections.length + 1) :
    σ'.interfaces = σ.interfaces ∧
    ((∃ n, reserved n = false ∧ readLine raw = .ok (.section' 1 n) ∧ σ'.currentTop = some n ∧
        σ'.extraSections = σ.extraSections ++ [header n]) ∨
      ∃ n k v, reserved n = false ∧ σ.currentTop = some n ∧ readLine raw = .ok (.entry k v) ∧
        σ'.currentTop = some n ∧ σ'.extraSections = σ.extraSections ++ [extraLine k v n]) := by
  obtain ⟨_, rfl⟩ | ⟨n, hread, rfl⟩ | ⟨n, _, _, rfl⟩ | ⟨k, v, hread, rfl⟩ := parseLine_cases h
  · omega
  · cases hres : reserved n with
    | true => simp [openTop, hres] at hcount
    | false => exact ⟨rfl, .inl ⟨n, hres, hread, rfl, by simp [openTop, hres]⟩⟩
  · simp [pushIface] at hcount
  · obtain ⟨b, _, hplace⟩ | ⟨_, _, hplace⟩ | ⟨hnone, _⟩ | ⟨n, hn, hres, hplace⟩ := placeEntry_cases σ k v
    · rw [hplace, setTarget_extraSections] at hcount
      omega
    · rw [hplace] at hcount
      omega
    · exact absurd hnone htop
    · rw [hplace]
      exact ⟨rfl, .inr ⟨n, k, v, hres, hn, hread, hn, rfl⟩⟩

theorem extras_prefix (h : Runs parseLine σ ls F) : σ.extraSections <+: F.extraSections := by
  refine h.invariant (I := fun m : Parsing => σ.extraSections <+: m.extraSections) ?_ (List.prefix_refl _)
  intro m raw _ m' hm hstep
  refine hm.trans ?_
  obtain ⟨_, rfl⟩ | ⟨n, _, rfl⟩ | ⟨n, _, _, rfl⟩ | ⟨k, v, _, rfl⟩ := parseLine_cases hstep
  · exact List.prefix_refl _
  · cases hres : reserved n with
    | true => simp [openTop, hres]
    | false => simp [openTop, hres]
  · exact List.prefix_refl _
  · obtain ⟨b, _, hplace⟩ | ⟨_, _, hplace⟩ | ⟨_, hplace⟩ | ⟨n, _, _, hplace⟩ := placeEntry_cases m k v
    · rw [hplace, setTarget_extraSections]
    · rw [hplace]
    · rw [hplace]
      exact List.prefix_append _ _
    · rw [hplace]
      exact List.prefix_append _ _

-- Lines that come back as they are, one for each, read as what they stand for.
theorem extras_run {top : Option Text} (hne : σ.currentTop ≠ none)
    (htop : ∀ n, σ.currentTop = some n → reserved n = false → top = some n) (h : Runs parseLine σ ls F)
    (hextras : F.extraSections = σ.extraSections ++ ls) :
    F.interfaces = σ.interfaces ∧ ReadsExtras top ls := by
  induction ls generalizing σ top with
  | nil => exact ⟨by rw [runs_nil.mp h], trivial⟩
  | cons raw rest ih =>
      have hfull : F.extraSections.length = σ.extraSections.length + (raw :: rest).length := by
        rw [hextras, List.length_append]
      obtain ⟨m, hstep, hcount, hrest, _⟩ :=
        full_cons (c := fun m : Parsing => m.extraSections.length) extras_length_le h hfull
      have hline : ∀ l, m.extraSections = σ.extraSections ++ [l] →
          l = raw ∧ F.extraSections = m.extraSections ++ rest := by
        intro l hl
        obtain ⟨post, hpost⟩ := extras_prefix hrest
        rw [hl, hextras, List.append_assoc, List.append_cancel_left_eq, List.singleton_append] at hpost
        obtain ⟨rfl, rfl⟩ := List.cons.inj hpost
        refine ⟨rfl, ?_⟩
        rw [hextras, hl, List.append_assoc, List.singleton_append]
      rw [ReadsExtras]
      obtain ⟨hifaces, ⟨n, hres, hread, hmtop, hl⟩ | ⟨n, k, v, hres, hn, hread, hmtop, hl⟩⟩ :=
        extras_step hne hstep hcount
      · obtain ⟨heq, hlast⟩ := hline _ hl
        obtain ⟨hF, hreads⟩ := @ih _ (some n) (by simp [hmtop])
          (fun n' hn' _ => hmtop.symm.trans hn') hrest hlast
        exact ⟨hF.trans hifaces, .inl ⟨n, hres, heq.symm, hread, hreads⟩⟩
      · obtain ⟨heq, hlast⟩ := hline _ hl
        have htop' := htop n hn hres
        obtain ⟨hF, hreads⟩ := @ih _ top (by simp [hmtop])
          (fun n' hn' _ => htop'.trans (hmtop.symm.trans hn')) hrest hlast
        exact ⟨hF.trans hifaces, .inr ⟨n, k, v, htop', heq.symm, hread, hreads⟩⟩

end MeshClient.Reticulum
