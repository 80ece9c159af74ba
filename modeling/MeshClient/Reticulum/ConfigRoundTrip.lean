import MeshClient.Reticulum.ConfigReread

namespace MeshClient.Reticulum

open TextLines Tally

variable {σ σ' F : Parsing} {b b' : IniBlock} {raw k v name : Text} {P Q : ParsedConfig} {ls : List Text}

-- What holds of a block that was read from a file.
structure ReadBlock (b : IniBlock) : Prop where
  keys : ∀ e ∈ b.values.entries, KeyText e.1 ∧ ValueText e.2

structure ReadConfig (P : ParsedConfig) : Prop where
  reticulum : P.reticulum.name = RETICULUM ∧ ReadBlock P.reticulum
  logging : P.logging.name = LOGGING ∧ ReadBlock P.logging
  interfaces : ∀ b ∈ P.interfaces, NameText b.name ∧ ReadBlock b
  extraSections : ∀ l ∈ P.extraSections, '\n' ∉ l

theorem readBlock_empty (name : Text) : ReadBlock { name } := ⟨fun _ he => absurd he List.not_mem_nil⟩

theorem ReadBlock.set (h : ReadBlock b) (hk : KeyText k) (hv : ValueText v) : ReadBlock (b.set k v) := by
  constructor
  rintro e he
  have hget := ((b.set k v).values.mem_entries_iff e.1 e.2).mp he
  rw [IniBlock.set, OrderedMap.get?_set] at hget
  split_ifs at hget with heq
  · obtain rfl := Option.some.inj hget
    exact ⟨heq ▸ hk, hv⟩
  · exact h.keys e ((b.values.mem_entries_iff e.1 e.2).mpr hget)

theorem ReadConfig.setTarget (h : ReadConfig σ.toParsedConfig) (htarget : target σ = some b) (hk : KeyText k)
    (hv : ValueText v) : ReadConfig (setTarget σ (b.set k v)).toParsedConfig := by
  obtain ⟨htop, rfl⟩ | ⟨htop, rfl⟩ | ⟨idx, htop, hidx, hb⟩ := target_cases htarget
  · rw [setTarget_of_reticulum htop]
    exact { h with reticulum := ⟨h.reticulum.1, h.reticulum.2.set hk hv⟩ }
  · rw [setTarget_of_logging htop]
    exact { h with logging := ⟨h.logging.1, h.logging.2.set hk hv⟩ }
  · rw [setTarget_of_iface htop hidx]
    refine { h with interfaces := fun b' hb' => ?_ }
    obtain hmem | rfl := List.mem_or_eq_of_mem_set hb'
    · exact h.interfaces b' hmem
    · have hold := h.interfaces b (List.mem_of_getElem? hb)
      exact ⟨hold.1, hold.2.set hk hv⟩

theorem feed_notMem_header (h : '\n' ∉ name) : '\n' ∉ header name := by
  simp [header, h]

theorem feed_notMem_entryLine (hk : '\n' ∉ k) (hv : '\n' ∉ v) : '\n' ∉ entryLine k v := by
  simp [entryLine_eq, hk, hv]

theorem feed_notMem_extraLine {other : Text} (hk : '\n' ∉ k) (hv : '\n' ∉ v) (ho : '\n' ∉ other) :
    '\n' ∉ extraLine k v other := by
  simp [extraLine_eq, hk, hv, ho]

theorem mem_concat_extras {l l' : Text} (h : ∀ l ∈ ls, '\n' ∉ l) (hl : '\n' ∉ l) (hmem : l' ∈ ls ++ [l]) : '\n' ∉ l' := by
  obtain hmem | hmem := List.mem_append.mp hmem
  · exact h l' hmem
  · exact List.mem_singleton.mp hmem ▸ hl

-- One line keeps what was read so far.
theorem readConfig_step (hraw : '\n' ∉ raw)
    (h : ReadConfig σ.toParsedConfig ∧ ∀ n, σ.currentTop = some n → '\n' ∉ n) (hstep : parseLine σ raw = .ok σ') :
    ReadConfig σ'.toParsedConfig ∧ ∀ n, σ'.currentTop = some n → '\n' ∉ n := by
  obtain ⟨hconfig, htop⟩ := h
  obtain ⟨_, rfl⟩ | ⟨n, hread, rfl⟩ | ⟨n, hread, hiface, rfl⟩ | ⟨k, v, hread, rfl⟩ := parseLine_cases hstep
  · exact ⟨hconfig, htop⟩
  · have hname := nameText_of_readLine hread hraw
    refine ⟨{ hconfig with extraSections := ?_ }, fun m hm => Option.some.inj hm ▸ hname.line⟩
    intro l hl
    cases hres : reserved n with
    | true => exact hconfig.extraSections l (by simpa [openTop, hres] using hl)
    | false =>
        exact mem_concat_extras hconfig.extraSections (feed_notMem_header hname.line) (by simpa [openTop, hres] using hl)
  · have hname := nameText_of_readLine hread hraw
    refine ⟨{ hconfig with interfaces := fun b hb => ?_ }, htop⟩
    obtain hb | hb := List.mem_append.mp hb
    · exact hconfig.interfaces b hb
    · obtain rfl := List.mem_singleton.mp hb
      exact ⟨hname, readBlock_empty n⟩
  · obtain ⟨hk, hv⟩ := entryText_of_readLine hread hraw
    obtain ⟨b, htarget, hplace⟩ | ⟨_, _, hplace⟩ | ⟨_, hplace⟩ | ⟨n, hn, _, hplace⟩ := placeEntry_cases σ k v
    · rw [hplace]
      exact ⟨hconfig.setTarget htarget hk hv, by simpa using htop⟩
    · rw [hplace]
      exact ⟨hconfig, htop⟩
    · rw [hplace]
      refine ⟨{ hconfig with extraSections := fun l hl => ?_ }, htop⟩
      exact mem_concat_extras hconfig.extraSections (feed_notMem_entryLine hk.line hv.line) hl
    · rw [hplace]
      refine ⟨{ hconfig with extraSections := fun l hl => ?_ }, htop⟩
      exact mem_concat_extras hconfig.extraSections (feed_notMem_extraLine hk.line hv.line (htop n hn)) hl

theorem readConfig_of_parse {s : Text} (h : parseConfig s = .ok P) : ReadConfig P := by
  obtain ⟨σ, hruns, rfl⟩ := parseConfig_eq_ok_iff.mp h
  have hstart : ReadConfig ({} : Parsing).toParsedConfig :=
    ⟨⟨rfl, readBlock_empty _⟩, ⟨rfl, readBlock_empty _⟩, fun _ hb => absurd hb List.not_mem_nil,
      fun _ hl => absurd hl List.not_mem_nil⟩
  refine (hruns.invariant (I := fun m : Parsing => ReadConfig m.toParsedConfig ∧
    ∀ n, m.currentTop = some n → '\n' ∉ n) ?_ ⟨hstart, by simp⟩).1
  intro m raw hmem m' hm hstep
  exact readConfig_step (feed_notMem_lines hmem) hm hstep

theorem feed_notMem_entryLines (h : ReadBlock b) : ∀ l ∈ entryLines b, '\n' ∉ l := by
  intro l hl
  obtain ⟨e, he, rfl⟩ := List.mem_map.mp hl
  exact feed_notMem_entryLine (h.keys e he).1.line (h.keys e he).2.line

theorem feed_notMem_ifaceLines (hname : NameText b.name) (h : ReadBlock b) : ∀ l ∈ ifaceLines b, '\n' ∉ l := by
  rw [ifaceLines, List.forall_mem_cons, List.forall_mem_append, List.forall_mem_singleton]
  exact ⟨feed_notMem_header (feed_notMem_header hname.line), feed_notMem_entryLines h, List.not_mem_nil⟩

theorem feed_notMem_of_parts (hret : ∀ l ∈ entryLines P.reticulum, '\n' ∉ l) (hlog : ∀ l ∈ entryLines P.logging, '\n' ∉ l)
    (hifaces : ∀ b ∈ P.interfaces, ∀ l ∈ ifaceLines b, '\n' ∉ l) (hextras : ∀ l ∈ P.extraSections, '\n' ∉ l) :
    ∀ l ∈ configLines P, '\n' ∉ l := by
  simp only [configLines, List.forall_mem_append]
  refine ⟨⟨⟨⟨⟨⟨by decide, hret⟩, by decide⟩, hlog⟩, by decide⟩, ?_⟩, hextras⟩
  intro l hl
  obtain ⟨b, hb, hl⟩ := List.mem_flatMap.mp hl
  exact hifaces b hb l hl

theorem feed_notMem_configLines (h : ReadConfig P) : ∀ l ∈ configLines P, '\n' ∉ l :=
  feed_notMem_of_parts (feed_notMem_entryLines h.reticulum.2) (feed_notMem_entryLines h.logging.2)
    (fun b hb => feed_notMem_ifaceLines (h.interfaces b hb).1 (h.interfaces b hb).2) h.extraSections

theorem exists_readAs {es es' : List (Text × Text)} {e : Text × Text} (h : List.Forall₂ ReadAs es es') (he : e ∈ es) :
    ∃ e' ∈ es', ReadAs e e' := by
  induction h with
  | nil => exact absurd he List.not_mem_nil
  | cons hread _ ih =>
      obtain rfl | he := List.mem_cons.mp he
      · exact ⟨_, List.mem_cons_self, hread⟩
      · obtain ⟨e', he', hread'⟩ := ih he
        exact ⟨e', List.mem_cons_of_mem _ he', hread'⟩

theorem key_of_readAs {e e' : Text × Text} (hk : KeyText e.1) (h : ReadAs e e') : e'.1 = e.1 := by
  rw [ReadAs, readLine_of_strip hk ((congrArg _ (entryLine_eq e.1 e.2)).trans (stripComment_key hk e.2))] at h
  split_ifs at h
  · exact absurd h readSection_ne_entry
  · exact (Line.entry.inj (Except.ok.inj h)).1.symm

-- With the same values under the same keys every key line reads as it is written.
theorem readsEntries_of_get (hb : ReadBlock b) (h : List.Forall₂ ReadAs b.values.entries b'.values.entries)
    (hget : ∀ k, b'.get k = b.get k) : ReadsEntries b := by
  rintro e he
  obtain ⟨e', he', hread⟩ := exists_readAs h he
  have hkey := key_of_readAs (hb.keys e he).1 hread
  have hnew : b'.get e'.1 = some e'.2 := (b'.values.mem_entries_iff e'.1 e'.2).mp he'
  have hold : b.get e.1 = some e.2 := (b.values.mem_entries_iff e.1 e.2).mp he
  rw [hkey, hget e.1, hold] at hnew
  rw [hread, hkey, Option.some.inj hnew]

theorem length_entryLines (b : IniBlock) : (entryLines b).length = b.size := List.length_map _

theorem length_blockLines (blocks : List IniBlock) :
    (blocks.flatMap blockLines).length = blocks.length + keysIn blocks := by
  induction blocks with
  | nil => rfl
  | cons b rest ih =>
      rw [List.flatMap_cons, List.length_append, ih, blockLines, List.length_cons, length_entryLines, keysIn, keysIn,
        List.map_cons, List.sum_cons, List.length_cons]
      omega

-- A block of the two plain sections is read in full, or the count of its keys falls short.
theorem block_run {entries : List (Text × Text)} {a : Parsing} (htarget : target σ = some b)
    (htop : σ.currentTop ≠ some INTERFACES) (hempty : b.values.entries = [])
    (h : Runs parseLine σ (entries.map fun e => entryLine e.1 e.2) a)
    (hfull : count a.toParsedConfig = count σ.toParsedConfig + entries.length) :
    (∃ b', a = setTarget σ b' ∧ List.Forall₂ ReadAs entries b'.values.entries) ∨
      ∃ b', b'.size < entries.length ∧ a.reticulum = (setTarget σ b').reticulum ∧
        a.logging = (setTarget σ b').logging := by
  have hsize : b.size = 0 := by simp [IniBlock.size, OrderedMap.size, hempty]
  rw [← List.append_nil (entries.map _)] at h
  obtain ⟨es, b', hreads, _, hentries, hruns, _⟩ | ⟨b', m, post, hlt, hstray, hruns, hfull⟩ :=
    entries_run htarget h (by simpa using hfull)
  · rw [hempty, List.nil_append] at hentries
    exact .inl ⟨b', (runs_nil.mp hruns).symm, hentries ▸ hreads⟩
  · obtain ⟨n, hres, rfl⟩ | ⟨n, hiface, rfl⟩ := hstray
    · obtain ⟨hret, hlog, _⟩ := foreign_run ⟨n, rfl, hres⟩ hruns hfull
      exact .inr ⟨b', by omega, hret, hlog⟩
    · rw [setTarget_currentTop] at hiface
      exact absurd hiface htop

theorem readsBlocks_of_same {blocks blocks' : List IniBlock}
    (hblocks : ∀ b ∈ blocks, NameText b.name ∧ ReadBlock b) (h : List.Forall₂ BlockReadAs blocks blocks')
    (hsame : List.Forall₂ SameBlock blocks' blocks) :
    ∀ b ∈ blocks, readLine (header (header b.name)) = .ok (.section' 2 b.name) ∧ ReadsEntries b := by
  induction h with
  | nil => exact fun _ hb => absurd hb List.not_mem_nil
  | cons hb _ ih =>
      obtain ⟨hplain, _, hreads⟩ := hb
      rw [List.forall_mem_cons] at hblocks ⊢
      obtain ⟨⟨hname, hblock⟩, hrest⟩ := hblocks
      rw [List.forall₂_cons] at hsame
      refine ⟨⟨?_, readsEntries_of_get hblock hreads hsame.1.2⟩, ih hrest hsame.2⟩
      rw [header_header_eq_wrap]
      exact ((readLine_wrap_iff (by decide) hname).mpr ⟨hplain, rfl⟩).1

-- A rewrite that changes nothing reads every line as it was written.
theorem reads_of_same (hP : ReadConfig P) (h : Runs parseLine {} (configLines P) F)
    (hsame : SameConfig F.toParsedConfig P) : Reads P := by
  obtain ⟨a, c, ha, hc, hF⟩ := runs_configLines.mp h
  have hretSize := size_eq_of_get hsame.reticulum
  have hlogSize := size_eq_of_get hsame.logging
  have hstart : count (openTop {} RETICULUM).toParsedConfig = 0 := by decide
  have hopenLog : count (openTop a LOGGING).toParsedConfig = count a.toParsedConfig := count_openTop a LOGGING
  have hopenIface : count (openTop c INTERFACES).toParsedConfig = count c.toParsedConfig := count_openTop c INTERFACES
  have hcount := hsame.count_eq
  -- The whole pass adds as much as it has lines that may add something.
  have hle1 := count_le (c := fun m : Parsing => count m.toParsedConfig) count_parseLine_le ha
  have hle2 := count_le (c := fun m : Parsing => count m.toParsedConfig) count_parseLine_le hc
  have hle3 := count_le (c := fun m : Parsing => count m.toParsedConfig) count_parseLine_le hF
  rw [length_entryLines] at hle1 hle2
  rw [List.length_append, length_blockLines] at hle3
  have hP' : count P = P.reticulum.size + P.logging.size + (P.interfaces.length + keysIn P.interfaces) +
      P.extraSections.length := rfl
  have hfull3 : count F.toParsedConfig = count (openTop c INTERFACES).toParsedConfig +
      (P.interfaces.flatMap blockLines ++ P.extraSections).length := by
    rw [List.length_append, length_blockLines]
    omega
  obtain ⟨_, hretF, hlogF, _⟩ := stays_run (t := INTERFACES) (.inl rfl) hF hfull3
  obtain ⟨_, hretC, _, hifaceC⟩ := stays_run (t := LOGGING) (σ := openTop a LOGGING) (.inl rfl) hc (by
    rw [length_entryLines]
    omega)
  have hret : F.reticulum = a.reticulum := (hretF interfaces_ne_reticulum).trans (hretC logging_ne_reticulum)
  have hlog : F.logging = c.logging := hlogF interfaces_ne_logging
  obtain ⟨b1, rfl, hreads1⟩ | ⟨b1, hlt, hshort, _⟩ := block_run (σ := openTop {} RETICULUM) (b := { name := RETICULUM })
    (by rfl) (by decide) rfl ha (by
      have hlen : P.reticulum.values.entries.length = P.reticulum.size := rfl
      omega)
  · obtain ⟨b2, rfl, hreads2⟩ | ⟨b2, hlt, _, hshort⟩ := block_run
      (σ := openTop (setTarget (openTop {} RETICULUM) b1) LOGGING) (b := { name := LOGGING })
      (by rfl) (by simp [openTop, interfaces_ne_logging.symm]) rfl hc (by
        have hlen : P.logging.values.entries.length = P.logging.size := rfl
        omega)
    · have hret' : F.reticulum = b1 := by rw [hret, setTarget_of_reticulum (by rfl)]
      have hlog' : F.logging = b2 := by rw [hlog, setTarget_of_logging (by rfl)]
      have hnone : (openTop (setTarget (openTop (setTarget (openTop {} RETICULUM) b1) LOGGING) b2)
          INTERFACES).interfaces = [] :=
        List.eq_nil_of_length_eq_zero (by simp [openTop])
      have hifaceLen := hsame.interfaces.length_eq
      obtain ⟨blocks', m, hblocks, hmifaces, hmtop, hmextras, hextras, _⟩ := blocks_run
        (fun b hb => (hP.interfaces b hb).1) rfl hF hfull3
        (by rw [hifaceLen]; simp [openTop]) (by rw [hsame.extraSections]; simp [openTop, reserved])
      obtain ⟨hFifaces, hreadsExtras⟩ := @extras_run _ _ _ none (by simp [hmtop]) (by
        rintro n hn hres
        obtain rfl := Option.some.inj (hmtop.symm.trans hn)
        exact absurd hres (by decide)) hextras (by
          rw [hmextras, hsame.extraSections]
          simp [openTop, reserved])
      have hblocksF : F.interfaces = blocks' := by
        rw [hFifaces, hmifaces, hnone, List.nil_append]
      exact
        { reticulum := readsEntries_of_get hP.reticulum.2 hreads1 fun k => by
            rw [← hsame.reticulum k, hret']
          logging := readsEntries_of_get hP.logging.2 hreads2 fun k => by
            rw [← hsame.logging k, hlog']
          interfaces := readsBlocks_of_same hP.interfaces hblocks (hblocksF ▸ hsame.interfaces)
          extraSections := hreadsExtras }
    · have hlen : P.logging.values.entries.length = P.logging.size := rfl
      rw [setTarget_of_logging (by rfl)] at hshort
      have heq : F.logging.size = b2.size := by rw [hlog, hshort]
      omega
  · have hlen : P.reticulum.values.entries.length = P.reticulum.size := rfl
    rw [setTarget_of_reticulum (by rfl)] at hshort
    have heq : F.reticulum.size = b1.size := by rw [hret, hshort]
    omega

-- A config that can be written: no value loses a comment or a blank, no name or key is
-- taken for a header or a tag, and no key stands before the first section.
def PlainBlock (b : IniBlock) : Prop := ∀ e ∈ b.values.entries, PlainEntry e.1 e.2

def PlainExtras : Option Text → List Text → Prop
  | _, [] => True
  | top, l :: ls =>
      (∃ n, NameText n ∧ reserved n = false ∧ PlainName n ∧ l = header n ∧ PlainExtras (some n) ls) ∨
        ∃ n k v, top = some n ∧ KeyText k ∧ ValueText v ∧ PlainExtra k v ∧ l = extraLine k v n ∧ PlainExtras top ls

structure PlainConfig (P : ParsedConfig) : Prop where
  reticulum : PlainBlock P.reticulum
  logging : PlainBlock P.logging
  interfaces : ∀ b ∈ P.interfaces, PlainName b.name ∧ PlainBlock b
  extraSections : PlainExtras none P.extraSections

theorem readsEntries_iff (h : ReadBlock b) : ReadsEntries b ↔ PlainBlock b :=
  forall₂_congr fun e he => readLine_entryLine_iff (h.keys e he).1 (h.keys e he).2

theorem readLine_header_iff (hname : NameText name) :
    readLine (header name) = .ok (.section' 1 name) ↔ PlainName name := by
  rw [header_eq_wrap]
  constructor
  · intro h
    refine ((readLine_wrap_iff (by decide) hname).mp ⟨h, ?_⟩).1
    rintro e n heq
    exact (Line.section'.inj heq).1 ▸ le_refl _
  · exact fun h => ((readLine_wrap_iff (by decide) hname).mpr ⟨h, rfl⟩).1

theorem readLine_header_header_iff (hname : NameText name) :
    readLine (header (header name)) = .ok (.section' 2 name) ↔ PlainName name := by
  rw [header_header_eq_wrap]
  constructor
  · intro h
    refine ((readLine_wrap_iff (by decide) hname).mp ⟨h, ?_⟩).1
    rintro e n heq
    exact (Line.section'.inj heq).1 ▸ le_refl _
  · exact fun h => ((readLine_wrap_iff (by decide) hname).mpr ⟨h, rfl⟩).1

theorem readsExtras_iff {top : Option Text} (h : ∀ l ∈ ls, '\n' ∉ l) :
    ReadsExtras top ls ↔ PlainExtras top ls := by
  induction ls generalizing top with
  | nil => exact Iff.rfl
  | cons l ls ih =>
      rw [List.forall_mem_cons] at h
      rw [ReadsExtras, PlainExtras]
      constructor
      · rintro (⟨n, hres, hl, hread, hrest⟩ | ⟨n, k, v, hn, hl, hread, hrest⟩)
        · have hname := nameText_of_readLine hread h.1
          exact .inl ⟨n, hname, hres, (readLine_header_iff hname).mp (hl ▸ hread), hl, (ih h.2).mp hrest⟩
        · obtain ⟨hk, hv⟩ := entryText_of_readLine hread h.1
          exact .inr ⟨n, k, v, hn, hk, hv, (readLine_extraLine_iff hk hv).mp (hl ▸ hread), hl, (ih h.2).mp hrest⟩
      · rintro (⟨n, hname, hres, hplain, hl, hrest⟩ | ⟨n, k, v, hn, hk, hv, hplain, hl, hrest⟩)
        · exact .inl ⟨n, hres, hl, hl ▸ (readLine_header_iff hname).mpr hplain, (ih h.2).mpr hrest⟩
        · exact .inr ⟨n, k, v, hn, hl, hl ▸ (readLine_extraLine_iff hk hv).mpr hplain, (ih h.2).mpr hrest⟩

theorem reads_iff (h : ReadConfig P) : Reads P ↔ PlainConfig P := by
  constructor
  · rintro ⟨hret, hlog, hifaces, hextras⟩
    refine ⟨(readsEntries_iff h.reticulum.2).mp hret, (readsEntries_iff h.logging.2).mp hlog, fun b hb => ?_,
      (readsExtras_iff h.extraSections).mp hextras⟩
    obtain ⟨hname, hblock⟩ := h.interfaces b hb
    exact ⟨(readLine_header_header_iff hname).mp (hifaces b hb).1, (readsEntries_iff hblock).mp (hifaces b hb).2⟩
  · rintro ⟨hret, hlog, hifaces, hextras⟩
    refine ⟨(readsEntries_iff h.reticulum.2).mpr hret, (readsEntries_iff h.logging.2).mpr hlog, fun b hb => ?_,
      (readsExtras_iff h.extraSections).mpr hextras⟩
    obtain ⟨hname, hblock⟩ := h.interfaces b hb
    exact ⟨(readLine_header_header_iff hname).mpr (hifaces b hb).1, (readsEntries_iff hblock).mpr (hifaces b hb).2⟩

-- A plain config comes back as it is, keys in their order and all.
theorem parse_serialize (h : ReadConfig P) (hplain : PlainConfig P) : parseConfig (serializeConfig P) = .ok P :=
  (parse_serialize_iff (feed_notMem_configLines h)).mpr
    (runs_of_reads h.reticulum.1 h.logging.1 ((reads_iff h).mpr hplain))

theorem rewrite_keeps_iff_plain (s : Text) (P : ParsedConfig) (h : parseConfig s = .ok P) :
    (∃ Q, parseConfig (serializeConfig P) = .ok Q ∧ SameConfig Q P) ↔ PlainConfig P := by
  have hP := readConfig_of_parse h
  constructor
  · rintro ⟨Q, hQ, hsame⟩
    obtain ⟨F, hruns, rfl⟩ := (parse_serialize_iff (feed_notMem_configLines hP)).mp hQ
    exact (reads_iff hP).mp (reads_of_same hP hruns hsame)
  · exact fun hplain => ⟨P, parse_serialize hP hplain, SameConfig.refl P⟩

def blockOf (name : String) (values : List (String × String)) : IniBlock :=
  { name := name.toList, values := (∅ : OrderedMap Text Text).setAll (values.map fun e => (e.1.toList, e.2.toList)) }

-- The file of the repository's own test.
theorem future_section_is_plain : PlainConfig
    { reticulum := blockOf "reticulum" [("share_instance", "Yes")]
      logging := blockOf "logging" [("loglevel", "4")]
      interfaces := [blockOf "Auto Peer" [("type", "AutoInterface"), ("enabled", "Yes")]]
      extraSections := ["[future_section]".toList, "future_key = future_value  # section=future_section".toList] } :=
  (rewrite_keeps_iff_plain ("[reticulum]\nshare_instance = Yes\n\n[logging]\nloglevel = 4\n\n[interfaces]\n\n" ++
    "[[Auto Peer]]\ntype = AutoInterface\nenabled = Yes\n\n[future_section]\nfuture_key = future_value\n").toList _
    (by decide +kernel)).mp ⟨_, by decide +kernel, SameConfig.refl _⟩

-- A number sign in quotes is part of the value, until the value is written without them.
theorem quoted_value_is_cut : ¬ ∀ s P, parseConfig s = .ok P →
    ∃ Q, parseConfig (serializeConfig P) = .ok Q ∧ SameConfig Q P := by
  intro h
  obtain ⟨Q, hQ, hsame⟩ := h "[interfaces]\n[[Home]]\ntype = AutoInterface\npassphrase = \"blue #42\"\n".toList
    { interfaces := [blockOf "Home" [("type", "AutoInterface"), ("passphrase", "blue #42")]] } (by decide)
  have hcut : parseConfig (serializeConfig
      { interfaces := [blockOf "Home" [("type", "AutoInterface"), ("passphrase", "blue #42")]] }) =
      .ok { interfaces := [blockOf "Home" [("type", "AutoInterface"), ("passphrase", "blue")]] } := by decide
  obtain rfl := Except.ok.inj (hcut.symm.trans hQ)
  have hvalue := (List.forall₂_cons.mp hsame.interfaces).1.2 "passphrase".toList
  exact absurd hvalue (by decide)

end MeshClient.Reticulum
