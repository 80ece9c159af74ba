import MeshClient.Reticulum.ConfigPlaces

namespace MeshClient.Reticulum

open TextLines Tally

variable {σ σ' F : Parsing} {b b' : IniBlock} {raw k v name : Text} {P Q : ParsedConfig} {ls : List Text}

theorem parseLines_eq_ok_iff {n : Nat} : parseLines σ n ls = .ok σ' ↔ Runs parseLine σ ls σ' := by
  induction ls generalizing σ n with
  | nil =>
      rw [runs_nil, parseLines]
      exact ⟨fun h => Except.ok.inj h, congrArg _⟩
  | cons raw rest ih =>
      rw [runs_cons, parseLines]
      cases parseLine σ raw with
      | error e => simp
      | ok m => simpa using ih

theorem parseConfig_eq_ok_iff {input : Text} :
    parseConfig input = .ok P ↔ ∃ σ, Runs parseLine {} (lines input) σ ∧ σ.toParsedConfig = P := by
  rw [parseConfig]
  cases hlines : parseLines {} 0 (lines input) with
  | error e =>
      simp only [Except.map, reduceCtorEq, false_iff, not_exists, not_and]
      rintro σ hruns
      rw [← parseLines_eq_ok_iff (n := 0), hlines] at hruns
      exact absurd hruns (by simp)
  | ok m =>
      simp only [Except.map, Except.ok.injEq, ← parseLines_eq_ok_iff (n := 0), hlines]
      constructor
      · intro h
        exact ⟨m, rfl, h⟩
      · rintro ⟨_, rfl, h⟩
        exact h

theorem runs_map_dropReturn : Runs parseLine σ (ls.map dropReturn) σ' ↔ Runs parseLine σ ls σ' := by
  induction ls generalizing σ with
  | nil => exact Iff.rfl
  | cons raw rest ih =>
      have hraw : parseLine σ (dropReturn raw) = parseLine σ raw := by
        rw [parseLine, readLine_dropReturn]
        rfl
      simp only [List.map_cons, runs_cons, hraw, ih]

theorem parse_serialize_iff (hfeed : ∀ l ∈ configLines P, '\n' ∉ l) :
    parseConfig (serializeConfig P) = .ok Q ↔ ∃ σ, Runs parseLine {} (configLines P) σ ∧ σ.toParsedConfig = Q := by
  rw [parseConfig_eq_ok_iff, serializeConfig, lines_unlines hfeed]
  simp only [runs_map_dropReturn]

def blockLines (b : IniBlock) : List Text := header (header b.name) :: entryLines b

theorem runs_blank : Runs parseLine σ ([] :: ls) σ' ↔ Runs parseLine σ ls σ' := by
  rw [runs_cons, parseLine_blank (by rfl)]
  simp

theorem runs_ifaceLines (blocks : List IniBlock) :
    Runs parseLine σ (blocks.flatMap ifaceLines ++ ls) σ' ↔
      Runs parseLine σ (blocks.flatMap blockLines ++ ls) σ' := by
  induction blocks generalizing σ with
  | nil => exact Iff.rfl
  | cons b rest ih =>
      have hlines : (b :: rest).flatMap ifaceLines ++ ls = blockLines b ++ [] :: (rest.flatMap ifaceLines ++ ls) := by
        simp [ifaceLines, blockLines]
      rw [hlines, runs_append, List.flatMap_cons, List.append_assoc, runs_append]
      simp only [runs_blank, ih]

-- The three fixed headers open their sections, the blank lines and the comment do nothing.
theorem runs_configLines : Runs parseLine {} (configLines P) F ↔
    ∃ a c, Runs parseLine (openTop {} RETICULUM) (entryLines P.reticulum) a ∧
      Runs parseLine (openTop a LOGGING) (entryLines P.logging) c ∧
      Runs parseLine (openTop c INTERFACES) (P.interfaces.flatMap blockLines ++ P.extraSections) F := by
  have hcomment : readLine "# mesh-client-reticulum sidecar config".toList = .ok .blank := by decide
  have hheader : ∀ n ∈ [RETICULUM, LOGGING, INTERFACES], ∀ (σ : Parsing) (ls : List Text),
      Runs parseLine σ (header n :: ls) F ↔ Runs parseLine (openTop σ n) ls F := by
    intro n hn σ ls
    have hread : ∀ n ∈ [RETICULUM, LOGGING, INTERFACES], readLine (header n) = .ok (.section' 1 n) := by decide
    exact runs_cons_of_ok (parseLine_top (hread n hn))
  have hentries : ∀ (b : IniBlock) (σ : Parsing) (ls : List Text), Runs parseLine σ (entryLines b ++ ls) F ↔
      ∃ m, Runs parseLine σ (entryLines b) m ∧ Runs parseLine m ls F := fun b σ ls => runs_append
  have hlines : configLines P = "# mesh-client-reticulum sidecar config".toList :: [] :: header RETICULUM ::
      (entryLines P.reticulum ++ [] :: header LOGGING :: (entryLines P.logging ++ [] :: header INTERFACES :: [] ::
        (P.interfaces.flatMap ifaceLines ++ P.extraSections))) := by
    simp [configLines]
  rw [hlines, runs_cons_of_ok (parseLine_blank hcomment)]
  simp only [runs_blank, hheader RETICULUM (by simp), hheader LOGGING (by simp), hheader INTERFACES (by simp), hentries,
    runs_ifaceLines]
  constructor
  · rintro ⟨a, ha, c, hc, hF⟩
    exact ⟨a, c, ha, hc, hF⟩
  · rintro ⟨a, c, ha, hc, hF⟩
    exact ⟨a, ha, c, hc, hF⟩

-- Every line that is written reads as what it stands for.
def ReadsEntries (b : IniBlock) : Prop :=
  ∀ e ∈ b.values.entries, readLine (entryLine e.1 e.2) = .ok (.entry e.1 e.2)

def ReadsExtras : Option Text → List Text → Prop
  | _, [] => True
  | top, l :: ls =>
      (∃ n, reserved n = false ∧ l = header n ∧ readLine l = .ok (.section' 1 n) ∧ ReadsExtras (some n) ls) ∨
        ∃ n k v, top = some n ∧ l = extraLine k v n ∧ readLine l = .ok (.entry k v) ∧ ReadsExtras top ls

structure Reads (P : ParsedConfig) : Prop where
  reticulum : ReadsEntries P.reticulum
  logging : ReadsEntries P.logging
  interfaces : ∀ b ∈ P.interfaces, readLine (header (header b.name)) = .ok (.section' 2 b.name) ∧ ReadsEntries b
  extraSections : ReadsExtras none P.extraSections

theorem IniBlock.eq_of_entries (hname : b.name = b'.name) (h : b.values.entries = b'.values.entries) : b = b' := by
  obtain ⟨name, entries, hn⟩ := b
  obtain ⟨name', entries', hn'⟩ := b'
  simp only at hname h
  subst hname h
  rfl

theorem placeEntry_of_target (h : target σ = some b) (k v : Text) :
    placeEntry σ k v = setTarget σ (b.set k v) := by
  have htop : ∀ n, σ.currentTop = some n → reserved n = true := by
    intro n hn
    obtain ⟨hcase, _⟩ | ⟨hcase, _⟩ | ⟨_, hcase, _⟩ := target_cases h
    · exact Option.some.inj (hn.symm.trans hcase) ▸ by decide
    · exact Option.some.inj (hn.symm.trans hcase) ▸ by decide
    · exact Option.some.inj (hn.symm.trans hcase) ▸ by decide
  obtain ⟨b', hb', hplace⟩ | ⟨_, hnone, _⟩ | ⟨hnone, _⟩ | ⟨n, hn, hres, _⟩ := placeEntry_cases σ k v
  · obtain rfl := Option.some.inj (h.symm.trans hb')
    exact hplace
  · exact absurd (h.symm.trans hnone) (by simp)
  · have hnone' : target σ = none := by simp [target, hnone]
    exact absurd (h.symm.trans hnone') (by simp)
  · exact absurd ((htop n hn).symm.trans hres) (by simp)

theorem IniBlock.entries_set (hk : k ∉ b.values.keys) :
    (b.set k v).values.entries = b.values.entries ++ [(k, v)] :=
  b.values.entries_set_of_notMem v hk

-- Entries under new keys go into the block in their order, each with the value its line is read with.
theorem runs_entries {entries : List (Text × Text)} {g : Text × Text → Text} (htarget : target σ = some b)
    (hread : ∀ e ∈ entries, readLine (entryLine e.1 e.2) = .ok (.entry e.1 (g e)))
    (hnodup : ((b.values.entries ++ entries).map Prod.fst).Nodup) :
    ∃ b', b'.name = b.name ∧ b'.values.entries = b.values.entries ++ entries.map (fun e => (e.1, g e)) ∧
      Runs parseLine σ (entries.map fun e => entryLine e.1 e.2) (setTarget σ b') := by
  induction entries generalizing σ b with
  | nil =>
      refine ⟨b, rfl, (List.append_nil _).symm, ?_⟩
      rw [setTarget_self htarget]
      exact runs_nil.mpr rfl
  | cons e rest ih =>
      have hk : e.1 ∉ b.values.keys := by
        rw [List.map_append, List.map_cons, List.nodup_append] at hnodup
        exact fun hmem => hnodup.2.2 e.1 hmem e.1 List.mem_cons_self rfl
      have hset := IniBlock.entries_set (v := g e) hk
      obtain ⟨b', hname, hentries, hruns⟩ := ih (target_setTarget htarget (b.set e.1 (g e)))
        (fun e' he' => hread e' (List.mem_cons_of_mem _ he')) (by
          rw [hset, List.append_assoc]
          simpa using hnodup)
      rw [hset, List.append_assoc] at hentries
      rw [setTarget_setTarget htarget] at hruns
      refine ⟨b', hname, hentries, ?_⟩
      rw [List.map_cons, runs_cons]
      exact ⟨_, parseLine_entry (hread e List.mem_cons_self), placeEntry_of_target htarget e.1 (g e) ▸ hruns⟩

theorem runs_block (htarget : target σ = some b) (hempty : b.values.entries = []) (hname : b.name = b'.name)
    (hread : ReadsEntries b') : Runs parseLine σ (entryLines b') (setTarget σ b') := by
  obtain ⟨c, hcname, hentries, hruns⟩ := runs_entries (g := Prod.snd) htarget hread (by
    rw [hempty, List.nil_append]
    exact b'.values.nodup)
  rw [hempty, List.nil_append, List.map_id'' fun _ => rfl] at hentries
  rwa [IniBlock.eq_of_entries (hcname.trans hname) hentries] at hruns

theorem runs_blocks {blocks : List IniBlock} (htop : σ.currentTop = some INTERFACES)
    (hread : ∀ b ∈ blocks, readLine (header (header b.name)) = .ok (.section' 2 b.name) ∧ ReadsEntries b) :
    ∃ idx, Runs parseLine σ (blocks.flatMap blockLines) { σ with
      interfaces := σ.interfaces ++ blocks
      currentIface := idx } := by
  induction blocks generalizing σ with
  | nil => exact ⟨σ.currentIface, by simp⟩
  | cons b rest ih =>
      obtain ⟨hheader, hentries⟩ := hread b List.mem_cons_self
      have htop' : (pushIface σ b.name).currentTop = some INTERFACES := htop
      have htarget : target (pushIface σ b.name) = some { name := b.name } := by
        rw [target_of_iface htop' rfl]
        simp [pushIface]
      have hblock : Runs parseLine (pushIface σ b.name) (entryLines b) (setTarget (pushIface σ b.name) b) := runs_block htarget rfl rfl hentries
      have hset : setTarget (pushIface σ b.name) b = { σ with
          interfaces := σ.interfaces ++ [b]
          currentIface := some σ.interfaces.length } := by
        rw [setTarget_of_iface htop' rfl]
        simp [pushIface]
      rw [hset] at hblock
      obtain ⟨idx, hrest⟩ := ih (σ := { σ with
          interfaces := σ.interfaces ++ [b]
          currentIface := some σ.interfaces.length }) htop fun b' hb' => hread b' (List.mem_cons_of_mem _ hb')
      refine ⟨idx, ?_⟩
      rw [List.flatMap_cons, runs_append]
      refine ⟨_, runs_cons.mpr ⟨_, parseLine_iface hheader htop, hblock⟩, ?_⟩
      simpa using hrest

theorem runs_extras {top : Option Text} (htop : ∀ n, top = some n → σ.currentTop = some n ∧ reserved n = false)
    (hread : ReadsExtras top ls) : ∃ σ', Runs parseLine σ ls σ' ∧
      σ'.toParsedConfig = { σ.toParsedConfig with extraSections := σ.extraSections ++ ls } := by
  induction ls generalizing σ top with
  | nil => exact ⟨σ, runs_nil.mpr rfl, by simp⟩
  | cons l ls ih =>
      rw [ReadsExtras] at hread
      obtain ⟨n, hres, hl, hline, hrest⟩ | ⟨n, k, v, hn, hl, hline, hrest⟩ := hread
      · obtain ⟨σ', hruns, hst'⟩ := ih (σ := openTop σ n) (fun m hm => Option.some.inj hm ▸ ⟨rfl, hres⟩) hrest
        refine ⟨σ', runs_cons.mpr ⟨_, parseLine_top hline, hruns⟩, ?_⟩
        rw [hst']
        simp [openTop, hres, hl]
      · have hplace : placeEntry σ k v = { σ with
            extraSections := σ.extraSections ++ [l] } := by
          obtain ⟨hcur, hres⟩ := htop n hn
          obtain ⟨h1, h2, h3⟩ := reserved_eq_false_iff.mp hres
          simp [placeEntry, hcur, h1, h2, h3, hl]
        obtain ⟨σ', hruns, hst'⟩ := ih (σ := { σ with
          extraSections := σ.extraSections ++ [l] }) htop hrest
        refine ⟨σ', runs_cons.mpr ⟨_, hplace ▸ parseLine_entry hline, hruns⟩, ?_⟩
        rw [hst']
        simp

theorem runs_of_reads (hret : P.reticulum.name = RETICULUM) (hlog : P.logging.name = LOGGING) (h : Reads P) :
    ∃ σ, Runs parseLine {} (configLines P) σ ∧ σ.toParsedConfig = P := by
  have ha := runs_block (σ := openTop {} RETICULUM) (b := { name := RETICULUM }) (by rfl) rfl hret.symm h.reticulum
  rw [setTarget_of_reticulum (by rfl)] at ha
  have hc := runs_block (σ := openTop { openTop {} RETICULUM with
    reticulum := P.reticulum } LOGGING) (b := { name := LOGGING }) (by rfl) rfl hlog.symm h.logging
  rw [setTarget_of_logging (by rfl)] at hc
  obtain ⟨idx, hblocks⟩ := runs_blocks (σ := openTop { openTop { openTop {} RETICULUM with
    reticulum := P.reticulum } LOGGING with
    logging := P.logging } INTERFACES) (by rfl) h.interfaces
  obtain ⟨σ, hextras, hst⟩ := runs_extras (σ := { openTop { openTop { openTop {} RETICULUM with
    reticulum := P.reticulum } LOGGING with
    logging := P.logging } INTERFACES with
    interfaces := [] ++ P.interfaces
    currentIface := idx }) (by simp) h.extraSections
  refine ⟨σ, runs_configLines.mpr ⟨_, _, ha, hc, runs_append.mpr ⟨_, hblocks, hextras⟩⟩, ?_⟩
  rw [hst]
  simp [openTop, reserved]

end MeshClient.Reticulum
