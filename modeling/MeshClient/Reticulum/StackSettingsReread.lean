import MeshClient.Reticulum.StackSettings

namespace MeshClient.Reticulum

open TextLines Tally Trim

variable {σ σ' F : Parsing} {b b' : IniBlock} {raw k v name : Text} {P P' Q : ParsedConfig} {ls : List Text}

-- What stands behind the equals sign of a line, before quotes are taken away.
def rawValue (raw : Text) : Text := ((trim (stripComment raw)).dropWhile (· ≠ '=')).drop 1

-- No value of the file has a number sign or a quote.
def PlainValues (content : Text) : Prop :=
  ∀ raw ∈ lines content, ∀ k v, readLine raw = .ok (.entry k v) → ∀ c ∈ rawValue raw, c ≠ '#' ∧ c ≠ '"'

structure PlainPair (k v : Text) : Prop where
  key : KeyText k
  value : ValueText v
  entry : PlainEntry k v
  sign : '#' ∉ v
  quote : '"' ∉ v

-- Trimming keeps an end that is no blank.
theorem head?_of_trim {p : Char → Bool} {xs ys : Text} {c : Char} (h : (Trim.trim p xs).head? = some c)
    (hneat : ∀ x ∈ (xs ++ ys).head?, p x = false) : (xs ++ ys).head? = some c := by
  obtain ⟨pre, post, heq, hpre, -⟩ := @exists_trim _ p xs
  have hne : Trim.trim p xs ≠ [] := by
    intro hnil
    simp [hnil] at h
  cases pre with
  | nil =>
      rw [heq, List.nil_append, List.append_assoc, List.head?_append_of_ne_nil _ hne]
      exact h
  | cons x pre =>
      have hx := hneat x (by rw [heq]; rfl)
      simp [hpre x List.mem_cons_self] at hx

theorem getLast?_of_trim {p : Char → Bool} {xs ys : Text} {c : Char} (h : (Trim.trim p ys).getLast? = some c)
    (hneat : ∀ x ∈ (xs ++ ys).getLast?, p x = false) : (xs ++ ys).getLast? = some c := by
  obtain ⟨pre, post, heq, -, hpost⟩ := @exists_trim _ p ys
  have hne : Trim.trim p ys ≠ [] := by
    intro hnil
    simp [hnil] at h
  rcases List.eq_nil_or_concat' post with rfl | ⟨post, x, rfl⟩
  · rw [heq, List.append_nil, ← List.append_assoc, List.getLast?_append_of_ne_nil _ hne]
    exact h
  · have hx := hneat x (by rw [heq, ← List.append_assoc, ← List.append_assoc, ← List.append_assoc, List.getLast?_concat]; rfl)
    simp [hpost x (by simp)] at hx

theorem plainPair_of_read (hraw : '\n' ∉ raw) (hread : readLine raw = .ok (.entry k v))
    (hplain : ∀ c ∈ rawValue raw, c ≠ '#' ∧ c ≠ '"') : PlainPair k v := by
  obtain ⟨hk, hv⟩ := entryText_of_readLine hread hraw
  unfold rawValue at hplain
  unfold readLine at hread
  generalize hline : trim (stripComment raw) = line at hplain hread
  have hneat : Neat isWhitespace line := hline ▸ neat_trim _
  simp only at hread
  split at hread
  · cases hread
  split at hread
  · exact absurd hread readSection_ne_entry
  rename_i hne hheader
  unfold readEntry at hread
  split at hread
  swap
  · cases hread
  rename_i heq
  simp only at hread
  split at hread
  · cases hread
  cases hread
  generalize hvalue : (line.dropWhile (· ≠ '=')).drop 1 = value at *
  have hquotes : trimQuotes (trim value) = trim value := by
    refine trim_of_neat ⟨fun c hc => ?_, fun c hc => ?_⟩
    · simpa [isQuote] using (hplain c (mem_of_mem_trim (List.mem_of_mem_head? hc))).2
    · simpa [isQuote] using (hplain c (mem_of_mem_trim (List.mem_of_mem_getLast? hc))).2
  rw [hquotes] at hv ⊢
  have hsign : '#' ∉ trim value := fun hmem => (hplain _ (mem_of_mem_trim hmem)).1 rfl
  refine ⟨hk, hv, ⟨neat_trim _, ?_, ?_⟩, hsign, fun hmem => (hplain _ (mem_of_mem_trim hmem)).2 rfl⟩
  · rw [entryLine_eq, stripComment_key hk, stripCommentFrom_of_notMem hsign]
  · rintro ⟨hopen, hclose⟩
    have hcut : line = (line.takeWhile (· ≠ '=') ++ ['=']) ++ value := by
      have hdrop : line.dropWhile (· ≠ '=') = '=' :: value := by
        cases hrest : line.dropWhile (· ≠ '=') with
        | nil =>
            have hall := List.dropWhile_eq_nil_iff.mp hrest '=' heq
            simp at hall
        | cons c rest =>
            have hc := List.head?_dropWhile_not (· ≠ '=') line
            rw [hrest] at hc hvalue
            have hceq : c = '=' := by simpa using hc
            rw [hceq, ← hvalue]
            rfl
      rw [List.append_assoc, List.singleton_append, ← hdrop, List.takeWhile_append_dropWhile]
    refine hheader ⟨?_, ?_⟩
    · have hhead := @head?_of_trim isWhitespace (line.takeWhile (· ≠ '=')) (line.dropWhile (· ≠ '=')) '[' hopen
      rw [List.takeWhile_append_dropWhile] at hhead
      exact hhead hneat.head
    · have hlast := @getLast?_of_trim isWhitespace (line.takeWhile (· ≠ '=') ++ ['=']) value ']' hclose
      rw [← hcut] at hlast
      exact hlast hneat.last

-- The keys before the first section, which belong to none.
def leadingEntries : List Text → List (Text × Text)
  | [] => []
  | raw :: rest =>
      match readLine raw with
      | .ok (.entry k v) => (k, v) :: leadingEntries rest
      | .ok .blank => leadingEntries rest
      | _ => []

-- The name of the first section that is none of the three.
def firstUnknown : List Text → Option Text
  | [] => none
  | raw :: rest =>
      match readLine raw with
      | .ok (.section' 1 n) => if reserved n then firstUnknown rest else some n
      | _ => firstUnknown rest

-- The lines kept of the unknown sections, and those from the first of them on.
def TailForm : Text → List Text → Prop
  | _, [] => True
  | top, l :: ls =>
      (∃ n, NameText n ∧ reserved n = false ∧ l = header n ∧ TailForm n ls) ∨
        ∃ k v, PlainPair k v ∧ l = extraLine k v top ∧ TailForm top ls

def StartForm (first : Option Text) (ls : List Text) : Prop :=
  match first with
  | none => ls = []
  | some n => NameText n ∧ reserved n = false ∧ ∃ rest, ls = header n :: rest ∧ TailForm n rest

theorem StartForm.tailForm {first : Option Text} (h : StartForm first ls) (top : Text) : TailForm top ls := by
  cases first with
  | none =>
      rw [show ls = [] from h]
      trivial
  | some n =>
      obtain ⟨hname, hres, rest, rfl, hrest⟩ := h
      exact .inl ⟨n, hname, hres, rfl, hrest⟩

def PlainLine (raw : Text) : Prop :=
  '\n' ∉ raw ∧ ∀ k v, readLine raw = .ok (.entry k v) → ∀ c ∈ rawValue raw, c ≠ '#' ∧ c ≠ '"'

theorem tail_of_runs {top : Text} (hlines : ∀ raw ∈ ls, PlainLine raw) (htop : σ.currentTop = some top)
    (h : Runs parseLine σ ls F) : ∃ added, F.extraSections = σ.extraSections ++ added ∧
      (reserved top = true → StartForm (firstUnknown ls) added) ∧ (reserved top = false → TailForm top added) := by
  induction ls generalizing σ top with
  | nil =>
      rw [runs_nil] at h
      exact ⟨[], by rw [← h, List.append_nil], fun _ => rfl, fun _ => trivial⟩
  | cons raw rest ih =>
      obtain ⟨m, hstep, hrest⟩ := runs_cons.mp h
      obtain ⟨hraw, hplain⟩ := hlines raw List.mem_cons_self
      have hlater := fun l hl => hlines l (List.mem_cons_of_mem raw hl)
      obtain ⟨hread, rfl⟩ | ⟨n, hread, rfl⟩ | ⟨n, hread, _, rfl⟩ | ⟨k, v, hread, rfl⟩ := parseLine_cases hstep
      · have hfirst : firstUnknown (raw :: rest) = firstUnknown rest := by rw [firstUnknown, hread]
        rw [hfirst]
        exact ih hlater htop hrest
      · obtain ⟨added, hadded, hreserved, hforeign⟩ := ih (σ := openTop σ n) hlater rfl hrest
        have hfirst : firstUnknown (raw :: rest) = if reserved n then firstUnknown rest else some n := by
          simp only [firstUnknown, hread]
        rw [hfirst]
        cases hres : reserved n with
        | true =>
            have hstart := hreserved hres
            refine ⟨added, by simpa [openTop, hres] using hadded, fun _ => hstart, fun _ => hstart.tailForm top⟩
        | false =>
            have hname := nameText_of_readLine hread hraw
            refine ⟨header n :: added, by simpa [openTop, hres] using hadded, fun _ => ?_, fun _ => ?_⟩
            · exact ⟨hname, hres, added, rfl, hforeign hres⟩
            · exact .inl ⟨n, hname, hres, rfl, hforeign hres⟩
      · have hfirst : firstUnknown (raw :: rest) = firstUnknown rest := by simp [firstUnknown, hread]
        rw [hfirst]
        exact ih (σ := pushIface σ n) hlater htop hrest
      · have hfirst : firstUnknown (raw :: rest) = firstUnknown rest := by rw [firstUnknown, hread]
        rw [hfirst]
        obtain ⟨b, htarget, hplace⟩ | ⟨hiface, _, hplace⟩ | ⟨hnone, _⟩ | ⟨n, hn, hres, hplace⟩ := placeEntry_cases σ k v
        · rw [hplace] at hrest
          obtain ⟨added, hadded, hforms⟩ := ih hlater ((setTarget_currentTop σ _).trans htop) hrest
          exact ⟨added, by rw [hadded, setTarget_extraSections], hforms⟩
        · rw [hplace] at hrest
          exact ih hlater htop hrest
        · rw [htop] at hnone
          cases hnone
        · obtain rfl := Option.some.inj (htop.symm.trans hn)
          rw [hplace] at hrest
          obtain ⟨added, hadded, _, hforeign⟩ := ih (σ := { σ with
            extraSections := σ.extraSections ++ [extraLine k v top] }) hlater htop hrest
          refine ⟨extraLine k v top :: added, by simpa using hadded, fun htrue => ?_, fun _ => ?_⟩
          · rw [hres] at htrue
            cases htrue
          · exact .inr ⟨k, v, plainPair_of_read hraw hread (hplain k v hread), rfl, hforeign hres⟩

-- What a file leaves behind besides the three sections.
theorem extras_of_runs (hlines : ∀ raw ∈ ls, PlainLine raw) (htop : σ.currentTop = none)
    (h : Runs parseLine σ ls F) : (∀ e ∈ leadingEntries ls, PlainPair e.1 e.2) ∧
      ∃ added, F.extraSections =
        σ.extraSections ++ ((leadingEntries ls).map fun e => entryLine e.1 e.2) ++ added ∧
        StartForm (firstUnknown ls) added := by
  induction ls generalizing σ with
  | nil =>
      rw [runs_nil] at h
      exact ⟨by simp [leadingEntries], [], by rw [← h]; simp [leadingEntries], rfl⟩
  | cons raw rest ih =>
      obtain ⟨m, hstep, hrest⟩ := runs_cons.mp h
      obtain ⟨hraw, hplain⟩ := hlines raw List.mem_cons_self
      have hlater := fun l hl => hlines l (List.mem_cons_of_mem raw hl)
      obtain ⟨hread, rfl⟩ | ⟨n, hread, rfl⟩ | ⟨n, hread, hiface, rfl⟩ | ⟨k, v, hread, rfl⟩ := parseLine_cases hstep
      · have hfirst : firstUnknown (raw :: rest) = firstUnknown rest := by rw [firstUnknown, hread]
        have hlead : leadingEntries (raw :: rest) = leadingEntries rest := by rw [leadingEntries, hread]
        rw [hfirst, hlead]
        exact ih hlater htop hrest
      · obtain ⟨added, hadded, hreserved, hforeign⟩ := tail_of_runs (σ := openTop σ n) hlater rfl hrest
        have hfirst : firstUnknown (raw :: rest) = if reserved n then firstUnknown rest else some n := by
          simp only [firstUnknown, hread]
        have hlead : leadingEntries (raw :: rest) = [] := by rw [leadingEntries, hread]
        rw [hfirst, hlead]
        refine ⟨by simp, ?_⟩
        cases hres : reserved n with
        | true => exact ⟨added, by simpa [openTop, hres] using hadded, hreserved hres⟩
        | false =>
            exact ⟨header n :: added, by simpa [openTop, hres] using hadded, nameText_of_readLine hread hraw, hres,
              added, rfl, hforeign hres⟩
      · rw [htop] at hiface
        cases hiface
      · have hfirst : firstUnknown (raw :: rest) = firstUnknown rest := by rw [firstUnknown, hread]
        have hlead : leadingEntries (raw :: rest) = (k, v) :: leadingEntries rest := by rw [leadingEntries, hread]
        have hplace : placeEntry σ k v = { σ with
            extraSections := σ.extraSections ++ [entryLine k v] } := by rw [placeEntry, htop]
        rw [hplace] at hrest
        obtain ⟨hpairs, added, hadded, hstart⟩ := ih (σ := { σ with
          extraSections := σ.extraSections ++ [entryLine k v] }) hlater htop hrest
        rw [hfirst, hlead]
        refine ⟨?_, added, by simpa using hadded, hstart⟩
        rw [List.forall_mem_cons]
        exact ⟨plainPair_of_read hraw hread (hplain k v hread), hpairs⟩

theorem runs_unique (h : Runs parseLine σ ls F) (h' : Runs parseLine σ ls σ') : F = σ' :=
  Except.ok.inj (h.symm.trans h')

def PlainBlockPairs (b : IniBlock) : Prop := ∀ e ∈ b.values.entries, PlainPair e.1 e.2

structure PlainBlocks (P : ParsedConfig) : Prop where
  reticulum : P.reticulum.name = RETICULUM ∧ PlainBlockPairs P.reticulum
  logging : P.logging.name = LOGGING ∧ PlainBlockPairs P.logging
  interfaces : ∀ b ∈ P.interfaces, NameText b.name ∧ PlainBlockPairs b

theorem PlainBlockPairs.set (h : PlainBlockPairs b) (hpair : PlainPair k v) : PlainBlockPairs (b.set k v) := by
  intro e he
  have hget := ((b.set k v).values.mem_entries_iff e.1 e.2).mp he
  rw [IniBlock.set, OrderedMap.get?_set] at hget
  split_ifs at hget with heq
  · obtain rfl := Option.some.inj hget
    exact heq ▸ hpair
  · exact h e ((b.values.mem_entries_iff e.1 e.2).mpr hget)

theorem PlainBlocks.setTarget (h : PlainBlocks σ.toParsedConfig) (htarget : target σ = some b) (hpair : PlainPair k v) :
    PlainBlocks (setTarget σ (b.set k v)).toParsedConfig := by
  obtain ⟨htop, rfl⟩ | ⟨htop, rfl⟩ | ⟨idx, htop, hidx, hb⟩ := target_cases htarget
  · rw [setTarget_of_reticulum htop]
    exact { h with reticulum := ⟨h.reticulum.1, h.reticulum.2.set hpair⟩ }
  · rw [setTarget_of_logging htop]
    exact { h with logging := ⟨h.logging.1, h.logging.2.set hpair⟩ }
  · rw [setTarget_of_iface htop hidx]
    refine { h with interfaces := fun b' hb' => ?_ }
    obtain hmem | rfl := List.mem_or_eq_of_mem_set hb'
    · exact h.interfaces b' hmem
    · have hold := h.interfaces b (List.mem_of_getElem? hb)
      exact ⟨hold.1, hold.2.set hpair⟩

theorem plainBlocks_step (hline : PlainLine raw) (h : PlainBlocks σ.toParsedConfig) (hstep : parseLine σ raw = .ok σ') :
    PlainBlocks σ'.toParsedConfig := by
  obtain ⟨hraw, hplain⟩ := hline
  obtain ⟨_, rfl⟩ | ⟨n, _, rfl⟩ | ⟨n, hread, _, rfl⟩ | ⟨k, v, hread, rfl⟩ := parseLine_cases hstep
  · exact h
  · exact { h with }
  · refine { h with interfaces := fun b hb => ?_ }
    obtain hb | hb := List.mem_append.mp hb
    · exact h.interfaces b hb
    · obtain rfl := List.mem_singleton.mp hb
      exact ⟨nameText_of_readLine hread hraw, fun e he => absurd he List.not_mem_nil⟩
  · have hpair := plainPair_of_read hraw hread (hplain k v hread)
    obtain ⟨b, htarget, hplace⟩ | ⟨_, _, hplace⟩ | ⟨_, hplace⟩ | ⟨n, _, _, hplace⟩ := placeEntry_cases σ k v
    · rw [hplace]
      exact h.setTarget htarget hpair
    all_goals
      rw [hplace]
      exact { h with }

theorem plainLine_of_file {content : Text} (h : PlainValues content) : ∀ raw ∈ lines content, PlainLine raw :=
  fun raw hraw => ⟨feed_notMem_lines hraw, h raw hraw⟩

theorem plainBlocks_of_parse {content : Text} (hplain : PlainValues content) (h : parseConfig content = .ok P) :
    PlainBlocks P := by
  obtain ⟨σ, hruns, rfl⟩ := parseConfig_eq_ok_iff.mp h
  have hstart : PlainBlocks ({} : Parsing).toParsedConfig :=
    ⟨⟨rfl, fun _ he => absurd he List.not_mem_nil⟩, ⟨rfl, fun _ he => absurd he List.not_mem_nil⟩,
      fun _ hb => absurd hb List.not_mem_nil⟩
  refine hruns.invariant (I := fun m : Parsing => PlainBlocks m.toParsedConfig) ?_ hstart
  intro m raw hmem m' hm hstep
  exact plainBlocks_step (plainLine_of_file hplain raw hmem) hm hstep

theorem PlainBlockPairs.reads (h : PlainBlockPairs b) : ReadsEntries b := fun e he =>
  readLine_entryLine (h e he).key (h e he).value (h e he).entry

-- Blocks that can be read back stand in the list as they were.
theorem blocks_reread {blocks : List IniBlock} (hblocks : ∀ b ∈ blocks, NameText b.name ∧ PlainBlockPairs b)
    (h : Runs parseLine σ (blocks.flatMap blockLines ++ ls) F) : Runs parseLine { σ with
      interfaces := σ.interfaces ++ blocks
      currentIface := if blocks = [] then σ.currentIface else some (σ.interfaces.length + blocks.length - 1) } ls F := by
  induction blocks generalizing σ with
  | nil => simpa using h
  | cons b rest ih =>
      obtain ⟨hname, hpairs⟩ := hblocks b List.mem_cons_self
      rw [List.flatMap_cons, List.append_assoc, blockLines, List.cons_append, runs_cons] at h
      obtain ⟨m, hstep, hrest⟩ := h
      obtain ⟨htop, hplain, rfl⟩ := parseLine_header_header hname hstep
      obtain ⟨m', hentries, hlater⟩ := runs_append.mp hrest
      have htop' : (pushIface σ b.name).currentTop = some INTERFACES := htop
      have htarget : target (pushIface σ b.name) = some { name := b.name } := by
        rw [target_of_iface htop' rfl]
        simp [pushIface]
      have hblock : Runs parseLine (pushIface σ b.name) (entryLines b) (setTarget (pushIface σ b.name) b) :=
        runs_block htarget rfl rfl hpairs.reads
      obtain rfl := runs_unique hentries hblock
      have hlast := ih (fun b' hb' => hblocks b' (List.mem_cons_of_mem b hb')) hlater
      rw [setTarget_of_iface htop' rfl] at hlast
      have hidx : (if rest = [] then some σ.interfaces.length else some (σ.interfaces.length + rest.length)) =
          some (σ.interfaces.length + rest.length) := by
        split
        · rename_i hnil
          rw [hnil]
          rfl
        · rfl
      simpa [pushIface, hidx] using hlast

-- Keys that belonged to no section go to the last block, when there is one.
theorem strays_reread {pairs : List (Text × Text)} (hpairs : ∀ e ∈ pairs, PlainPair e.1 e.2)
    (htop : σ.currentTop = some INTERFACES)
    (h : Runs parseLine σ ((pairs.map fun e => entryLine e.1 e.2) ++ ls) F) :
    (target σ = none → Runs parseLine σ ls F) ∧ ∀ b, target σ = some b →
      Runs parseLine (setTarget σ { b with values := b.values.setAll pairs }) ls F := by
  induction pairs generalizing σ with
  | nil =>
      refine ⟨fun _ => h, fun b htarget => ?_⟩
      rw [show ({ b with values := b.values.setAll [] } : IniBlock) = b from rfl, setTarget_self htarget]
      exact h
  | cons e rest ih =>
      rw [List.map_cons, List.cons_append, runs_cons] at h
      obtain ⟨m, hstep, hrest⟩ := h
      have hpair := hpairs e List.mem_cons_self
      rw [parseLine_entry (readLine_entryLine hpair.key hpair.value hpair.entry)] at hstep
      obtain rfl := Except.ok.inj hstep
      have hlater := fun e' he' => hpairs e' (List.mem_cons_of_mem e he')
      constructor
      · intro hnone
        obtain ⟨b, htarget, _⟩ | ⟨_, _, hplace⟩ | ⟨htop', _⟩ | ⟨n, hn, hres, _⟩ := placeEntry_cases σ e.1 e.2
        · rw [hnone] at htarget
          cases htarget
        · rw [hplace] at hrest
          exact (ih hlater htop hrest).1 hnone
        · rw [htop] at htop'
          cases htop'
        · obtain rfl := Option.some.inj (htop.symm.trans hn)
          exact absurd hres (by decide)
      · intro b htarget
        rw [placeEntry_of_target htarget] at hrest
        have hset := (ih hlater ((setTarget_currentTop σ _).trans htop) hrest).2 _ (target_setTarget htarget _)
        rwa [setTarget_setTarget htarget] at hset

theorem mem_trim_of_mem {c : Char} (hc : isWhitespace c = false) {xs : Text} (h : c ∈ xs) : c ∈ trim xs := by
  have hcount := count_trim hc xs
  have hpos := List.count_pos_iff.mpr h
  rw [← hcount] at hpos
  exact List.count_pos_iff.mp hpos

-- Only brackets and blanks are taken off a section's line.
theorem mem_of_readSection {d : Nat} {c : Char} {line : Text} (h : readSection line = .ok (.section' d name))
    (hopen : c ≠ '[') (hclose : c ≠ ']') (hblank : isWhitespace c = false) (hmem : c ∈ line) : c ∈ name := by
  unfold readSection at h
  simp only at h
  split_ifs at h
  obtain ⟨rfl, rfl⟩ := Line.section'.inj (Except.ok.inj h)
  generalize hn : (line.reverse.takeWhile (· = ']')).length = closed at *
  generalize hm : (line.takeWhile (· = '[')).length = opened at *
  refine mem_trim_of_mem hblank ?_
  have hdrop : c ∈ line.drop opened := by
    have hsplit := List.takeWhile_append_dropWhile (p := fun x => decide (x = '[')) (l := line)
    rw [← hsplit, List.mem_append] at hmem
    obtain hmem | hmem := hmem
    · have hbracket := List.mem_takeWhile_imp hmem
      exact absurd (of_decide_eq_true hbracket) hopen
    · rwa [← hm, drop_takeWhile_length]
  rw [← List.take_append_drop (line.length - closed - opened) (line.drop opened), List.mem_append] at hdrop
  obtain hdrop | hdrop := hdrop
  · exact hdrop
  -- What comes after is closing brackets only.
  · exfalso
    rw [List.drop_drop] at hdrop
    have hlast : line.drop (line.length - closed) = (line.reverse.takeWhile (· = ']')).reverse := by
      have hrev : line.reverse.take closed = line.reverse.takeWhile (· = ']') := by
        rw [← hn]
        exact (List.prefix_iff_eq_take.mp (List.takeWhile_prefix _)).symm
      rw [← hrev, List.reverse_take, List.reverse_reverse, List.length_reverse]
    have hge : line.length - closed ≤ opened + (line.length - closed - opened) := by omega
    have hin := (List.drop_suffix_drop_left line hge).mem hdrop
    rw [hlast, List.mem_reverse] at hin
    have hbracket := List.mem_takeWhile_imp hin
    exact hclose (of_decide_eq_true hbracket)

-- A kept line never names one of the three sections, whatever it is read as.
theorem reserved_of_extraLine {top n : Text} {d : Nat} (hk : KeyText k)
    (h : readLine (extraLine k v top) = .ok (.section' d n)) : reserved n = false := by
  obtain h | h | h := readLine_cases h
  · exact absurd h (by simp)
  · have hmem : '=' ∈ n := by
      refine mem_of_readSection h (by decide) (by decide) (by decide) (mem_trim_of_mem (by decide) ?_)
      rw [extraLine_eq, stripComment_key hk]
      simp
    rw [reserved_eq_false_iff]
    refine ⟨?_, ?_, ?_⟩
    all_goals
      rintro rfl
      exact absurd hmem (by decide)
  · exact absurd h readEntry_ne_section

theorem parseLine_header (hname : NameText name) (h : parseLine σ (header name) = .ok σ') :
    (PlainName name ∧ σ' = openTop σ name) ∨
      ¬ PlainName name ∧ σ.currentTop = some INTERFACES ∧ ∃ n, σ' = pushIface σ n := by
  have hsection : ∀ l, readLine (header name) = .ok l → ∃ d n, l = .section' d n := by
    intro l hl
    rw [header_eq_wrap, readLine_wrap_eq (by decide) hname] at hl
    unfold readSection at hl
    simp only at hl
    split_ifs at hl
    exact ⟨_, _, (Except.ok.inj hl).symm⟩
  obtain ⟨hread, rfl⟩ | ⟨n, hread, rfl⟩ | ⟨n, hread, htop, rfl⟩ | ⟨k, v, hread, rfl⟩ := parseLine_cases h
  · obtain ⟨d, n, heq⟩ := hsection _ hread
    cases heq
  · rw [header_eq_wrap] at hread
    obtain ⟨hplain, heq⟩ := (readLine_wrap_iff (by decide) hname).mp ⟨hread, by
      rintro d n' heq
      exact (Line.section'.inj heq).1 ▸ le_refl _⟩
    cases heq
    exact .inl ⟨hplain, rfl⟩
  · refine .inr ⟨fun hplain => ?_, htop, n, rfl⟩
    have hone := (readLine_header_iff hname).mpr hplain
    rw [hread] at hone
    cases hone
  · obtain ⟨d, n, heq⟩ := hsection _ hread
    cases heq

-- Out of the three sections the kept lines stay out of them.
theorem tail_reread {top : Text} (htail : TailForm top ls) (hforeign : Foreign σ) (h : Runs parseLine σ ls F) :
    F.reticulum = σ.reticulum ∧ F.logging = σ.logging ∧ F.interfaces = σ.interfaces := by
  induction ls generalizing σ top with
  | nil =>
      rw [← runs_nil.mp h]
      exact ⟨rfl, rfl, rfl⟩
  | cons l rest ih =>
      obtain ⟨m, hstep, hrest⟩ := runs_cons.mp h
      obtain ⟨t, ht, hres⟩ := hforeign
      have hout : σ.currentTop ≠ some INTERFACES := by
        rintro hin
        obtain rfl := Option.some.inj (ht.symm.trans hin)
        exact absurd hres (by decide)
      obtain ⟨n, hname, hn, rfl, htail⟩ | ⟨k, v, hpair, rfl, htail⟩ := htail
      · obtain ⟨_, rfl⟩ | ⟨_, hin, _⟩ := parseLine_header hname hstep
        · exact ih (σ := openTop σ n) htail ⟨n, rfl, hn⟩ hrest
        · exact absurd hin hout
      · obtain ⟨_, rfl⟩ | ⟨n, hread, rfl⟩ | ⟨n, _, hin, _⟩ | ⟨k', v', _, rfl⟩ := parseLine_cases hstep
        · exact ih htail ⟨t, ht, hres⟩ hrest
        · exact ih (σ := openTop σ n) htail ⟨n, rfl, reserved_of_extraLine hpair.key hread⟩ hrest
        · exact absurd hin hout
        · have hplace : placeEntry σ k' v' = { σ with
              extraSections := σ.extraSections ++ [extraLine k' v' t] } := by
            obtain ⟨h1, h2, h3⟩ := reserved_eq_false_iff.mp hres
            simp [placeEntry, ht, h1, h2, h3]
          rw [hplace] at hrest
          exact ih (σ := { σ with
            extraSections := σ.extraSections ++ [extraLine k' v' t] }) htail ⟨t, ht, hres⟩ hrest

theorem sameBlock_concat_iff {init : List IniBlock} :
    List.Forall₂ SameBlock (init ++ [b']) (init ++ [b]) ↔ SameBlock b' b := by
  induction init with
  | nil => simp
  | cons first rest ih =>
      rw [List.cons_append, List.cons_append, List.forall₂_cons, ih]
      exact and_iff_right ⟨rfl, fun _ => rfl⟩

-- The keys that stood before the first section change nothing in the last block.
def LeadingKept (pairs : List (Text × Text)) (blocks : List IniBlock) : Prop :=
  ∀ b ∈ blocks.getLast?, ∀ k, (b.values.setAll pairs).get? k = b.get k

theorem leading_reread {pairs : List (Text × Text)} {blocks : List IniBlock}
    (hpairs : ∀ e ∈ pairs, PlainPair e.1 e.2) (htop : σ.currentTop = some INTERFACES) (hifaces : σ.interfaces = blocks)
    (hidx : σ.currentIface = if blocks = [] then none else some (blocks.length - 1))
    (h : Runs parseLine σ ((pairs.map fun e => entryLine e.1 e.2) ++ ls) F) :
    ∃ m, Runs parseLine m ls F ∧ m.currentTop = some INTERFACES ∧ m.reticulum = σ.reticulum ∧ m.logging = σ.logging ∧
      m.interfaces.length = blocks.length ∧ (List.Forall₂ SameBlock m.interfaces blocks ↔ LeadingKept pairs blocks) := by
  obtain ⟨hnone, hsome⟩ := strays_reread hpairs htop h
  obtain rfl | ⟨init, b, rfl⟩ := List.eq_nil_or_concat' blocks
  · refine ⟨σ, hnone ?_, htop, rfl, rfl, by rw [hifaces], ?_⟩
    · simp [target, htop, hidx, interfaces_ne_reticulum, interfaces_ne_logging]
    · rw [hifaces]
      exact iff_of_true List.Forall₂.nil (by simp [LeadingKept])
  · rw [if_neg (by simp), List.length_append, List.length_singleton, Nat.add_sub_cancel] at hidx
    have htarget : target σ = some b := by
      rw [target_of_iface htop hidx, hifaces, List.getElem?_concat_length]
    refine ⟨_, hsome b htarget, (setTarget_currentTop σ _).trans htop, ?_⟩
    rw [setTarget_of_iface htop hidx]
    refine ⟨rfl, rfl, by simp [hifaces], ?_⟩
    have hset : σ.interfaces.set init.length { b with values := b.values.setAll pairs } =
        init ++ [{ b with values := b.values.setAll pairs }] := by
      rw [hifaces, List.set_append_right _ _ (le_refl _), Nat.sub_self]
      rfl
    simp only [hset]
    rw [sameBlock_concat_iff, LeadingKept, List.getLast?_concat]
    simp only [Option.mem_def, Option.some.injEq, forall_eq']
    exact and_iff_right rfl

-- What becomes of the interfaces: they stay when the keys before the first section change
-- nothing and the first unknown section is read as one.
theorem sections_reread {pairs : List (Text × Text)} {blocks : List IniBlock} {first : Option Text}
    (hblocks : ∀ b ∈ blocks, NameText b.name ∧ PlainBlockPairs b) (hpairs : ∀ e ∈ pairs, PlainPair e.1 e.2)
    (hstart : StartForm first ls) (htop : σ.currentTop = some INTERFACES) (hifaces : σ.interfaces = [])
    (hidx : σ.currentIface = none)
    (h : Runs parseLine σ (blocks.flatMap blockLines ++ ((pairs.map fun e => entryLine e.1 e.2) ++ ls)) F) :
    ((∀ n ∈ first, PlainName n) → F.reticulum = σ.reticulum ∧ F.logging = σ.logging) ∧
      (List.Forall₂ SameBlock F.interfaces blocks ↔ LeadingKept pairs blocks ∧ ∀ n ∈ first, PlainName n) := by
  have hread := blocks_reread hblocks h
  rw [hifaces, hidx, List.nil_append, List.length_nil, Nat.zero_add] at hread
  obtain ⟨m, hrest, hmtop, hret, hlog, hlen, hsame⟩ := @leading_reread _ F _ pairs blocks hpairs (by exact htop) rfl rfl hread
  cases first with
  | none =>
      rw [show ls = [] from hstart, runs_nil] at hrest
      subst hrest
      exact ⟨fun _ => ⟨hret, hlog⟩, by simpa using hsame⟩
  | some n =>
      obtain ⟨hname, hres, rest, rfl, htail⟩ := hstart
      obtain ⟨m', hstep, hlast⟩ := runs_cons.mp hrest
      obtain ⟨hplain, rfl⟩ | ⟨hplain, _, n', rfl⟩ := parseLine_header hname hstep
      · obtain ⟨hretF, hlogF, hifacesF⟩ := tail_reread htail ⟨n, rfl, hres⟩ hlast
        refine ⟨fun _ => ⟨hretF.trans hret, hlogF.trans hlog⟩, ?_⟩
        rw [hifacesF]
        simpa [openTop, hplain] using hsame
      · refine ⟨fun hall => absurd (hall n rfl) hplain, iff_of_false (fun hsameF => ?_) fun hboth => hplain (hboth.2 n rfl)⟩
        have hmono := hlast.mono interfaces_mono
        have hlenF := hsameF.length_eq
        simp only [pushIface, List.length_append, List.length_singleton] at hmono
        omega

theorem PlainBlockPairs.readBlock (h : PlainBlockPairs b) : ReadBlock b := ⟨fun e he => ⟨(h e he).key, (h e he).value⟩⟩

theorem lookup_map (g : Text × Text → Text) (k : Text) (entries : List (Text × Text)) :
    OrderedMap.lookup k (entries.map fun e => (e.1, g e)) = (OrderedMap.lookup k entries).map fun v => g (k, v) := by
  induction entries with
  | nil => rfl
  | cons e rest ih =>
      simp only [List.map_cons, OrderedMap.lookup]
      by_cases he : e.1 = k
      · rw [if_pos he, if_pos he, Option.map_some, ← he]
      · rw [if_neg he, if_neg he, ih]

-- A file written from the blocks of one that was read, whose keys may have changed, and whose
-- other lines stay: what is read from it.
theorem config_reread {content : Text} {g : Text × Text → Text} (hplain : PlainValues content)
    (hP : parseConfig content = .ok P) (hextras : P'.extraSections = P.extraSections)
    (hret : ∀ e ∈ P'.reticulum.values.entries, readLine (entryLine e.1 e.2) = .ok (.entry e.1 (g e)))
    (hretFeed : ∀ l ∈ entryLines P'.reticulum, '\n' ∉ l) (hlog : PlainBlockPairs P'.logging)
    (hlogName : P'.logging.name = LOGGING) (hifaces : ∀ b ∈ P'.interfaces, NameText b.name ∧ PlainBlockPairs b)
    (hQ : parseConfig (serializeConfig P') = .ok Q) :
    ((∀ n ∈ firstUnknown (lines content), PlainName n) →
        (∀ k, Q.reticulum.get k = (P'.reticulum.get k).map fun v => g (k, v)) ∧ Q.logging = P'.logging) ∧
      (List.Forall₂ SameBlock Q.interfaces P'.interfaces ↔
        LeadingKept (leadingEntries (lines content)) P'.interfaces ∧
          ∀ n ∈ firstUnknown (lines content), PlainName n) := by
  have hfeed : ∀ l ∈ configLines P', '\n' ∉ l := feed_notMem_of_parts hretFeed (feed_notMem_entryLines hlog.readBlock)
    (fun b hb => feed_notMem_ifaceLines (hifaces b hb).1 (hifaces b hb).2.readBlock)
    (hextras ▸ (readConfig_of_parse hP).extraSections)
  obtain ⟨F, hruns, rfl⟩ := (parse_serialize_iff hfeed).mp hQ
  obtain ⟨a, c, ha, hc, hF⟩ := runs_configLines.mp hruns
  obtain ⟨σ, hread, rfl⟩ := parseConfig_eq_ok_iff.mp hP
  obtain ⟨hpairs, added, hadded, hstart⟩ := extras_of_runs (plainLine_of_file hplain) rfl hread
  obtain ⟨R, _, hentries, hR⟩ := @runs_entries (openTop {} RETICULUM) { name := RETICULUM } P'.reticulum.values.entries g
    (by rfl) hret P'.reticulum.values.nodup
  rw [setTarget_of_reticulum (by rfl)] at hR
  obtain rfl := runs_unique ha hR
  have hlogging := runs_block (σ := openTop { openTop {} RETICULUM with
    reticulum := R } LOGGING) (b := { name := LOGGING }) (by rfl) rfl hlogName.symm hlog.reads
  rw [setTarget_of_logging (by rfl)] at hlogging
  obtain rfl := runs_unique hc hlogging
  rw [hextras, hadded, List.nil_append] at hF
  obtain ⟨hblocks, hsame⟩ := sections_reread hifaces hpairs hstart rfl rfl rfl hF
  refine ⟨fun hnames => ?_, hsame⟩
  obtain ⟨hretF, hlogF⟩ := hblocks hnames
  refine ⟨fun k => ?_, hlogF⟩
  have hget : R.get k = (P'.reticulum.get k).map fun v => g (k, v) := by
    rw [IniBlock.get, OrderedMap.get?, hentries]
    exact lookup_map g k P'.reticulum.values.entries
  rw [← hget, show F.reticulum = R from hretF]

end MeshClient.Reticulum
