import MeshClient.Lib.Tally
import MeshClient.Reticulum.ConfigLines

namespace MeshClient.Reticulum

open Tally

variable {st st' : Parsing} {b b' : IniBlock} {raw k v name : Text}

def IniBlock.size (b : IniBlock) : Nat := b.values.size

def keysIn (blocks : List IniBlock) : Nat := (blocks.map IniBlock.size).sum

-- The lines that a config takes, those of its fixed headers apart.
def count (c : ParsedConfig) : Nat :=
  c.reticulum.size + c.logging.size + (c.interfaces.length + keysIn c.interfaces) + c.extraSections.length

-- The block the next key goes to.
def target (st : Parsing) : Option IniBlock :=
  if st.currentTop = some RETICULUM then some st.reticulum
  else if st.currentTop = some LOGGING then some st.logging
  else if st.currentTop = some INTERFACES then st.currentIface.bind fun idx => st.interfaces[idx]?
  else none

def setTarget (st : Parsing) (b : IniBlock) : Parsing :=
  if st.currentTop = some RETICULUM then { st with reticulum := b }
  else if st.currentTop = some LOGGING then { st with logging := b }
  else
    match st.currentIface with
    | some idx => { st with interfaces := st.interfaces.set idx b }
    | none => st

def openTop (st : Parsing) (name : Text) : Parsing :=
  { st with
    currentIface := none
    currentTop := some name
    extraSections := if reserved name then st.extraSections else st.extraSections ++ [header name] }

def pushIface (st : Parsing) (name : Text) : Parsing :=
  { st with
    interfaces := st.interfaces ++ [{ name }]
    currentIface := some st.interfaces.length }

-- In a section that is not one of the three.
def Foreign (st : Parsing) : Prop := ∃ n, st.currentTop = some n ∧ reserved n = false

theorem reserved_eq_false_iff : reserved name = false ↔ name ≠ RETICULUM ∧ name ≠ LOGGING ∧ name ≠ INTERFACES := by
  simp [reserved]

@[simp] theorem setTarget_currentTop (st : Parsing) (b : IniBlock) : (setTarget st b).currentTop = st.currentTop := by
  unfold setTarget
  split_ifs
  · rfl
  · rfl
  · split <;> rfl

@[simp] theorem setTarget_currentIface (st : Parsing) (b : IniBlock) :
    (setTarget st b).currentIface = st.currentIface := by
  unfold setTarget
  split_ifs
  · rfl
  · rfl
  · split <;> rfl

@[simp] theorem setTarget_extraSections (st : Parsing) (b : IniBlock) :
    (setTarget st b).extraSections = st.extraSections := by
  unfold setTarget
  split_ifs
  · rfl
  · rfl
  · split <;> rfl

@[simp] theorem setTarget_interfaces_length (st : Parsing) (b : IniBlock) :
    (setTarget st b).interfaces.length = st.interfaces.length := by
  unfold setTarget
  split_ifs
  · rfl
  · rfl
  · split
    · exact List.length_set
    · rfl

theorem target_cases (h : target st = some b) :
    (st.currentTop = some RETICULUM ∧ b = st.reticulum) ∨ (st.currentTop = some LOGGING ∧ b = st.logging) ∨
      ∃ idx, st.currentTop = some INTERFACES ∧ st.currentIface = some idx ∧ st.interfaces[idx]? = some b := by
  unfold target at h
  split_ifs at h with hret hlog hiface
  · exact .inl ⟨hret, (Option.some.inj h).symm⟩
  · exact .inr (.inl ⟨hlog, (Option.some.inj h).symm⟩)
  · obtain ⟨idx, hidx, hb⟩ := Option.bind_eq_some_iff.mp h
    exact .inr (.inr ⟨idx, hiface, hidx, hb⟩)

theorem logging_ne_reticulum : LOGGING ≠ RETICULUM := by decide

theorem interfaces_ne_reticulum : INTERFACES ≠ RETICULUM := by decide

theorem interfaces_ne_logging : INTERFACES ≠ LOGGING := by decide

theorem setTarget_of_reticulum (h : st.currentTop = some RETICULUM) (b : IniBlock) :
    setTarget st b = { st with reticulum := b } := if_pos h

theorem setTarget_of_logging (h : st.currentTop = some LOGGING) (b : IniBlock) :
    setTarget st b = { st with logging := b } := by
  rw [setTarget, h, if_neg (by simpa using logging_ne_reticulum), if_pos rfl]

theorem setTarget_of_iface {idx : Nat} (h : st.currentTop = some INTERFACES) (hidx : st.currentIface = some idx)
    (b : IniBlock) : setTarget st b = { st with interfaces := st.interfaces.set idx b } := by
  rw [setTarget, h, hidx, if_neg (by simpa using interfaces_ne_reticulum), if_neg (by simpa using interfaces_ne_logging)]

theorem target_of_iface {idx : Nat} (h : st.currentTop = some INTERFACES) (hidx : st.currentIface = some idx) :
    target st = st.interfaces[idx]? := by
  rw [target, h, hidx, if_neg (by simpa using interfaces_ne_reticulum), if_neg (by simpa using interfaces_ne_logging),
    if_pos rfl]
  rfl

theorem target_setTarget (h : target st = some b) (b' : IniBlock) : target (setTarget st b') = some b' := by
  obtain ⟨htop, rfl⟩ | ⟨htop, rfl⟩ | ⟨idx, htop, hidx, hb⟩ := target_cases h
  · rw [setTarget_of_reticulum htop]
    exact if_pos htop
  · rw [setTarget_of_logging htop, target, htop, if_neg (by simpa using logging_ne_reticulum), if_pos rfl]
  · rw [target_of_iface (by simpa using htop) (by simpa using hidx), setTarget_of_iface htop hidx]
    exact List.getElem?_set_self (List.getElem?_eq_some_iff.mp hb).1

theorem setTarget_setTarget (h : target st = some b) (b' b'' : IniBlock) :
    setTarget (setTarget st b') b'' = setTarget st b'' := by
  obtain ⟨htop, rfl⟩ | ⟨htop, rfl⟩ | ⟨idx, htop, hidx, hb⟩ := target_cases h
  · rw [setTarget_of_reticulum (by simpa using htop), setTarget_of_reticulum htop, setTarget_of_reticulum htop]
  · rw [setTarget_of_logging (by simpa using htop), setTarget_of_logging htop, setTarget_of_logging htop]
  · rw [setTarget_of_iface (by simpa using htop) (by simpa using hidx), setTarget_of_iface htop hidx,
      setTarget_of_iface htop hidx]
    simp only [List.set_set]

theorem setTarget_self (h : target st = some b) : setTarget st b = st := by
  obtain ⟨htop, rfl⟩ | ⟨htop, rfl⟩ | ⟨idx, htop, hidx, hb⟩ := target_cases h
  · rw [setTarget_of_reticulum htop]
  · rw [setTarget_of_logging htop]
  · obtain ⟨hlt, rfl⟩ := List.getElem?_eq_some_iff.mp hb
    rw [setTarget_of_iface htop hidx, List.set_getElem_self]

theorem keysIn_set {blocks : List IniBlock} {idx : Nat} (h : blocks[idx]? = some b) (b' : IniBlock) :
    keysIn (blocks.set idx b') + b.size = keysIn blocks + b'.size := by
  induction blocks generalizing idx with
  | nil => simp at h
  | cons first rest ih =>
      cases idx with
      | zero =>
          obtain rfl := Option.some.inj h
          simp only [List.set_cons_zero, keysIn, List.map_cons, List.sum_cons]
          omega
      | succ idx =>
          have hrest := ih h
          simp only [List.set_cons_succ, keysIn, List.map_cons, List.sum_cons] at hrest ⊢
          omega

theorem count_setTarget (h : target st = some b) (b' : IniBlock) :
    count (setTarget st b').toParsedConfig + b.size = count st.toParsedConfig + b'.size := by
  obtain ⟨htop, rfl⟩ | ⟨htop, rfl⟩ | ⟨idx, htop, hidx, hb⟩ := target_cases h
  · rw [setTarget_of_reticulum htop]
    simp only [count]
    omega
  · rw [setTarget_of_logging htop]
    simp only [count]
    omega
  · have hkeys := keysIn_set hb b'
    rw [setTarget_of_iface htop hidx]
    simp only [count, List.length_set]
    omega

theorem placeEntry_cases (st : Parsing) (k v : Text) :
    (∃ b, target st = some b ∧ placeEntry st k v = setTarget st (b.set k v)) ∨
    (st.currentTop = some INTERFACES ∧ target st = none ∧ placeEntry st k v = st) ∨
    (st.currentTop = none ∧ placeEntry st k v = { st with
      extraSections := st.extraSections ++ [entryLine k v] }) ∨
    ∃ n, st.currentTop = some n ∧ reserved n = false ∧ placeEntry st k v = { st with
      extraSections := st.extraSections ++ [extraLine k v n] } := by
  cases htop : st.currentTop with
  | none => exact .inr (.inr (.inl ⟨rfl, by rw [placeEntry, htop]⟩))
  | some top =>
      by_cases hret : top = RETICULUM
      · subst hret
        refine .inl ⟨st.reticulum, if_pos htop, ?_⟩
        rw [setTarget_of_reticulum htop, placeEntry, htop]
        exact if_pos rfl
      by_cases hlog : top = LOGGING
      · subst hlog
        refine .inl ⟨st.logging, ?_, ?_⟩
        · rw [target, htop, if_neg (by simpa using logging_ne_reticulum), if_pos rfl]
        · rw [setTarget_of_logging htop, placeEntry, htop]
          exact (if_neg logging_ne_reticulum).trans (if_pos rfl)
      by_cases hiface : top = INTERFACES
      · subst hiface
        cases hidx : st.currentIface with
        | none =>
            refine .inr (.inl ⟨rfl, ?_, ?_⟩)
            · simp [target, htop, hidx, interfaces_ne_reticulum, interfaces_ne_logging]
            · simp [placeEntry, htop, hidx, interfaces_ne_reticulum, interfaces_ne_logging]
        | some idx =>
            have hplace : placeEntry st k v = { st with
                interfaces := st.interfaces.modify idx fun b => b.set k v } := by
              simp [placeEntry, htop, hidx, interfaces_ne_reticulum, interfaces_ne_logging]
            cases hb : st.interfaces[idx]? with
            | none =>
                refine .inr (.inl ⟨rfl, by rw [target_of_iface htop hidx, hb], ?_⟩)
                rw [hplace, List.modify_eq_self (List.getElem?_eq_none_iff.mp hb)]
            | some b =>
                refine .inl ⟨b, by rw [target_of_iface htop hidx, hb], ?_⟩
                rw [hplace, setTarget_of_iface htop hidx, List.modify_eq_set_getElem?, hb]
                rfl
      · refine .inr (.inr (.inr ⟨top, rfl, reserved_eq_false_iff.mpr ⟨hret, hlog, hiface⟩, ?_⟩))
        simp [placeEntry, htop, hret, hlog, hiface]

-- What a line can do.
theorem parseLine_cases (h : parseLine st raw = .ok st') :
    (readLine raw = .ok .blank ∧ st' = st) ∨
    (∃ n, readLine raw = .ok (.section' 1 n) ∧ st' = openTop st n) ∨
    (∃ n, readLine raw = .ok (.section' 2 n) ∧ st.currentTop = some INTERFACES ∧ st' = pushIface st n) ∨
    ∃ k v, readLine raw = .ok (.entry k v) ∧ st' = placeEntry st k v := by
  unfold parseLine at h
  cases hread : readLine raw with
  | error e => simp [hread] at h
  | ok line =>
      simp only [hread] at h
      cases line with
      | blank => exact .inl ⟨rfl, (Except.ok.inj h).symm⟩
      | section' depth n =>
          rw [place, placeSection] at h
          by_cases hone : depth = 1
          · subst hone
            exact .inr (.inl ⟨n, rfl, (Except.ok.inj h).symm⟩)
          rw [if_neg hone] at h
          by_cases htwo : depth = 2
          · subst htwo
            by_cases htop : st.currentTop = some INTERFACES
            · rw [if_pos rfl, if_neg (not_not.mpr htop)] at h
              exact .inr (.inr (.inl ⟨n, rfl, htop, (Except.ok.inj h).symm⟩))
            · rw [if_pos rfl, if_pos htop] at h
              exact absurd h (by simp)
          · rw [if_neg htwo] at h
            exact absurd h (by simp)
      | entry k v => exact .inr (.inr (.inr ⟨k, v, rfl, (Except.ok.inj h).symm⟩))

theorem parseLine_blank (h : readLine raw = .ok .blank) : parseLine st raw = .ok st := by
  rw [parseLine, h]
  rfl

theorem parseLine_top (h : readLine raw = .ok (.section' 1 name)) : parseLine st raw = .ok (openTop st name) := by
  rw [parseLine, h]
  rfl

theorem parseLine_iface (h : readLine raw = .ok (.section' 2 name)) (htop : st.currentTop = some INTERFACES) :
    parseLine st raw = .ok (pushIface st name) := by
  rw [parseLine, h]
  simp [place, placeSection, htop, pushIface]

theorem parseLine_entry (h : readLine raw = .ok (.entry k v)) : parseLine st raw = .ok (placeEntry st k v) := by
  rw [parseLine, h]
  rfl

theorem IniBlock.size_set_le (b : IniBlock) (k v : Text) : b.size ≤ (b.set k v).size ∧ (b.set k v).size ≤ b.size + 1 := by
  simp only [IniBlock.size, IniBlock.set]
  by_cases hk : k ∈ b.values.keys
  · rw [b.values.size_set_of_mem v hk]
    omega
  · rw [b.values.size_set_of_notMem v hk]
    omega

theorem count_pushIface (st : Parsing) (n : Text) :
    count (pushIface st n).toParsedConfig = count st.toParsedConfig + 1 := by
  simp only [count, pushIface, List.length_append, keysIn, List.map_append, List.sum_append, List.map_singleton,
    List.sum_singleton, List.length_singleton, IniBlock.size, OrderedMap.size_empty]
  omega

theorem count_openTop (st : Parsing) (n : Text) :
    count (openTop st n).toParsedConfig = count st.toParsedConfig + if reserved n then 0 else 1 := by
  simp only [count, openTop]
  split_ifs
  · rfl
  · rw [List.length_append]
    rfl

theorem count_placeEntry_le (st : Parsing) (k v : Text) :
    count (placeEntry st k v).toParsedConfig ≤ count st.toParsedConfig + 1 := by
  obtain ⟨b, htarget, h⟩ | ⟨_, _, h⟩ | ⟨_, h⟩ | ⟨n, _, _, h⟩ := placeEntry_cases st k v
  · have hcount := count_setTarget htarget (b.set k v)
    have hsize := b.size_set_le k v
    rw [h]
    omega
  · rw [h]
    omega
  · rw [h]
    simp only [count, List.length_append, List.length_singleton]
    omega
  · rw [h]
    simp only [count, List.length_append, List.length_singleton]
    omega

theorem count_parseLine_le (st : Parsing) (raw : Text) (st' : Parsing) (h : parseLine st raw = .ok st') :
    count st'.toParsedConfig ≤ count st.toParsedConfig + 1 := by
  obtain ⟨_, rfl⟩ | ⟨n, _, rfl⟩ | ⟨n, _, _, rfl⟩ | ⟨k, v, _, rfl⟩ := parseLine_cases h
  · omega
  · rw [count_openTop]
    split_ifs <;> omega
  · rw [count_pushIface]
  · exact count_placeEntry_le st k v

end MeshClient.Reticulum
