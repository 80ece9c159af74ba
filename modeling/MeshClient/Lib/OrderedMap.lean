import Mathlib

-- A map with string-like keys that remembers the order in which its keys were first
-- written. Overwriting a key keeps its place; deleting and writing it again moves it last.
structure OrderedMap (κ α : Type*) where
  entries : List (κ × α)
  nodup : (entries.map Prod.fst).Nodup
deriving DecidableEq

namespace OrderedMap

variable {κ α β : Type*}

def empty : OrderedMap κ α := ⟨[], List.nodup_nil⟩

instance : EmptyCollection (OrderedMap κ α) := ⟨empty⟩

instance : Inhabited (OrderedMap κ α) := ⟨empty⟩

def keys (m : OrderedMap κ α) : List κ := m.entries.map Prod.fst

def values (m : OrderedMap κ α) : List α := m.entries.map Prod.snd

def size (m : OrderedMap κ α) : Nat := m.entries.length

def filter (m : OrderedMap κ α) (p : κ → α → Bool) : OrderedMap κ α :=
  ⟨m.entries.filter (fun e => p e.1 e.2), m.nodup.sublist (List.filter_sublist.map _)⟩

-- Without its first `n` entries.
def drop (m : OrderedMap κ α) (n : Nat) : OrderedMap κ α :=
  ⟨m.entries.drop n, m.nodup.sublist ((List.drop_sublist n _).map _)⟩

@[simp] theorem size_empty : (∅ : OrderedMap κ α).size = 0 := rfl

@[simp] theorem values_empty : (∅ : OrderedMap κ α).values = [] := rfl

theorem size_eq_keys_length (m : OrderedMap κ α) : m.size = m.keys.length := by
  simp [size, keys]

theorem keys_drop (m : OrderedMap κ α) (n : Nat) : (m.drop n).keys = m.keys.drop n :=
  List.map_drop

theorem keys_nodup (m : OrderedMap κ α) : m.keys.Nodup := m.nodup

theorem values_length (m : OrderedMap κ α) : m.values.length = m.size := by
  simp [size, values]

theorem size_filter_le (m : OrderedMap κ α) (p : κ → α → Bool) : (m.filter p).size ≤ m.size :=
  List.length_filter_le _ _

-- Fewer keys means fewer entries, whatever the values are.
theorem size_le_of_keys_subset (m : OrderedMap κ α) (m' : OrderedMap κ β)
    (h : m.keys ⊆ m'.keys) : m.size ≤ m'.size := by
  rw [size_eq_keys_length, size_eq_keys_length]
  exact (List.subperm_of_subset m.nodup h).length_le

variable [DecidableEq κ]

def lookup (k : κ) : List (κ × α) → Option α
  | [] => none
  | e :: rest => if e.1 = k then some e.2 else lookup k rest

def get? (m : OrderedMap κ α) (k : κ) : Option α := lookup k m.entries

def setEntry (k : κ) (v : α) : List (κ × α) → List (κ × α)
  | [] => [(k, v)]
  | e :: rest => if e.1 = k then (k, v) :: rest else e :: setEntry k v rest

theorem setEntry_keys (k : κ) (v : α) (entries : List (κ × α)) :
    (setEntry k v entries).map Prod.fst =
      if k ∈ entries.map Prod.fst then entries.map Prod.fst else entries.map Prod.fst ++ [k] := by
  induction entries with
  | nil => simp [setEntry]
  | cons e rest ih =>
      by_cases he : e.1 = k
      · simp [setEntry, he]
      · simp only [setEntry, if_neg he, List.map_cons, ih, List.mem_cons, Ne.symm he, false_or]
        split <;> rfl

def set (m : OrderedMap κ α) (k : κ) (v : α) : OrderedMap κ α :=
  ⟨setEntry k v m.entries, by
    rw [setEntry_keys]
    split
    · exact m.nodup
    · rename_i hk
      exact m.nodup.append (List.nodup_singleton k) (by simpa using hk)⟩

theorem setEntry_of_notMem {k : κ} (v : α) {entries : List (κ × α)} (h : k ∉ entries.map Prod.fst) :
    setEntry k v entries = entries ++ [(k, v)] := by
  induction entries with
  | nil => rfl
  | cons e rest ih =>
      rw [List.map_cons, List.mem_cons, not_or] at h
      rw [setEntry, if_neg (Ne.symm h.1), ih h.2]
      rfl

-- A new key goes last.
theorem entries_set_of_notMem (m : OrderedMap κ α) {k : κ} (v : α) (h : k ∉ m.keys) :
    (m.set k v).entries = m.entries ++ [(k, v)] :=
  setEntry_of_notMem v h

def erase (m : OrderedMap κ α) (k : κ) : OrderedMap κ α := m.filter (fun k' _ => k' ≠ k)

def setAll (m : OrderedMap κ α) (entries : List (κ × α)) : OrderedMap κ α :=
  entries.foldl (fun acc e => acc.set e.1 e.2) m

@[simp] theorem get?_empty (k : κ) : (∅ : OrderedMap κ α).get? k = none := rfl

theorem lookup_eq_none_iff (k : κ) (entries : List (κ × α)) :
    lookup k entries = none ↔ k ∉ entries.map Prod.fst := by
  induction entries with
  | nil => simp [lookup]
  | cons e rest ih =>
      by_cases he : e.1 = k
      · simp [lookup, he]
      · simp [lookup, he, ih, Ne.symm he]

theorem mem_of_lookup {k : κ} {v : α} {entries : List (κ × α)} (h : lookup k entries = some v) :
    (k, v) ∈ entries := by
  induction entries with
  | nil => simp [lookup] at h
  | cons e rest ih =>
      by_cases he : e.1 = k
      · simp only [lookup, if_pos he, Option.some.injEq] at h
        exact List.mem_cons.mpr (.inl (Prod.ext he.symm h.symm))
      · simp only [lookup, if_neg he] at h
        exact List.mem_cons_of_mem _ (ih h)

theorem lookup_of_mem {k : κ} {v : α} {entries : List (κ × α)}
    (hn : (entries.map Prod.fst).Nodup) (h : (k, v) ∈ entries) : lookup k entries = some v := by
  induction entries with
  | nil => simp at h
  | cons e rest ih =>
      simp only [List.map_cons, List.nodup_cons] at hn
      rcases List.mem_cons.mp h with rfl | h
      · simp [lookup]
      · have he : e.1 ≠ k := fun he => hn.1 (he ▸ List.mem_map_of_mem (f := Prod.fst) h)
        simp only [lookup, if_neg he, ih hn.2 h]

theorem mem_entries_iff (m : OrderedMap κ α) (k : κ) (v : α) :
    (k, v) ∈ m.entries ↔ m.get? k = some v :=
  ⟨lookup_of_mem m.nodup, mem_of_lookup⟩

theorem get?_eq_none_iff (m : OrderedMap κ α) (k : κ) : m.get? k = none ↔ k ∉ m.keys :=
  lookup_eq_none_iff k m.entries

theorem mem_keys_iff (m : OrderedMap κ α) (k : κ) : k ∈ m.keys ↔ ∃ v, m.get? k = some v := by
  rw [← Option.isSome_iff_exists, Option.isSome_iff_ne_none, ne_eq, get?_eq_none_iff, not_not]

theorem mem_values_iff (m : OrderedMap κ α) (v : α) :
    v ∈ m.values ↔ ∃ k, m.get? k = some v := by
  simp only [values, List.mem_map, Prod.exists, exists_eq_right, mem_entries_iff]

theorem keys_set (m : OrderedMap κ α) (k : κ) (v : α) :
    (m.set k v).keys = if k ∈ m.keys then m.keys else m.keys ++ [k] :=
  setEntry_keys k v m.entries

@[simp] theorem mem_keys_set (m : OrderedMap κ α) (k k' : κ) (v : α) :
    k' ∈ (m.set k v).keys ↔ k' = k ∨ k' ∈ m.keys := by
  rw [keys_set]
  split_ifs with hk
  · simp only [iff_or_self]
    rintro rfl
    exact hk
  · simp [or_comm]

theorem lookup_setEntry (k k' : κ) (v : α) (entries : List (κ × α)) :
    lookup k' (setEntry k v entries) = if k' = k then some v else lookup k' entries := by
  induction entries with
  | nil => simp only [setEntry, lookup, eq_comm]
  | cons e rest ih =>
      by_cases he : e.1 = k
      · subst he
        simp only [setEntry, if_true, lookup, eq_comm (a := e.1)]
        split <;> simp_all
      · simp only [setEntry, if_neg he, lookup, ih]
        by_cases hk : e.1 = k'
        · subst hk
          simp [he]
        · simp [hk]

theorem get?_set (m : OrderedMap κ α) (k k' : κ) (v : α) :
    (m.set k v).get? k' = if k' = k then some v else m.get? k' :=
  lookup_setEntry k k' v m.entries

@[simp] theorem get?_set_self (m : OrderedMap κ α) (k : κ) (v : α) :
    (m.set k v).get? k = some v := by simp [get?_set]

theorem get?_set_of_ne (m : OrderedMap κ α) {k k' : κ} (v : α) (h : k' ≠ k) :
    (m.set k v).get? k' = m.get? k' := by simp [get?_set, h]

theorem get?_filter (m : OrderedMap κ α) (p : κ → α → Bool) (k : κ) :
    (m.filter p).get? k = (m.get? k).filter (p k) := by
  ext v
  rw [← mem_entries_iff, Option.filter_eq_some_iff, ← mem_entries_iff]
  simp [filter]

theorem filter_eq_self (m : OrderedMap κ α) (p : κ → α → Bool)
    (h : ∀ k v, m.get? k = some v → p k v = true) : m.filter p = m := by
  have hentries : m.entries.filter (fun e => p e.1 e.2) = m.entries :=
    List.filter_eq_self.mpr fun e he => h e.1 e.2 ((mem_entries_iff m e.1 e.2).mp he)
  simp only [filter, hentries]

@[simp] theorem mem_keys_filter (m : OrderedMap κ α) (p : κ → Bool) (k : κ) :
    k ∈ (m.filter fun k _ => p k).keys ↔ k ∈ m.keys ∧ p k = true := by
  simp only [mem_keys_iff, get?_filter, Option.filter_eq_some_iff, exists_and_right]

theorem get?_erase (m : OrderedMap κ α) (k k' : κ) :
    (m.erase k).get? k' = if k' = k then none else m.get? k' := by
  rw [erase, get?_filter]
  by_cases h : k' = k
  · cases hv : m.get? k' <;> simp [h, Option.filter]
  · cases hv : m.get? k' <;> simp [h, Option.filter]

-- What the first `n` entries do not hold, the rest does.
theorem get?_drop (m : OrderedMap κ α) {n : Nat} {k : κ} (h : k ∉ m.keys.take n) :
    (m.drop n).get? k = m.get? k := by
  have hlookup : ∀ v, (k, v) ∈ m.entries.drop n ↔ (k, v) ∈ m.entries := by
    intro v
    refine ⟨List.mem_of_mem_drop, fun hmem => ?_⟩
    rw [← List.take_append_drop n m.entries, List.mem_append] at hmem
    rcases hmem with hmem | hmem
    · exact absurd (List.map_take ▸ List.mem_map_of_mem (f := Prod.fst) hmem) h
    · exact hmem
  ext v
  rw [← mem_entries_iff, ← mem_entries_iff]
  exact hlookup v

theorem get?_of_drop {m : OrderedMap κ α} {n : Nat} {k : κ} {v : α} (h : (m.drop n).get? k = some v) :
    m.get? k = some v :=
  (mem_entries_iff m k v).mp (List.mem_of_mem_drop ((mem_entries_iff (m.drop n) k v).mpr h))

theorem keys_set_subset (m : OrderedMap κ α) {k : κ} {old : α} (v : α) (h : m.get? k = some old) :
    (m.set k v).keys ⊆ m.keys := by
  rw [keys_set, if_pos ((mem_keys_iff m k).mpr ⟨old, h⟩)]
  exact List.Subset.refl _

theorem size_set_of_mem (m : OrderedMap κ α) {k : κ} (v : α) (h : k ∈ m.keys) :
    (m.set k v).size = m.size := by
  rw [size_eq_keys_length, keys_set, if_pos h, size_eq_keys_length]

theorem size_set_of_notMem (m : OrderedMap κ α) {k : κ} (v : α) (h : k ∉ m.keys) :
    (m.set k v).size = m.size + 1 := by
  rw [size_eq_keys_length, keys_set, if_neg h, List.length_append, size_eq_keys_length]
  rfl

theorem size_setAll_of_fresh (m : OrderedMap κ α) {entries : List (κ × α)}
    (hn : (entries.map Prod.fst).Nodup) (hfresh : ∀ k ∈ entries.map Prod.fst, k ∉ m.keys) :
    (m.setAll entries).size = m.size + entries.length := by
  induction entries generalizing m with
  | nil => rfl
  | cons e rest ih =>
      simp only [List.map_cons, List.nodup_cons, List.mem_cons, forall_eq_or_imp] at hn hfresh
      have hrest : ∀ k ∈ rest.map Prod.fst, k ∉ (m.set e.1 e.2).keys := by
        intro k hk hm
        rcases (mem_keys_set m e.1 k e.2).mp hm with rfl | hm
        · exact hn.1 hk
        · exact hfresh.2 k hk hm
      have hset := size_set_of_notMem m e.2 hfresh.1
      have hall := ih (m.set e.1 e.2) hn.2 hrest
      rw [hset] at hall
      rw [List.length_cons, show m.size + (rest.length + 1) = m.size + 1 + rest.length by omega]
      exact hall

theorem get?_setAll_of_notMem (m : OrderedMap κ α) (entries : List (κ × α)) (k : κ)
    (h : k ∉ entries.map Prod.fst) : (m.setAll entries).get? k = m.get? k := by
  induction entries generalizing m with
  | nil => rfl
  | cons e rest ih =>
      simp only [List.map_cons, List.mem_cons, not_or] at h
      exact (ih (m.set e.1 e.2) h.2).trans (get?_set_of_ne m e.2 h.1)

theorem get?_setAll_of_mem (m : OrderedMap κ α) {entries : List (κ × α)} {k : κ} {v : α}
    (hn : (entries.map Prod.fst).Nodup) (h : (k, v) ∈ entries) :
    (m.setAll entries).get? k = some v := by
  induction entries generalizing m with
  | nil => simp at h
  | cons e rest ih =>
      simp only [List.map_cons, List.nodup_cons] at hn
      rcases List.mem_cons.mp h with rfl | h
      · exact (get?_setAll_of_notMem (m.set k v) rest k hn.1).trans (get?_set_self m k v)
      · exact ih (m.set e.1 e.2) hn.2 h

-- Rewrites, adds or removes the value under one key.
def alter (m : OrderedMap κ α) (k : κ) (f : Option α → Option α) : OrderedMap κ α :=
  match f (m.get? k) with
  | some v => m.set k v
  | none => m.erase k

def alterAll (m : OrderedMap κ α) (ks : List κ) (f : κ → Option α → Option α) : OrderedMap κ α :=
  ks.foldl (fun m k => m.alter k (f k)) m

theorem get?_alter (m : OrderedMap κ α) (k k' : κ) (f : Option α → Option α) :
    (m.alter k f).get? k' = if k' = k then f (m.get? k) else m.get? k' := by
  unfold alter
  cases hf : f (m.get? k) with
  | none => rw [get?_erase]
  | some v => rw [get?_set]

-- Every key is altered once, by its own function.
theorem get?_alterAll (m : OrderedMap κ α) {ks : List κ} (hn : ks.Nodup)
    (f : κ → Option α → Option α) (k : κ) :
    (m.alterAll ks f).get? k = if k ∈ ks then f k (m.get? k) else m.get? k := by
  induction ks generalizing m with
  | nil => rfl
  | cons first rest ih =>
      obtain ⟨hfirst, hrest⟩ := List.nodup_cons.mp hn
      have hstep := ih (m.alter first (f first)) hrest
      simp only [alterAll, List.foldl_cons] at hstep ⊢
      rw [hstep, get?_alter]
      by_cases hk : k = first
      · subst hk
        simp [hfirst]
      · simp [hk]

end OrderedMap
