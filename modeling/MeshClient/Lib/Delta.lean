import MeshClient.Lib.OrderedMap

-- What has changed in a map since its readers were last told: the values put there and the keys taken away.
structure Delta (κ α : Type*) where
  upserts : OrderedMap κ α
  removals : List κ

namespace OrderedMap

variable {κ α : Type*} [DecidableEq κ]

theorem erase_set (m : OrderedMap κ α) (k : κ) (v : α) : (m.set k v).erase k = m.erase k := by
  have hentries : ∀ entries : List (κ × α),
      (setEntry k v entries).filter (fun e => e.1 ≠ k) = entries.filter fun e => e.1 ≠ k := by
    intro entries
    induction entries with
    | nil => simp [setEntry]
    | cons e rest ih =>
        by_cases he : e.1 = k
        · simp [setEntry, he]
        · simp only [setEntry, if_neg he, List.filter_cons, ih]
  have hsame := hentries m.entries
  unfold erase filter set
  simpa using hsame

theorem keys_erase_sublist (m : OrderedMap κ α) (k : κ) : (m.erase k).keys.Sublist m.keys :=
  List.filter_sublist.map _

end OrderedMap

namespace Delta

variable {κ α : Type*} [DecidableEq κ]

instance : EmptyCollection (Delta κ α) := ⟨⟨∅, []⟩⟩

def put (d : Delta κ α) (k : κ) (v : α) : Delta κ α := ⟨d.upserts.set k v, d.removals.filter (· ≠ k)⟩

def take (d : Delta κ α) (k : κ) : Delta κ α :=
  ⟨d.upserts.erase k, if k ∈ d.removals then d.removals else d.removals ++ [k]⟩

def isEmpty (d : Delta κ α) : Bool := d.upserts.size = 0 && d.removals = []

-- A reader's map after it was told.
def tell (d : Delta κ α) (m : OrderedMap κ α) : OrderedMap κ α :=
  d.removals.foldl OrderedMap.erase (m.setAll d.upserts.entries)

def Disjoint (d : Delta κ α) : Prop := ∀ k ∈ d.removals, d.upserts.get? k = none

-- The map that a reader has once it is told.
def onto (d : Delta κ α) (view : κ → Option α) (k : κ) : Option α :=
  if k ∈ d.removals then none else (d.upserts.get? k).or (view k)

theorem get?_foldl_erase (ks : List κ) (m : OrderedMap κ α) (k : κ) :
    (ks.foldl OrderedMap.erase m).get? k = if k ∈ ks then none else m.get? k := by
  induction ks generalizing m with
  | nil => simp
  | cons first rest ih =>
      rw [List.foldl_cons, ih, OrderedMap.get?_erase]
      by_cases hrest : k ∈ rest
      · rw [if_pos hrest, if_pos (List.mem_cons_of_mem _ hrest)]
      · by_cases hfirst : k = first
        · simp [hfirst]
        · simp [hrest, hfirst]

theorem get?_tell (d : Delta κ α) (m : OrderedMap κ α) (k : κ) : (d.tell m).get? k = d.onto m.get? k := by
  unfold tell onto
  rw [get?_foldl_erase]
  congr 1
  cases hget : d.upserts.get? k with
  | none =>
      rw [OrderedMap.get?_setAll_of_notMem m _ k ((OrderedMap.get?_eq_none_iff d.upserts k).mp hget), Option.none_or]
  | some v =>
      rw [OrderedMap.get?_setAll_of_mem m d.upserts.nodup ((OrderedMap.mem_entries_iff d.upserts k v).mpr hget),
        Option.some_or]

theorem onto_empty (view : κ → Option α) (k : κ) : (∅ : Delta κ α).onto view k = view k := by
  change (if k ∈ ([] : List κ) then none else ((∅ : OrderedMap κ α).get? k).or (view k)) = view k
  simp

theorem onto_of_isEmpty {d : Delta κ α} (h : d.isEmpty = true) (view : κ → Option α) (k : κ) :
    d.onto view k = view k := by
  simp only [isEmpty, Bool.and_eq_true, decide_eq_true_eq] at h
  have hnone : d.upserts.get? k = none := by
    rw [OrderedMap.get?_eq_none_iff, OrderedMap.keys, List.eq_nil_of_length_eq_zero h.1]
    exact List.not_mem_nil
  unfold onto
  rw [h.2, hnone, if_neg List.not_mem_nil, Option.none_or]

theorem onto_put (d : Delta κ α) (view : κ → Option α) (k k' : κ) (v : α) :
    (d.put k v).onto view k' = if k' = k then some v else d.onto view k' := by
  unfold onto put
  by_cases hk : k' = k
  · simp [hk]
  · simp [hk, OrderedMap.get?_set]

theorem onto_take (d : Delta κ α) (view : κ → Option α) (k k' : κ) :
    (d.take k).onto view k' = if k' = k then none else d.onto view k' := by
  unfold onto take
  by_cases hk : k' = k
  · by_cases hmem : k ∈ d.removals
    · simp [hk, hmem]
    · simp [hk, hmem]
  · by_cases hmem : k ∈ d.removals
    · simp [hk, hmem, OrderedMap.get?_erase]
    · simp [hk, hmem, OrderedMap.get?_erase]

theorem disjoint_empty : (∅ : Delta κ α).Disjoint := by
  intro k hk
  exact absurd hk List.not_mem_nil

theorem Disjoint.put {d : Delta κ α} (h : d.Disjoint) (k : κ) (v : α) : (d.put k v).Disjoint := by
  intro k' hk'
  simp only [Delta.put, List.mem_filter, decide_eq_true_eq] at hk'
  rw [Delta.put, OrderedMap.get?_set_of_ne _ _ hk'.2]
  exact h k' hk'.1

theorem Disjoint.take {d : Delta κ α} (h : d.Disjoint) (k : κ) : (d.take k).Disjoint := by
  intro k' hk'
  rw [Delta.take, OrderedMap.get?_erase]
  by_cases hsame : k' = k
  · rw [if_pos hsame]
  · rw [if_neg hsame]
    by_cases hmem : k ∈ d.removals
    · rw [Delta.take, if_pos hmem] at hk'
      exact h k' hk'
    · rw [Delta.take, if_neg hmem] at hk'
      simp only [List.mem_append, List.mem_singleton, hsame, or_false] at hk'
      exact h k' hk'

end Delta
