import MeshClient.Lib.Lists

-- Three-way merges: what `after` changed against `before` is applied to `durable`, and
-- everything else is left as `durable` has it. A `before` of `none` has no such value.
namespace ThreeWay

open Lists

variable {α : Type*} [DecidableEq α]

def value (before : Option α) (after durable : α) : α :=
  if before = some after then durable else after

def optional (before after durable : Option α) : Option α :=
  if before = after then durable else after

-- Entries that `after` removed are dropped, those it has are added behind the durable ones.
def entries (before after durable : List α) : List α :=
  unique (durable.filter (fun x => !(x ∈ before && x ∉ after)) ++ after)

def list (before : Option (List α)) (after durable : List α) : List α :=
  if before = some after then durable else entries (before.getD []) after durable

def optionalList (before after durable : Option (List α)) : Option (List α) :=
  if before = after then durable
  else match after, durable with
    | some after, some durable => some (entries (before.getD []) after durable)
    | _, _ => after

@[simp] theorem value_unchanged (after durable : α) : value (some after) after durable = durable :=
  if_pos rfl

@[simp] theorem optional_unchanged (after durable : Option α) :
    optional after after durable = durable := if_pos rfl

@[simp] theorem list_unchanged (after durable : List α) : list (some after) after durable = durable :=
  if_pos rfl

@[simp] theorem optionalList_unchanged (after durable : Option (List α)) :
    optionalList after after durable = durable := if_pos rfl

-- Merging into what `after` was written to already changes nothing.
@[simp] theorem value_self (before : Option α) (after : α) : value before after after = after := by
  unfold value
  split <;> rfl

@[simp] theorem optional_self (before after : Option α) : optional before after after = after := by
  unfold optional
  split <;> rfl

-- Merging into what `before` was read from gives `after`.
@[simp] theorem value_base (durable after : α) : value (some durable) after durable = after := by
  unfold value
  split_ifs with h
  · exact Option.some.inj h
  · rfl

@[simp] theorem optional_base (durable after : Option α) :
    optional durable after durable = after := by
  unfold optional
  split_ifs with h
  · exact h
  · rfl

@[simp] theorem mem_entries (x : α) (before after durable : List α) :
    x ∈ entries before after durable ↔ x ∈ after ∨ (x ∈ durable ∧ x ∉ before) := by
  simp only [entries, mem_unique, List.mem_append, List.mem_filter, Bool.not_eq_true',
    Bool.and_eq_false_imp, decide_eq_true_eq, decide_eq_false_iff_not, not_not]
  by_cases hx : x ∈ after
  · simp [hx]
  · simp [hx]

theorem entries_nodup (before after durable : List α) : (entries before after durable).Nodup :=
  unique_nodup _

theorem entries_self (before after : List α) : entries before after after = unique after := by
  unfold entries
  rw [List.filter_eq_self.mpr fun x hx => by simp [hx]]
  exact unique_append_of_subset fun x hx => hx

theorem list_self (before : Option (List α)) (after : List α) :
    list before after after = if before = some after then after else unique after := by
  rw [list, entries_self]

theorem list_self_of_nodup (before : Option (List α)) {after : List α} (h : after.Nodup) :
    list before after after = after := by
  rw [list_self, unique_of_nodup h, ite_self]

theorem optionalList_self (before after : Option (List α)) :
    optionalList before after after = if before = after then after else after.map unique := by
  unfold optionalList
  cases after with
  | none => rfl
  | some after => simp only [entries_self, Option.map_some]

theorem optionalList_self_of_nodup (before : Option (List α)) {after : Option (List α)}
    (h : (after.getD []).Nodup) : optionalList before after after = after := by
  rw [optionalList_self]
  cases after with
  | none => simp
  | some after =>
      have hn : after.Nodup := h
      simp only [Option.map_some, unique_of_nodup hn, ite_self]

-- Merging into what `before` was read from gives `after`, in another order.
theorem list_base_perm {durable after : List α} (hn : after.Nodup) :
    (list (some durable) after durable).Perm after := by
  unfold list
  split_ifs with h
  · rw [Option.some.inj h]
  · rw [List.perm_ext_iff_of_nodup (entries_nodup _ _ _) hn]
    simp only [Option.getD_some, mem_entries, and_not_self, or_false, implies_true]

theorem subset_list_base (durable after : List α) : after ⊆ list (some durable) after durable := by
  intro x hx
  unfold list
  split_ifs with h
  · rwa [Option.some.inj h]
  · exact (mem_entries ..).mpr (.inl hx)

-- What `after` added is there, and so is what `durable` had and `after` did not remove.
theorem mem_list_of_added {before : Option (List α)} {after durable : List α} {x : α}
    (hx : x ∈ after) (hnew : x ∉ before.getD []) : x ∈ list before after durable := by
  unfold list
  split_ifs with h
  · exact absurd (by simpa [h] using hx) hnew
  · exact (mem_entries ..).mpr (.inl hx)

theorem mem_list_of_not_removed {before : Option (List α)} {after durable : List α} {x : α}
    (hx : x ∈ durable) (hkept : x ∈ before.getD [] → x ∈ after) : x ∈ list before after durable := by
  unfold list
  split_ifs with h
  · exact hx
  · rw [mem_entries]
    by_cases hb : x ∈ before.getD []
    · exact .inl (hkept hb)
    · exact .inr ⟨hx, hb⟩

end ThreeWay
