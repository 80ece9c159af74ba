import MeshClient.Lib.OrderedMap

namespace MeshClient.Js

-- The number that a property name stands for, where it is one that objects list first.
def arrayIndex (name : String) : Option Nat :=
  let n := name.toList.foldl (fun n c => 10 * n + (c.toNat - '0'.toNat)) 0
  if toString n = name ∧ n < 0xffffffff then some n else none

def namesIndex {α : Type} (entry : String × α) : Bool := (arrayIndex entry.1).isSome

-- `Object.entries`: the indices in increasing order, then the other names as they were added.
def objectEntries {α : Type} (m : OrderedMap String α) : List (String × α) :=
  (m.entries.filter namesIndex).insertionSort
    (fun a b => (arrayIndex a.1).getD 0 ≤ (arrayIndex b.1).getD 0) ++
  m.entries.filter fun entry => !namesIndex entry

def objectValues {α : Type} (m : OrderedMap String α) : List α := (objectEntries m).map Prod.snd

theorem objectEntries_perm {α : Type} (m : OrderedMap String α) : (objectEntries m).Perm m.entries :=
  ((List.perm_insertionSort _ _).append_right _).trans (List.filter_append_perm namesIndex m.entries)

@[simp] theorem mem_objectEntries {α : Type} (m : OrderedMap String α) (entry : String × α) :
    entry ∈ objectEntries m ↔ entry ∈ m.entries := (objectEntries_perm m).mem_iff

theorem mem_objectValues {α : Type} (m : OrderedMap String α) (v : α) :
    v ∈ objectValues m ↔ ∃ k, m.get? k = some v := by
  rw [objectValues, ← OrderedMap.mem_values_iff, OrderedMap.values]
  exact ((objectEntries_perm m).map Prod.snd).mem_iff

theorem objectValues_length {α : Type} (m : OrderedMap String α) : (objectValues m).length = m.size := by
  rw [objectValues, List.length_map, (objectEntries_perm m).length_eq, OrderedMap.size]

end MeshClient.Js
