import Mathlib

-- Keys by the last time they were used, from a history whose newest entry comes first.
namespace Recency

variable {κ β : Type*} [DecidableEq κ]

def latest : List (κ × β) → List (κ × β)
  | [] => []
  | entry :: older => entry :: (latest older).filter fun e => e.1 ≠ entry.1

@[simp] theorem latest_nil : latest ([] : List (κ × β)) = [] := rfl

theorem mem_keys_latest {k : κ} {history : List (κ × β)} :
    k ∈ (latest history).map Prod.fst ↔ k ∈ history.map Prod.fst := by
  induction history with
  | nil => exact Iff.rfl
  | cons entry older ih =>
      by_cases hk : k = entry.1
      · simp [latest, hk]
      · simp only [latest, List.map_cons, List.mem_cons, hk, false_or, ← ih]
        simp only [List.mem_map, List.mem_filter, decide_eq_true_eq]
        constructor
        · intro ⟨e, he, hkey⟩
          exact ⟨e, he.1, hkey⟩
        · intro ⟨e, he, hkey⟩
          exact ⟨e, ⟨he, by rw [hkey]; exact hk⟩, hkey⟩

theorem nodup_latest (history : List (κ × β)) : ((latest history).map Prod.fst).Nodup := by
  induction history with
  | nil => exact List.nodup_nil
  | cons entry older ih =>
      rw [latest, List.map_cons, List.nodup_cons]
      constructor
      · intro hmem
        obtain ⟨e, he, hkey⟩ := List.mem_map.mp hmem
        exact of_decide_eq_true (List.mem_filter.mp he).2 hkey
      · exact ih.sublist (List.filter_sublist.map _)

theorem length_latest (history : List (κ × β)) : (latest history).length = (history.map Prod.fst).toFinset.card := by
  have hsame : ((latest history).map Prod.fst).toFinset = (history.map Prod.fst).toFinset := by
    ext k
    rw [List.mem_toFinset, List.mem_toFinset, mem_keys_latest]
  rw [← hsame, List.toFinset_card_of_nodup (nodup_latest history), List.length_map]

-- A key's place is the number of keys that were used after it.
theorem latest_append_cons {after : List (κ × β)} {k : κ} (hafter : k ∉ after.map Prod.fst) (b : β)
    (older : List (κ × β)) :
    ∃ rest, latest (after ++ (k, b) :: older) = latest after ++ (k, b) :: rest := by
  induction after with
  | nil => exact ⟨_, rfl⟩
  | cons entry after ih =>
      rw [List.map_cons, List.mem_cons, not_or] at hafter
      obtain ⟨rest, hrest⟩ := ih hafter.2
      refine ⟨rest.filter fun e => e.1 ≠ entry.1, ?_⟩
      rw [List.cons_append, latest, hrest, List.filter_append,
        @List.filter_cons_of_pos _ (fun e => decide (e.1 ≠ entry.1)) (k, b) rest (decide_eq_true hafter.1)]
      rfl

theorem mem_take_latest {k : κ} {b : β} {history : List (κ × β)} {n : Nat} :
    (k, b) ∈ (latest history).take n ↔ ∃ after older, history = after ++ (k, b) :: older ∧
      k ∉ after.map Prod.fst ∧ (after.map Prod.fst).toFinset.card < n := by
  constructor
  · intro hmem
    have hfirst : ∀ history : List (κ × β), (k, b) ∈ latest history →
        ∃ after older, history = after ++ (k, b) :: older ∧ k ∉ after.map Prod.fst := by
      intro history
      induction history with
      | nil => exact fun h => absurd h List.not_mem_nil
      | cons entry older ih =>
          intro h
          rw [latest, List.mem_cons, List.mem_filter, decide_eq_true_eq] at h
          rcases h with rfl | ⟨hmem, hne⟩
          · exact ⟨[], older, rfl, List.not_mem_nil⟩
          · obtain ⟨after, older, rfl, hafter⟩ := ih hmem
            exact ⟨entry :: after, older, rfl, by
              rw [List.map_cons, List.mem_cons, not_or]
              exact ⟨hne, hafter⟩⟩
    obtain ⟨after, older, rfl, hafter⟩ := hfirst history (List.mem_of_mem_take hmem)
    refine ⟨after, older, rfl, hafter, ?_⟩
    obtain ⟨rest, hrest⟩ := latest_append_cons hafter b older
    rw [← length_latest]
    by_contra hlong
    rw [hrest, List.take_append_of_le_length (by omega)] at hmem
    exact hafter (mem_keys_latest.mp (List.mem_map_of_mem (List.mem_of_mem_take hmem)))
  · intro ⟨after, older, hhistory, hafter, hcard⟩
    obtain ⟨rest, hrest⟩ := latest_append_cons hafter b older
    rw [← length_latest] at hcard
    rw [hhistory, hrest, List.take_append, List.mem_append]
    refine .inr ?_
    obtain ⟨m, hm⟩ : ∃ m, n - (latest after).length = m + 1 := ⟨n - (latest after).length - 1, by omega⟩
    rw [hm, List.take_succ_cons]
    exact List.mem_cons_self

-- Of the entries cut off, only one could have come up to fill the place of a removed key.
theorem take_filter_take {entries : List (κ × β)} (hnodup : (entries.map Prod.fst).Nodup) (k : κ) (n : Nat) :
    ((entries.take (n + 1)).filter fun e => e.1 ≠ k).take n = (entries.filter fun e => e.1 ≠ k).take n := by
  induction entries generalizing n with
  | nil => rfl
  | cons e entries ih =>
      rw [List.map_cons, List.nodup_cons] at hnodup
      cases n with
      | zero => rfl
      | succ n =>
          rw [List.take_succ_cons]
          by_cases hk : e.1 = k
          · have hall : ∀ e' ∈ entries, decide (e'.1 ≠ k) = true := by
              intro e' he'
              refine decide_eq_true fun heq => hnodup.1 ?_
              rw [hk, ← heq]
              exact List.mem_map_of_mem he'
            have hremoved : ∀ rest : List (κ × β),
                (e :: rest).filter (fun e => e.1 ≠ k) = rest.filter fun e => e.1 ≠ k :=
              fun rest => List.filter_cons_of_neg (by simp [hk])
            rw [hremoved, hremoved, List.filter_eq_self.mpr hall,
              List.filter_eq_self.mpr fun e' he' => hall e' (List.mem_of_mem_take he'), List.take_take, min_self]
          · have hstays : ∀ rest : List (κ × β),
                (e :: rest).filter (fun e => e.1 ≠ k) = e :: rest.filter fun e => e.1 ≠ k :=
              fun rest => List.filter_cons_of_pos (decide_eq_true hk)
            rw [hstays, hstays, List.take_succ_cons, List.take_succ_cons, ih hnodup.2]

-- The latest keys can be kept by themselves.
theorem take_latest_cons (entry : κ × β) (older : List (κ × β)) (n : Nat) :
    (entry :: ((latest older).take n).filter fun e => e.1 ≠ entry.1).take n = (latest (entry :: older)).take n := by
  cases n with
  | zero => rfl
  | succ n =>
      rw [latest, List.take_succ_cons, List.take_succ_cons, take_filter_take (nodup_latest older)]

end Recency
