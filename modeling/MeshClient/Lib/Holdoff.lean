import MeshClient.Lib.OrderedMap

-- A filter that lets a key through only where it has not let it through for a while.
namespace Holdoff

variable {κ : Type*} [DecidableEq κ]

structure Offer (κ : Type*) where
  key : κ
  now : Int
deriving DecidableEq

variable (ttl : Int)

def prune (seen : OrderedMap κ Int) (now : Int) : OrderedMap κ Int :=
  seen.filter fun _ ts => !decide (now - ts > ttl)

def admits (seen : OrderedMap κ Int) (o : Offer κ) : Bool := ((prune ttl seen o.now).get? o.key).isNone

def offer (seen : OrderedMap κ Int) (o : Offer κ) : OrderedMap κ Int :=
  if admits ttl seen o then (prune ttl seen o.now).set o.key o.now else prune ttl seen o.now

def offerAll (seen : OrderedMap κ Int) (offers : List (Offer κ)) : OrderedMap κ Int :=
  offers.foldl (offer ttl) seen

-- The offers that are let through, in order.
def admitted (seen : OrderedMap κ Int) : List (Offer κ) → List (Offer κ)
  | [] => []
  | o :: rest => (if admits ttl seen o then [o] else []) ++ admitted (offer ttl seen o) rest

abbrev InOrder (offers : List (Offer κ)) : Prop := offers.Pairwise fun a b => a.now ≤ b.now

variable {ttl} {seen : OrderedMap κ Int}

theorem get?_prune {now : Int} {k : κ} {t : Int} :
    (prune ttl seen now).get? k = some t ↔ seen.get? k = some t ∧ now - t ≤ ttl := by
  rw [prune, OrderedMap.get?_filter, Option.filter_eq_some_iff]
  simp

theorem admits_iff {o : Offer κ} :
    admits ttl seen o = true ↔ ∀ t, seen.get? o.key = some t → ttl < o.now - t := by
  rw [admits, Option.isNone_iff_eq_none, Option.eq_none_iff_forall_not_mem]
  constructor
  · intro h t ht
    have hgone := h t
    rw [Option.mem_def, get?_prune] at hgone
    exact not_le.mp fun hle => hgone ⟨ht, hle⟩
  · intro h t ht
    rw [Option.mem_def, get?_prune] at ht
    have hlt := h t ht.1
    omega

theorem offerAll_append (first second : List (Offer κ)) :
    offerAll ttl seen (first ++ second) = offerAll ttl (offerAll ttl seen first) second :=
  List.foldl_append

theorem admitted_append (first second : List (Offer κ)) :
    admitted ttl seen (first ++ second)
      = admitted ttl seen first ++ admitted ttl (offerAll ttl seen first) second := by
  induction first generalizing seen with
  | nil => rfl
  | cons o rest ih =>
      simp only [List.cons_append, admitted, ih, List.append_assoc]
      rfl

theorem admitted_concat (offers : List (Offer κ)) (o : Offer κ) :
    admitted ttl seen (offers ++ [o])
      = admitted ttl seen offers ++ if admits ttl (offerAll ttl seen offers) o then [o] else [] := by
  rw [admitted_append]
  simp [admitted]

theorem offerAll_concat (offers : List (Offer κ)) (o : Offer κ) :
    offerAll ttl seen (offers ++ [o]) = offer ttl (offerAll ttl seen offers) o := by
  rw [offerAll_append]
  rfl

theorem admitted_sublist (offers : List (Offer κ)) : (admitted ttl seen offers).Sublist offers := by
  induction offers generalizing seen with
  | nil => exact List.Sublist.refl _
  | cons o rest ih =>
      by_cases h : admits ttl seen o = true
      · simpa [admitted, h] using ih.cons_cons o
      · simpa [admitted, h] using ih.cons o

theorem get?_offer_self {o : Offer κ} (h : admits ttl seen o = true) :
    (offer ttl seen o).get? o.key = some o.now := by
  rw [offer, if_pos h, OrderedMap.get?_set_self]

theorem get?_offer {o : Offer κ} {k : κ} {t : Int} (h : (offer ttl seen o).get? k = some t) :
    seen.get? k = some t ∨ admits ttl seen o = true ∧ k = o.key ∧ t = o.now := by
  by_cases hadmits : admits ttl seen o = true
  · rw [offer, if_pos hadmits, OrderedMap.get?_set] at h
    by_cases hk : k = o.key
    · rw [if_pos hk, Option.some.injEq] at h
      exact .inr ⟨hadmits, hk, h.symm⟩
    · rw [if_neg hk] at h
      exact .inl (get?_prune.mp h).1
  · rw [offer, if_neg hadmits] at h
    exact .inl (get?_prune.mp h).1

-- What is remembered was let through at that time.
theorem remembered_mem {offers : List (Offer κ)} {k : κ} {t : Int}
    (h : (offerAll ttl ∅ offers).get? k = some t) : ⟨k, t⟩ ∈ admitted ttl ∅ offers := by
  induction offers using List.reverseRecOn with
  | nil => simp [offerAll] at h
  | append_singleton offers o ih =>
      rw [offerAll_concat] at h
      rw [admitted_concat, List.mem_append]
      obtain hbefore | ⟨hadmits, rfl, rfl⟩ := get?_offer h
      · exact .inl (ih hbefore)
      · right
        rw [if_pos hadmits]
        exact List.mem_singleton_self _

-- An offer that is turned down repeats one that was let through not long ago.
theorem exists_recent_of_not_admits {offers : List (Offer κ)} {o : Offer κ}
    (h : admits ttl (offerAll ttl ∅ offers) o = false) :
    ∃ a ∈ admitted ttl ∅ offers, a.key = o.key ∧ o.now - a.now ≤ ttl := by
  have hseen : ¬ ∀ t, (offerAll ttl ∅ offers).get? o.key = some t → ttl < o.now - t := by
    rw [← admits_iff, h]
    exact Bool.false_ne_true
  obtain ⟨t, ht⟩ := not_forall.mp hseen
  obtain ⟨hget, hrecent⟩ := Classical.not_imp.mp ht
  exact ⟨⟨o.key, t⟩, remembered_mem hget, rfl, not_lt.mp hrecent⟩

-- What was let through stays remembered for as long as it counts.
theorem remembers {offers : List (Offer κ)} {a : Offer κ} (ha : a ∈ admitted ttl ∅ offers) {now : Int}
    (hnow : ∀ o ∈ offers, o.now ≤ now) (hrecent : now - a.now ≤ ttl) :
    ∃ t, a.now ≤ t ∧ (offerAll ttl ∅ offers).get? a.key = some t := by
  induction offers using List.reverseRecOn with
  | nil => simp [admitted] at ha
  | append_singleton offers o ih =>
      have ho : o.now ≤ now := hnow o (by simp)
      rw [admitted_concat, List.mem_append] at ha
      rw [offerAll_concat]
      by_cases hadmits : admits ttl (offerAll ttl ∅ offers) o = true
      · by_cases hkey : a.key = o.key
        · refine ⟨o.now, ?_, hkey ▸ get?_offer_self hadmits⟩
          rcases ha with ha | ha
          · obtain ⟨t, hat, hget⟩ := ih ha fun p hp => hnow p (by simp [hp])
            have hold := admits_iff.mp hadmits t (hkey ▸ hget)
            omega
          · rw [if_pos hadmits, List.mem_singleton] at ha
            exact ha ▸ le_refl _
        · rcases ha with ha | ha
          · obtain ⟨t, hat, hget⟩ := ih ha fun p hp => hnow p (by simp [hp])
            refine ⟨t, hat, ?_⟩
            rw [offer, if_pos hadmits, OrderedMap.get?_set, if_neg hkey]
            exact get?_prune.mpr ⟨hget, by omega⟩
          · rw [if_pos hadmits, List.mem_singleton] at ha
            exact absurd (congrArg Offer.key ha) hkey
      · rcases ha with ha | ha
        · obtain ⟨t, hat, hget⟩ := ih ha fun p hp => hnow p (by simp [hp])
          refine ⟨t, hat, ?_⟩
          rw [offer, if_neg hadmits]
          exact get?_prune.mpr ⟨hget, by omega⟩
        · rw [if_neg hadmits] at ha
          exact absurd ha List.not_mem_nil

-- One key is never let through twice within the time.
theorem admitted_apart {offers : List (Offer κ)} (horder : InOrder offers) :
    (admitted ttl ∅ offers).Pairwise fun a b => a.key = b.key → ttl < b.now - a.now := by
  induction offers using List.reverseRecOn with
  | nil => exact List.Pairwise.nil
  | append_singleton offers o ih =>
      obtain ⟨hbefore, _, hlast⟩ := List.pairwise_append.mp horder
      rw [admitted_concat]
      by_cases hadmits : admits ttl (offerAll ttl ∅ offers) o = true
      · rw [if_pos hadmits]
        refine List.pairwise_append.mpr ⟨ih hbefore, List.pairwise_singleton _ _, ?_⟩
        intro a ha b hb hkey
        obtain rfl := List.mem_singleton.mp hb
        by_contra hclose
        obtain ⟨t, hat, hget⟩ := remembers ha (fun p hp => hlast p hp b (List.mem_singleton_self b)) (not_lt.mp hclose)
        have hold := admits_iff.mp hadmits t (hkey ▸ hget)
        omega
      · rw [if_neg hadmits, List.append_nil]
        exact ih hbefore

end Holdoff
