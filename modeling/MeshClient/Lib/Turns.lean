import Mathlib

-- Jobs in lanes. A job waits for the one that was last in its lane when it came, so that the
-- jobs of a lane take turns.
namespace Turns

structure Line (α ι : Type*) where
  lane : α → ι
  before : α → Option Nat
  started : α → Prop
  settled : α → Prop
  started_of_settled : ∀ x, settled x → started x

variable {α ι : Type*} (l : Line α ι)

def Line.Running (x : α) : Prop := l.started x ∧ ¬ l.settled x

-- `p` is the last job of the lane.
def Line.Tail (xs : List α) (c : ι) (p : Option Nat) : Prop :=
  (∀ i, p = some i → ∃ y, xs[i]? = some y ∧ l.lane y = c) ∧
    ∀ (k : Nat) y, xs[k]? = some y → l.lane y = c → ∃ i, p = some i ∧ k ≤ i

def Line.Linked (xs : List α) : Prop :=
  ∀ (i : Nat) x, xs[i]? = some x →
    (∀ p, l.before x = some p → p < i ∧ ∃ y, xs[p]? = some y ∧ l.lane y = l.lane x) ∧
      ∀ (k : Nat) y, xs[k]? = some y → k < i → l.lane y = l.lane x → ∃ p, l.before x = some p ∧ k ≤ p

def Line.InTurn (xs : List α) : Prop :=
  ∀ (i : Nat) x, xs[i]? = some x → l.started x →
    ∀ (k : Nat) y, xs[k]? = some y → k < i → l.lane y = l.lane x → l.settled y

-- The job before `x` is over.
def Line.Free (xs : List α) (x : α) : Prop :=
  ∀ p, l.before x = some p → ∃ y, xs[p]? = some y ∧ l.settled y

variable {l} {xs : List α} {x x' : α} {i : Nat}

theorem getElem?_concat_cases {y : α} {k : Nat} (h : (xs ++ [x])[k]? = some y) :
    xs[k]? = some y ∨ k = xs.length ∧ y = x := by
  by_cases hk : k < xs.length
  · rw [List.getElem?_append_left hk] at h
    exact .inl h
  · have hkx : k = xs.length := by
      have hlt := (List.getElem?_eq_some_iff.mp h).1
      simp only [List.length_append, List.length_singleton] at hlt
      omega
    subst hkx
    rw [List.getElem?_concat_length] at h
    exact .inr ⟨rfl, (Option.some.inj h).symm⟩

theorem getElem?_concat_of_some {y : α} {k : Nat} (h : xs[k]? = some y) : (xs ++ [x])[k]? = some y := by
  rw [List.getElem?_append_left (List.getElem?_eq_some_iff.mp h).1, h]

theorem getElem?_set_of_some (h : xs[i]? = some x) {k : Nat} :
    (xs.set i x')[k]? = if k = i then some x' else xs[k]? := by
  rw [List.getElem?_set]
  by_cases hk : k = i
  · rw [if_pos hk.symm, if_pos (List.getElem?_eq_some_iff.mp h).1, if_pos hk]
  · rw [if_neg (Ne.symm hk), if_neg hk]

theorem tail_nil (c : ι) : l.Tail [] c none := by
  constructor
  · intro i hi
    exact absurd hi (Option.some_ne_none i).symm
  · intro k y hy
    simp at hy

theorem tail_none {c : ι} (h : ∀ y ∈ xs, l.lane y ≠ c) : l.Tail xs c none := by
  constructor
  · intro i hi
    exact absurd hi (Option.some_ne_none i).symm
  · intro k y hy hc
    exact absurd hc (h y (List.mem_of_getElem? hy))

theorem tail_concat_self : l.Tail (xs ++ [x]) (l.lane x) (some xs.length) := by
  constructor
  · intro i hi
    obtain rfl := Option.some.inj hi
    exact ⟨x, List.getElem?_concat_length, rfl⟩
  · intro k y hy _
    refine ⟨xs.length, rfl, ?_⟩
    have hlt := (List.getElem?_eq_some_iff.mp hy).1
    simp only [List.length_append, List.length_singleton] at hlt
    omega

theorem Line.Tail.concat_ne {c : ι} {p : Option Nat} (h : l.Tail xs c p) (hne : l.lane x ≠ c) :
    l.Tail (xs ++ [x]) c p := by
  constructor
  · intro i hi
    obtain ⟨y, hy, hc⟩ := h.1 i hi
    exact ⟨y, getElem?_concat_of_some hy, hc⟩
  · intro k y hy hc
    obtain hy | ⟨_, rfl⟩ := getElem?_concat_cases hy
    · exact h.2 k y hy hc
    · exact absurd hc hne

theorem Line.Tail.set {c : ι} {p : Option Nat} (h : l.Tail xs c p) (hx : xs[i]? = some x)
    (hlane : l.lane x' = l.lane x) : l.Tail (xs.set i x') c p := by
  constructor
  · intro k hk
    obtain ⟨y, hy, hc⟩ := h.1 k hk
    rw [getElem?_set_of_some hx]
    by_cases hki : k = i
    · subst hki
      obtain rfl := Option.some.inj (hx.symm.trans hy)
      exact ⟨x', if_pos rfl, hlane.trans hc⟩
    · exact ⟨y, (if_neg hki).trans hy, hc⟩
  · intro k y hy hc
    rw [getElem?_set_of_some hx] at hy
    by_cases hki : k = i
    · rw [if_pos hki] at hy
      obtain rfl := Option.some.inj hy
      exact h.2 k x (hki ▸ hx) (hlane.symm.trans hc)
    · rw [if_neg hki] at hy
      exact h.2 k y hy hc

theorem Line.Linked.concat (h : l.Linked xs) (htail : l.Tail xs (l.lane x) (l.before x)) :
    l.Linked (xs ++ [x]) := by
  intro i y hy
  obtain hy | ⟨rfl, rfl⟩ := getElem?_concat_cases hy
  · obtain ⟨hbefore, hlast⟩ := h i y hy
    constructor
    · intro p hp
      obtain ⟨hlt, z, hz, hc⟩ := hbefore p hp
      exact ⟨hlt, z, getElem?_concat_of_some hz, hc⟩
    · intro k z hz hk hc
      have hlt : i < xs.length := (List.getElem?_eq_some_iff.mp hy).1
      obtain hz | ⟨rfl, _⟩ := getElem?_concat_cases hz
      · exact hlast k z hz hk hc
      · omega
  · constructor
    · intro p hp
      obtain ⟨z, hz, hc⟩ := htail.1 p hp
      exact ⟨(List.getElem?_eq_some_iff.mp hz).1, z, getElem?_concat_of_some hz, hc⟩
    · intro k z hz hk hc
      obtain hz | ⟨rfl, _⟩ := getElem?_concat_cases hz
      · exact htail.2 k z hz hc
      · omega

theorem Line.Linked.set (h : l.Linked xs) (hx : xs[i]? = some x) (hlane : l.lane x' = l.lane x)
    (hbefore : l.before x' = l.before x) : l.Linked (xs.set i x') := by
  -- every place holds a job of the same lane with the same job before it
  have hold : ∀ (k : Nat) y, (xs.set i x')[k]? = some y →
      ∃ z, xs[k]? = some z ∧ l.lane y = l.lane z ∧ l.before y = l.before z := by
    intro k y hy
    rw [getElem?_set_of_some hx] at hy
    by_cases hki : k = i
    · rw [if_pos hki] at hy
      obtain rfl := Option.some.inj hy
      exact ⟨x, hki ▸ hx, hlane, hbefore⟩
    · rw [if_neg hki] at hy
      exact ⟨y, hy, rfl, rfl⟩
  intro k y hy
  obtain ⟨z, hz, hlanez, hbeforez⟩ := hold k y hy
  rw [hbeforez, hlanez]
  constructor
  · intro p hp
    obtain ⟨hlt, w, hw, hc⟩ := (h k z hz).1 p hp
    refine ⟨hlt, ?_⟩
    rw [getElem?_set_of_some hx]
    by_cases hpi : p = i
    · subst hpi
      obtain rfl := Option.some.inj (hx.symm.trans hw)
      exact ⟨x', if_pos rfl, hlane.trans hc⟩
    · exact ⟨w, (if_neg hpi).trans hw, hc⟩
  · intro m w hw hm hc
    obtain ⟨v, hv, hlanev, _⟩ := hold m w hw
    exact (h k z hz).2 m v hv hm (hlanev ▸ hc)

theorem Line.InTurn.concat (h : l.InTurn xs) (hx : ¬ l.started x) : l.InTurn (xs ++ [x]) := by
  intro i y hy hstarted k z hz hk hc
  obtain hy | ⟨_, rfl⟩ := getElem?_concat_cases hy
  · have hlt : i < xs.length := (List.getElem?_eq_some_iff.mp hy).1
    obtain hz | ⟨rfl, _⟩ := getElem?_concat_cases hz
    · exact h i y hy hstarted k z hz hk hc
    · omega
  · exact absurd hstarted hx

-- A job that waits for a settled one has its turn: all before it are over.
theorem Line.InTurn.settled_before (h : l.InTurn xs) (hlinked : l.Linked xs) (hx : xs[i]? = some x)
    (hfree : l.Free xs x) {k : Nat} {y : α} (hy : xs[k]? = some y) (hk : k < i)
    (hc : l.lane y = l.lane x) : l.settled y := by
  obtain ⟨p, hp, hkp⟩ := (hlinked i x hx).2 k y hy hk hc
  obtain ⟨z, hz, hsettled⟩ := hfree p hp
  rcases Nat.lt_or_eq_of_le hkp with hlt | rfl
  · obtain ⟨_, w, hw, hcw⟩ := (hlinked i x hx).1 p hp
    obtain rfl := Option.some.inj (hz.symm.trans hw)
    exact h p z hz (l.started_of_settled z hsettled) k y hy hlt (hc.trans hcw.symm)
  · obtain rfl := Option.some.inj (hz.symm.trans hy)
    exact hsettled

theorem Line.InTurn.set (h : l.InTurn xs) (hlinked : l.Linked xs) (hx : xs[i]? = some x)
    (hlane : l.lane x' = l.lane x) (hsettled : l.settled x → l.settled x')
    (hstarted : l.started x' → l.started x ∨ l.Free xs x) : l.InTurn (xs.set i x') := by
  intro k y hy hy' m z hz hm hc
  rw [getElem?_set_of_some hx] at hy hz
  by_cases hki : k = i
  · subst hki
    rw [if_pos rfl] at hy
    obtain rfl := Option.some.inj hy
    rw [if_neg (by omega)] at hz
    rcases hstarted hy' with hbefore | hfree
    · exact h k x hx hbefore m z hz hm (hc.trans hlane)
    · exact h.settled_before hlinked hx hfree hz hm (hc.trans hlane)
  · rw [if_neg hki] at hy
    by_cases hmi : m = i
    · subst hmi
      rw [if_pos rfl] at hz
      obtain rfl := Option.some.inj hz
      exact hsettled (h k y hy hy' m x hx hm (hlane.symm.trans hc))
    · rw [if_neg hmi] at hz
      exact h k y hy hy' m z hz hm hc

-- No two jobs of a lane run at once.
theorem Line.InTurn.running_unique (h : l.InTurn xs) {j : Nat} {y : α} (hx : xs[i]? = some x)
    (hy : xs[j]? = some y) (hlane : l.lane x = l.lane y) (hrx : l.Running x) (hry : l.Running y) : i = j := by
  rcases Nat.lt_trichotomy i j with hij | rfl | hij
  · exact absurd (h j y hy hry.1 i x hx hij hlane) hrx.2
  · rfl
  · exact absurd (h i x hx hrx.1 j y hy hij hlane.symm) hry.2

end Turns
