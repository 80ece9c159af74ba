import MeshClient.Lib.StableSort

namespace MeshClient.Reticulum

def MAX_PLAUSIBLE_PROPAGATION_HOPS : Nat := 32

def MAX_RF_PROPAGATION_HOPS : Nat := 2

inductive PathMediumSetting where
  | rf
  | network
  deriving DecidableEq, Repr

abbrev PnHash := Vector UInt8 16

structure PnCascadeCandidate where
  hash : PnHash
  isLocal : Bool
  isDiscovered : Bool
  hops : Option UInt8
  medium : Option PathMediumSetting
  id : String
  deriving DecidableEq

inductive PnCascadePick where
  | remote (hash : PnHash)
  | «local» (hash : PnHash)
  | exhausted
  deriving DecidableEq

def hopsRank : Option UInt8 → Nat
  | some h => if h.toNat ≤ MAX_PLAUSIBLE_PROPAGATION_HOPS then h.toNat else 255
  | none => 255

-- Unknown hops over RF cannot be assumed near.
def isSlowRfCandidate (medium : Option PathMediumSetting) (hops : Option UInt8) : Bool :=
  if medium ≠ some .rf then false
  else
    match hops with
    | some h => decide (MAX_RF_PROPAGATION_HOPS < h.toNat)
    | none => true

def PnCascadeCandidate.isSlow (c : PnCascadeCandidate) : Bool := isSlowRfCandidate c.medium c.hops

def mediumThenHopsRank (c : PnCascadeCandidate) : Nat ×ₗ Nat :=
  toLex (c.isSlow.toNat, hopsRank c.hops)

-- The keys by which the remotes are sorted, the first one deciding first.
def sortKey (c : PnCascadeCandidate) : Bool ×ₗ (Nat ×ₗ Nat) ×ₗ String :=
  toLex (c.isDiscovered, toLex (mediumThenHopsRank c, c.id))

def SortedBefore (a b : PnCascadeCandidate) : Prop := sortKey a ≤ sortKey b

instance : DecidableRel SortedBefore := fun a b => inferInstanceAs (Decidable (sortKey a ≤ sortKey b))
instance : Std.Total SortedBefore := ⟨fun a b => le_total (sortKey a) (sortKey b)⟩
instance : IsTrans PnCascadeCandidate SortedBefore := ⟨fun _ _ _ hab hbc => le_trans hab hbc⟩

def PnCascadeCandidate.isPreferred (preferredHash : Option PnHash) (c : PnCascadeCandidate) : Bool :=
  preferredHash == some c.hash

def sortedRemotes (candidates : List PnCascadeCandidate) : List PnCascadeCandidate :=
  (candidates.filter (!·.isLocal)).insertionSort SortedBefore

def buildPnCascadeOrder (candidates : List PnCascadeCandidate) (preferredHash : Option PnHash) :
    List PnCascadeCandidate :=
  let (usable, slowRf) := (sortedRemotes candidates).partition (!·.isSlow)
  let preferredUsable := usable.find? (·.isPreferred preferredHash)
  -- a preferred node that is slow RF is looked for only when no usable one is preferred
  let preferredSlow :=
    if preferredUsable.isSome then none else slowRf.find? (·.isPreferred preferredHash)
  let promoted := preferredSlow.map (·.hash)
  preferredSlow.toList ++
    (preferredUsable.toList ++ usable.eraseP (·.isPreferred preferredHash)) ++
    (candidates.find? (·.isLocal)).toList ++
    slowRf.filter (promoted != some ·.hash)

def pickOf (c : PnCascadeCandidate) : PnCascadePick :=
  if c.isLocal then .local c.hash else .remote c.hash

def pickNextPnCascade (tried : Finset PnHash) : List PnCascadeCandidate → PnCascadePick
  | [] => .exhausted
  | c :: ordered => if c.hash ∈ tried then pickNextPnCascade tried ordered else pickOf c

def PnCascadePick.hash : PnCascadePick → Option PnHash
  | .remote h => some h
  | .local h => some h
  | .exhausted => none

-- The answers to `n` deposits that all fail, each picked node being marked as tried.
def cascadeAttempts (ordered : List PnCascadeCandidate) : Nat → Finset PnHash → List PnCascadePick
  | 0, _ => []
  | n + 1, tried =>
      let pick := pickNextPnCascade tried ordered
      pick :: cascadeAttempts ordered n (tried ∪ pick.hash.toFinset)

@[simp] theorem pickOf_hash (c : PnCascadeCandidate) : (pickOf c).hash = some c.hash := by
  unfold pickOf
  split <;> rfl

section

variable {α : Type*} {p : α → Bool}

-- Moving the first match to the front loses nothing and adds nothing.
theorem find?_append_eraseP_perm (xs : List α) : ((xs.find? p).toList ++ xs.eraseP p).Perm xs := by
  induction xs with
  | nil => exact .nil
  | cons x xs ih =>
      by_cases hx : p x = true
      · rw [List.find?_cons_of_pos hx, List.eraseP_cons_of_pos hx]
        exact .refl _
      · rw [List.find?_cons_of_neg hx, List.eraseP_cons_of_neg hx]
        exact List.perm_middle.trans (ih.cons x)

theorem eraseP_eq_filter {xs : List α} (h : xs.Pairwise fun a b => p a = true → ¬p b = true) :
    xs.eraseP p = xs.filter (!p ·) := by
  induction xs with
  | nil => rfl
  | cons x xs ih =>
      obtain ⟨hfirst, hrest⟩ := List.pairwise_cons.mp h
      by_cases hx : p x = true
      · have hkept : ∀ y ∈ xs, (!p y) = true := fun y hy => by simpa using hfirst y hy hx
        rw [List.eraseP_cons_of_pos hx, List.filter_cons_of_neg (by simpa using hx),
          List.filter_eq_self.mpr hkept]
      · rw [List.eraseP_cons_of_neg hx, List.filter_cons_of_pos (by simpa using hx), ih hrest]

end

variable {candidates : List PnCascadeCandidate} {pref : Option PnHash} {a b c : PnCascadeCandidate}

theorem mem_sortedRemotes : c ∈ sortedRemotes candidates ↔ c ∈ candidates ∧ c.isLocal = false := by
  simp [sortedRemotes]

theorem isPreferred_iff : c.isPreferred pref = true ↔ pref = some c.hash := by
  simp [PnCascadeCandidate.isPreferred]

theorem isPreferred_eq_false_iff : c.isPreferred pref = false ↔ pref ≠ some c.hash := by
  simp [PnCascadeCandidate.isPreferred]

def usableRemotes (candidates : List PnCascadeCandidate) : List PnCascadeCandidate :=
  (sortedRemotes candidates).filter (!·.isSlow)

def slowRemotes (candidates : List PnCascadeCandidate) : List PnCascadeCandidate :=
  (sortedRemotes candidates).filter (·.isSlow)

def preferredRemote (candidates : List PnCascadeCandidate) (pref : Option PnHash) :
    Option PnCascadeCandidate :=
  ((usableRemotes candidates).find? (·.isPreferred pref)).or
    ((slowRemotes candidates).find? (·.isPreferred pref))

theorem mem_usableRemotes :
    c ∈ usableRemotes candidates ↔ (c ∈ candidates ∧ c.isLocal = false) ∧ c.isSlow = false := by
  simp [usableRemotes, mem_sortedRemotes]

theorem mem_slowRemotes :
    c ∈ slowRemotes candidates ↔ (c ∈ candidates ∧ c.isLocal = false) ∧ c.isSlow = true := by
  simp [slowRemotes, mem_sortedRemotes]

section

variable (hn : (candidates.map (·.hash)).Nodup)

include hn

theorem eq_of_hash_eq (ha : a ∈ candidates) (hb : b ∈ candidates) (h : a.hash = b.hash) : a = b :=
  List.inj_on_of_nodup_map hn ha hb h

theorem eq_of_isPreferred (ha : a ∈ candidates) (hb : b ∈ candidates)
    (hpa : a.isPreferred pref = true) (hpb : b.isPreferred pref = true) : a = b := by
  rw [isPreferred_iff] at hpa hpb
  exact eq_of_hash_eq hn ha hb (Option.some.inj (hpa.symm.trans hpb))

theorem sortedRemotes_nodup : (sortedRemotes candidates).Nodup :=
  (List.perm_insertionSort _ _).nodup_iff.mpr (hn.of_map.filter _)

theorem preferredRemote_eq_some_iff : preferredRemote candidates pref = some c ↔
    (c ∈ candidates ∧ c.isLocal = false) ∧ pref = some c.hash := by
  constructor
  · intro h
    rw [← isPreferred_iff]
    rcases Option.or_eq_some_iff.mp h with h | ⟨-, h⟩
    · exact ⟨(mem_usableRemotes.mp (List.mem_of_find?_eq_some h)).1, List.find?_some h⟩
    · exact ⟨(mem_slowRemotes.mp (List.mem_of_find?_eq_some h)).1, List.find?_some h⟩
  · rintro ⟨hc, hpref⟩
    rw [← isPreferred_iff] at hpref
    have hfound : (preferredRemote candidates pref).isSome = true := by
      rw [preferredRemote, Option.isSome_or, Bool.or_eq_true, List.find?_isSome, List.find?_isSome]
      cases hslow : c.isSlow with
      | false => exact .inl ⟨c, mem_usableRemotes.mpr ⟨hc, hslow⟩, hpref⟩
      | true => exact .inr ⟨c, mem_slowRemotes.mpr ⟨hc, hslow⟩, hpref⟩
    obtain ⟨d, hd⟩ := Option.isSome_iff_exists.mp hfound
    have hd' : (d ∈ candidates ∧ d.isLocal = false) ∧ d.isPreferred pref = true := by
      rcases Option.or_eq_some_iff.mp hd with h | ⟨-, h⟩
      · exact ⟨(mem_usableRemotes.mp (List.mem_of_find?_eq_some h)).1, List.find?_some h⟩
      · exact ⟨(mem_slowRemotes.mp (List.mem_of_find?_eq_some h)).1, List.find?_some h⟩
    rw [hd, eq_of_isPreferred hn hd'.1.1 hc.1 hd'.2 hpref]

-- The order consists of the preferred remote, the other usable ones, the local entry and the
-- other slow ones.
theorem buildPnCascadeOrder_eq : buildPnCascadeOrder candidates pref =
    (preferredRemote candidates pref).toList ++
      (usableRemotes candidates).filter (!·.isPreferred pref) ++
      (candidates.find? (·.isLocal)).toList ++
      (slowRemotes candidates).filter (!·.isPreferred pref) := by
  have herase : (usableRemotes candidates).eraseP (·.isPreferred pref) =
      (usableRemotes candidates).filter (!·.isPreferred pref) := by
    apply eraseP_eq_filter
    have hnodup : (usableRemotes candidates).Nodup := (sortedRemotes_nodup hn).filter _
    refine hnodup.imp_of_mem fun ha hb hab hpa hpb => hab ?_
    exact eq_of_isPreferred hn (mem_usableRemotes.mp ha).1.1 (mem_usableRemotes.mp hb).1.1 hpa hpb
  have hparts : (sortedRemotes candidates).partition (!·.isSlow) =
      (usableRemotes candidates, slowRemotes candidates) := by
    rw [List.partition_eq_filter_filter]
    simp only [usableRemotes, slowRemotes, Bool.not_not, Function.comp_def]
  simp only [buildPnCascadeOrder, hparts, herase, preferredRemote]
  cases hu : (usableRemotes candidates).find? (·.isPreferred pref) with
  | some u =>
      have hslow : (slowRemotes candidates).filter (!·.isPreferred pref) = slowRemotes candidates := by
        rw [List.filter_eq_self]
        intro s hs
        rw [Bool.not_eq_true', Bool.eq_false_iff]
        intro hp
        have hu' := mem_usableRemotes.mp (List.mem_of_find?_eq_some hu)
        have hs' := mem_slowRemotes.mp hs
        have heq := eq_of_isPreferred hn hu'.1.1 hs'.1.1 (List.find?_some hu) hp
        rw [heq, hs'.2] at hu'
        exact Bool.noConfusion hu'.2
      rw [hslow]
      simp [Option.or]
  | none =>
      cases hs : (slowRemotes candidates).find? (·.isPreferred pref) with
      | some s =>
          have hpref := isPreferred_iff.mp (List.find?_some hs)
          simp only [hpref, PnCascadeCandidate.isPreferred, Option.map_some, Option.isSome_none,
            Bool.false_eq_true, if_false, Option.or, Option.toList_none, List.nil_append]
          rfl
      | none =>
          have hslow : (slowRemotes candidates).filter (!·.isPreferred pref) = slowRemotes candidates := by
            rw [List.filter_eq_self]
            intro s hmem
            simpa using List.find?_eq_none.mp hs s hmem
          rw [hslow]
          simp [Option.or]

end

-- The order in which the cascade has to try the candidates.
structure CascadePolicy (candidates : List PnCascadeCandidate) (pref : Option PnHash)
    (order : List PnCascadeCandidate) : Prop where
  complete : order.Perm candidates
  preferredFirst : ∀ c ∈ candidates, c.isLocal = false → pref = some c.hash → order.head? = some c
  localBeforeSlow : ∀ l ∈ candidates, ∀ c ∈ candidates, l.isLocal = true → c.isLocal = false →
    c.isSlow = true → pref ≠ some c.hash → [l, c].Sublist order
  usableBeforeLocal : ∀ c ∈ candidates, ∀ l ∈ candidates, c.isLocal = false → c.isSlow = false →
    l.isLocal = true → [c, l].Sublist order
  usableBeforeSlow : ∀ c ∈ candidates, ∀ d ∈ candidates, c.isLocal = false → c.isSlow = false →
    d.isLocal = false → d.isSlow = true → pref ≠ some d.hash → [c, d].Sublist order
  addedBeforeDiscovered : ∀ a ∈ candidates, ∀ b ∈ candidates, a.isLocal = false → b.isLocal = false →
    a.isSlow = false → b.isSlow = false → pref ≠ some a.hash → pref ≠ some b.hash →
    a.isDiscovered = false → b.isDiscovered = true → [a, b].Sublist order
  nearerFirst : ∀ a b, [a, b].Sublist order → a.isLocal = false → b.isLocal = false →
    a.isSlow = false → b.isSlow = false → pref ≠ some a.hash → pref ≠ some b.hash →
    a.isDiscovered = b.isDiscovered → hopsRank a.hops ≤ hopsRank b.hops

theorem sortedBefore_iff : SortedBefore a b ↔ a.isDiscovered < b.isDiscovered ∨
    a.isDiscovered = b.isDiscovered ∧ (mediumThenHopsRank a < mediumThenHopsRank b ∨
      mediumThenHopsRank a = mediumThenHopsRank b ∧ a.id ≤ b.id) := by
  simp only [SortedBefore, sortKey, Prod.Lex.toLex_le_toLex]

theorem mediumThenHopsRank_le_iff (h : a.isSlow = b.isSlow) :
    mediumThenHopsRank a ≤ mediumThenHopsRank b ↔ hopsRank a.hops ≤ hopsRank b.hops := by
  simp [mediumThenHopsRank, Prod.Lex.toLex_le_toLex, h]

theorem toList_nodup {α : Type*} (o : Option α) : o.toList.Nodup := by
  cases o <;> simp

theorem pair_sublist_append {α : Type*} {x y : α} {xs ys : List α} (hx : x ∈ xs) (hy : y ∈ ys) :
    [x, y].Sublist (xs ++ ys) :=
  (List.singleton_sublist.mpr hx).append (List.singleton_sublist.mpr hy)

def otherUsable (candidates : List PnCascadeCandidate) (pref : Option PnHash) : List PnCascadeCandidate :=
  (usableRemotes candidates).filter (!·.isPreferred pref)

def otherSlow (candidates : List PnCascadeCandidate) (pref : Option PnHash) : List PnCascadeCandidate :=
  (slowRemotes candidates).filter (!·.isPreferred pref)

theorem mem_otherUsable : c ∈ otherUsable candidates pref ↔
    ((c ∈ candidates ∧ c.isLocal = false) ∧ c.isSlow = false) ∧ pref ≠ some c.hash := by
  rw [otherUsable, List.mem_filter, mem_usableRemotes, Bool.not_eq_true', isPreferred_eq_false_iff]

theorem mem_otherSlow : c ∈ otherSlow candidates pref ↔
    ((c ∈ candidates ∧ c.isLocal = false) ∧ c.isSlow = true) ∧ pref ≠ some c.hash := by
  rw [otherSlow, List.mem_filter, mem_slowRemotes, Bool.not_eq_true', isPreferred_eq_false_iff]

theorem otherUsable_sorted : (otherUsable candidates pref).Pairwise SortedBefore :=
  (List.pairwise_insertionSort SortedBefore _).sublist
    (List.filter_sublist.trans List.filter_sublist)

section

variable (hn : (candidates.map (·.hash)).Nodup) (hlocal : (candidates.filter (·.isLocal)).length ≤ 1)

include hlocal in
theorem find?_isLocal_eq_some_iff :
    candidates.find? (·.isLocal) = some c ↔ c ∈ candidates ∧ c.isLocal = true := by
  rw [← List.head?_filter, ← List.mem_filter]
  generalize candidates.filter (·.isLocal) = locals at hlocal
  cases locals with
  | nil => exact iff_of_false (by simp) List.not_mem_nil
  | cons d rest =>
      have hrest : rest = [] := List.length_eq_zero_iff.mp (by simpa using hlocal)
      rw [hrest, List.head?_cons, Option.some_inj, List.mem_singleton, eq_comm]

include hn hlocal

theorem mem_buildPnCascadeOrder : c ∈ buildPnCascadeOrder candidates pref ↔ c ∈ candidates := by
  rw [buildPnCascadeOrder_eq hn, ← otherUsable, ← otherSlow]
  simp only [List.mem_append, Option.mem_toList, preferredRemote_eq_some_iff hn,
    find?_isLocal_eq_some_iff hlocal, mem_otherUsable, mem_otherSlow]
  by_cases hl : c.isLocal = true
  · simp [hl]
  · by_cases hs : c.isSlow = true
    · simp only [hl, hs]
      tauto
    · simp only [hl, hs]
      tauto

theorem buildPnCascadeOrder_nodup : (buildPnCascadeOrder candidates pref).Nodup := by
  have hsorted := sortedRemotes_nodup hn
  rw [buildPnCascadeOrder_eq hn, ← otherUsable, ← otherSlow]
  have hu : (otherUsable candidates pref).Nodup := (hsorted.filter _).filter _
  have hs : (otherSlow candidates pref).Nodup := (hsorted.filter _).filter _
  refine List.nodup_append'.mpr ⟨List.nodup_append'.mpr ⟨List.nodup_append'.mpr ⟨toList_nodup _, hu, ?_⟩,
    toList_nodup _, ?_⟩, hs, ?_⟩
  · intro c hp hc
    exact (mem_otherUsable.mp hc).2 ((preferredRemote_eq_some_iff hn).mp (Option.mem_toList.mp hp)).2
  · intro c hc hl
    have hloc := ((find?_isLocal_eq_some_iff hlocal).mp (Option.mem_toList.mp hl)).2
    rcases List.mem_append.mp hc with hp | hc
    · have hrem := ((preferredRemote_eq_some_iff hn).mp (Option.mem_toList.mp hp)).1.2
      exact Bool.noConfusion (hloc.symm.trans hrem)
    · exact Bool.noConfusion (hloc.symm.trans (mem_otherUsable.mp hc).1.1.2)
  · intro c hc hslow
    obtain ⟨⟨⟨-, hrem⟩, hs⟩, hpref⟩ := mem_otherSlow.mp hslow
    rcases List.mem_append.mp hc with hc | hl
    · rcases List.mem_append.mp hc with hp | hc
      · exact hpref ((preferredRemote_eq_some_iff hn).mp (Option.mem_toList.mp hp)).2
      · exact Bool.noConfusion (hs.symm.trans (mem_otherUsable.mp hc).1.2)
    · have hloc := ((find?_isLocal_eq_some_iff hlocal).mp (Option.mem_toList.mp hl)).2
      exact Bool.noConfusion (hloc.symm.trans hrem)

theorem buildPnCascadeOrder_perm : (buildPnCascadeOrder candidates pref).Perm candidates :=
  (List.perm_ext_iff_of_nodup (buildPnCascadeOrder_nodup hn hlocal) hn.of_map).mpr fun _ =>
    mem_buildPnCascadeOrder hn hlocal

-- The part of the order that the sort decides is what is left of it without the preferred, the
-- local and the slow candidates.
theorem filter_buildPnCascadeOrder : (buildPnCascadeOrder candidates pref).filter
      (fun c => !c.isLocal && !c.isSlow && !c.isPreferred pref) = otherUsable candidates pref := by
  rw [buildPnCascadeOrder_eq hn, ← otherUsable, ← otherSlow]
  simp only [List.filter_append]
  have hp : (preferredRemote candidates pref).toList.filter
      (fun c => !c.isLocal && !c.isSlow && !c.isPreferred pref) = [] := by
    rw [List.filter_eq_nil_iff]
    intro c hc
    have hpref := isPreferred_iff.mpr ((preferredRemote_eq_some_iff hn).mp (Option.mem_toList.mp hc)).2
    simp [hpref]
  have hl : (candidates.find? (·.isLocal)).toList.filter
      (fun c => !c.isLocal && !c.isSlow && !c.isPreferred pref) = [] := by
    rw [List.filter_eq_nil_iff]
    intro c hc
    have hloc := ((find?_isLocal_eq_some_iff hlocal).mp (Option.mem_toList.mp hc)).2
    simp [hloc]
  have hs : (otherSlow candidates pref).filter
      (fun c => !c.isLocal && !c.isSlow && !c.isPreferred pref) = [] := by
    rw [List.filter_eq_nil_iff]
    intro c hc
    simp [(mem_otherSlow.mp hc).1.2]
  have hu : (otherUsable candidates pref).filter
      (fun c => !c.isLocal && !c.isSlow && !c.isPreferred pref) = otherUsable candidates pref := by
    rw [List.filter_eq_self]
    intro c hc
    obtain ⟨⟨⟨-, hrem⟩, hfast⟩, hpref⟩ := mem_otherUsable.mp hc
    simp [hrem, hfast, isPreferred_eq_false_iff.mpr hpref]
  rw [hp, hl, hs, hu, List.nil_append, List.append_nil, List.append_nil]

theorem buildPnCascadeOrder_policy :
    CascadePolicy candidates pref (buildPnCascadeOrder candidates pref) where
  complete := buildPnCascadeOrder_perm hn hlocal
  preferredFirst := by
    intro c hc hrem hpref
    rw [buildPnCascadeOrder_eq hn, (preferredRemote_eq_some_iff hn).mpr ⟨⟨hc, hrem⟩, hpref⟩]
    rfl
  localBeforeSlow := by
    intro l hl c hc hloc hrem hslow hpref
    rw [buildPnCascadeOrder_eq hn]
    refine pair_sublist_append (List.mem_append_right _ ?_) (mem_otherSlow.mpr ⟨⟨⟨hc, hrem⟩, hslow⟩, hpref⟩)
    exact Option.mem_toList.mpr ((find?_isLocal_eq_some_iff hlocal).mpr ⟨hl, hloc⟩)
  usableBeforeLocal := by
    intro c hc l hl hrem hfast hloc
    rw [buildPnCascadeOrder_eq hn]
    have hmem : c ∈ (preferredRemote candidates pref).toList ++ otherUsable candidates pref := by
      by_cases hpref : pref = some c.hash
      · apply List.mem_append_left
        exact Option.mem_toList.mpr ((preferredRemote_eq_some_iff hn).mpr ⟨⟨hc, hrem⟩, hpref⟩)
      · apply List.mem_append_right
        exact mem_otherUsable.mpr ⟨⟨⟨hc, hrem⟩, hfast⟩, hpref⟩
    apply (pair_sublist_append hmem ?_).trans (List.sublist_append_left _ _)
    exact Option.mem_toList.mpr ((find?_isLocal_eq_some_iff hlocal).mpr ⟨hl, hloc⟩)
  usableBeforeSlow := by
    intro c hc d hd hrem hfast hrem' hslow hpref
    rw [buildPnCascadeOrder_eq hn]
    refine pair_sublist_append (List.mem_append_left _ ?_) (mem_otherSlow.mpr ⟨⟨⟨hd, hrem'⟩, hslow⟩, hpref⟩)
    by_cases hpref' : pref = some c.hash
    · apply List.mem_append_left
      exact Option.mem_toList.mpr ((preferredRemote_eq_some_iff hn).mpr ⟨⟨hc, hrem⟩, hpref'⟩)
    · apply List.mem_append_right
      exact mem_otherUsable.mpr ⟨⟨⟨hc, hrem⟩, hfast⟩, hpref'⟩
  addedBeforeDiscovered := by
    intro a ha b hb hra hrb hfa hfb hpa hpb hadded hdiscovered
    have hmema : a ∈ otherUsable candidates pref := mem_otherUsable.mpr ⟨⟨⟨ha, hra⟩, hfa⟩, hpa⟩
    have hmemb : b ∈ otherUsable candidates pref := mem_otherUsable.mpr ⟨⟨⟨hb, hrb⟩, hfb⟩, hpb⟩
    have hne : a ≠ b := by
      rintro rfl
      exact Bool.noConfusion (hadded.symm.trans hdiscovered)
    have hsub : [a, b].Sublist (otherUsable candidates pref) := by
      refine (StableSort.pair_sublist_or hmema hmemb hne).resolve_right fun hba => ?_
      have hle := List.pairwise_iff_forall_sublist.mp otherUsable_sorted hba
      rw [sortedBefore_iff, hadded, hdiscovered] at hle
      rcases hle with hlt | ⟨heq, -⟩
      · exact absurd hlt (by decide)
      · cases heq
    rw [← filter_buildPnCascadeOrder hn hlocal] at hsub
    exact hsub.trans List.filter_sublist
  nearerFirst := by
    intro a b hab hra hrb hfa hfb hpa hpb hclass
    have hkept := hab.filter (fun c => !c.isLocal && !c.isSlow && !c.isPreferred pref)
    rw [filter_buildPnCascadeOrder hn hlocal, List.filter_eq_self.mpr] at hkept
    · have hle := List.pairwise_iff_forall_sublist.mp otherUsable_sorted hkept
      rw [sortedBefore_iff, hclass] at hle
      have hrank : mediumThenHopsRank a ≤ mediumThenHopsRank b := by
        rcases (hle.resolve_left (lt_irrefl _)).2 with hlt | ⟨heq, -⟩
        · exact hlt.le
        · exact heq.le
      exact (mediumThenHopsRank_le_iff (hfa.trans hfb.symm)).mp hrank
    · intro c hc
      rw [← isPreferred_eq_false_iff] at hpa hpb
      rcases List.mem_pair.mp hc with rfl | rfl
      · simp [hra, hfa, hpa]
      · simp [hrb, hfb, hpb]

end

-- Each failed deposit moves on to the next candidate of the order.
theorem pickNextPnCascade_skip {tried : Finset PnHash} {front rest : List PnCascadeCandidate}
    (h : ∀ c ∈ front, c.hash ∈ tried) :
    pickNextPnCascade tried (front ++ rest) = pickNextPnCascade tried rest := by
  induction front with
  | nil => rfl
  | cons c front ih =>
      rw [List.cons_append, pickNextPnCascade, if_pos (h c List.mem_cons_self)]
      exact ih fun d hd => h d (List.mem_cons_of_mem c hd)

theorem cascadeAttempts_exhausted {ordered : List PnCascadeCandidate} {tried : Finset PnHash}
    (h : ∀ c ∈ ordered, c.hash ∈ tried) (n : Nat) :
    cascadeAttempts ordered n tried = List.replicate n .exhausted := by
  induction n with
  | zero => rfl
  | succ n ih =>
      have hpick : pickNextPnCascade tried ordered = .exhausted := by
        simpa [pickNextPnCascade] using @pickNextPnCascade_skip tried ordered [] h
      rw [cascadeAttempts, hpick, List.replicate_succ]
      simpa [PnCascadePick.hash] using ih

-- With the first candidates tried and no other one, the attempts go through the others in turn.
theorem cascadeAttempts_eq {front rest : List PnCascadeCandidate} {tried : Finset PnHash}
    (hn : ((front ++ rest).map (·.hash)).Nodup)
    (htried : ∀ h, h ∈ tried ↔ ∃ c ∈ front, c.hash = h) (n : Nat) :
    cascadeAttempts (front ++ rest) (rest.length + n) tried =
      rest.map pickOf ++ List.replicate n .exhausted := by
  induction rest generalizing front tried with
  | nil =>
      rw [List.length_nil, Nat.zero_add, List.map_nil, List.nil_append]
      apply cascadeAttempts_exhausted
      intro c hc
      exact (htried c.hash).mpr ⟨c, by simpa using hc, rfl⟩
  | cons c rest ih =>
      have huntried : c.hash ∉ tried := by
        intro hmem
        obtain ⟨d, hd, heq⟩ := (htried c.hash).mp hmem
        rw [List.map_append, List.map_cons] at hn
        apply (List.nodup_append'.mp hn).2.2 (List.mem_map.mpr ⟨d, hd, heq⟩)
        exact List.mem_cons_self
      have hpick : pickNextPnCascade tried (front ++ c :: rest) = pickOf c := by
        rw [pickNextPnCascade_skip fun d hd => (htried d.hash).mpr ⟨d, hd, rfl⟩, pickNextPnCascade,
          if_neg huntried]
      have hfront : front ++ c :: rest = (front ++ [c]) ++ rest := by simp
      rw [List.length_cons, Nat.add_right_comm, cascadeAttempts, hpick, pickOf_hash, List.map_cons,
        List.cons_append]
      rw [hfront] at hn ⊢
      rw [ih hn]
      intro h
      simp [htried, or_comm, eq_comm]

theorem pnCascade_visits_in_policy_order (candidates : List PnCascadeCandidate) (pref : Option PnHash)
    (hn : (candidates.map (·.hash)).Nodup) (hlocal : (candidates.filter (·.isLocal)).length ≤ 1) :
    CascadePolicy candidates pref (buildPnCascadeOrder candidates pref) ∧
    ∀ n, cascadeAttempts (buildPnCascadeOrder candidates pref) (candidates.length + n) ∅ =
      (buildPnCascadeOrder candidates pref).map pickOf ++ List.replicate n .exhausted := by
  have hperm := @buildPnCascadeOrder_perm candidates pref hn hlocal
  refine ⟨buildPnCascadeOrder_policy hn hlocal, fun n => ?_⟩
  rw [← hperm.length_eq]
  apply @cascadeAttempts_eq [] (buildPnCascadeOrder candidates pref)
  · rw [List.nil_append]
    exact (hperm.map _).nodup_iff.mpr hn
  · simp

-- A distant radio node, the local inbox and a node on the network.
def mixedCandidates : List PnCascadeCandidate :=
  [⟨.replicate 16 1, false, false, some 4, some .rf, "radio"⟩,
    ⟨.replicate 16 2, true, false, none, none, "inbox"⟩,
    ⟨.replicate 16 3, false, true, some 2, some .network, "server"⟩]

theorem pnCascade_visits_in_policy_order_mixed :
    CascadePolicy mixedCandidates none (buildPnCascadeOrder mixedCandidates none) ∧
    ∀ n, cascadeAttempts (buildPnCascadeOrder mixedCandidates none) (mixedCandidates.length + n) ∅ =
      (buildPnCascadeOrder mixedCandidates none).map pickOf ++ List.replicate n .exhausted :=
  pnCascade_visits_in_policy_order mixedCandidates none (by decide) (by decide)

-- A node the user prefers is tried first even when it is a distant radio node.
example : (buildPnCascadeOrder mixedCandidates (some (.replicate 16 1))).map (·.id) =
    ["radio", "server", "inbox"] := by decide

end MeshClient.Reticulum
