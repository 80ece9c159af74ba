import MeshClient.Reticulum.PathFailover

namespace MeshClient.Reticulum

open Run

variable {slots : List PathSlot} {t t' : FailoverTracker} {failedVia : Option Text} {preferIfaces names names' : List Text}
  {c c' : PathSlotCandidate} {n : Text} {name name' : Option Text}

def recordAttempt (t : FailoverTracker) (attempt : Option Text × Option Text) : FailoverTracker :=
  recordPathFailoverAttempt t attempt.1 attempt.2

def sameName (name name' : Option Text) : Bool := name.any fun n => name'.any fun n' => eqIgnoreAsciiCase n n'

theorem sameName_iff : sameName name name' = true ↔
    ∃ n n', name = some n ∧ name' = some n' ∧ eqIgnoreAsciiCase n n' = true := by
  cases name <;> cases name' <;> simp [sameName]

theorem nameBlocked_mono (h : ∀ b ∈ names, b ∈ names') (hblocked : nameBlocked name names = true) :
    nameBlocked name names' = true := by
  cases name with
  | none => exact hblocked
  | some n =>
      rw [nameBlocked_some] at hblocked ⊢
      obtain ⟨b, hb, heq⟩ := hblocked
      exact ⟨b, h b hb, heq⟩

theorem nameBlocked_same (hblocked : nameBlocked name names = true) (hsame : sameName name name' = true) :
    nameBlocked name' names = true := by
  obtain ⟨n, n', rfl, rfl, heq⟩ := sameName_iff.mp hsame
  rw [nameBlocked_some] at hblocked ⊢
  obtain ⟨b, hb, hbn⟩ := hblocked
  refine ⟨b, hb, ?_⟩
  rw [eqIgnoreAsciiCase_iff] at hbn heq ⊢
  exact hbn.trans heq

-- What is blocked stays blocked, whatever is recorded afterwards.
theorem blockedIfaces_run (h : Reachable recordAttempt t t') (hblocked : nameBlocked name t.blockedIfaces = true) :
    nameBlocked name t'.blockedIfaces = true := by
  refine @Reachable.invariant _ _ recordAttempt (fun t => nameBlocked name t.blockedIfaces = true) _ _ h hblocked ?_
  intro t attempt hold
  exact nameBlocked_mono (subset_pushName t.blockedIfaces attempt.1) hold

theorem blockedVias_run (h : Reachable recordAttempt t t') (hblocked : nameBlocked name t.blockedVias = true) :
    nameBlocked name t'.blockedVias = true := by
  refine @Reachable.invariant _ _ recordAttempt (fun t => nameBlocked name t.blockedVias = true) _ _ h hblocked ?_
  intro t attempt hold
  exact nameBlocked_mono (subset_pushName t.blockedVias attempt.2) hold

theorem names_of_live (h : c ∈ liveCandidates slots) :
    (∀ n, c.iface = some n → n ≠ [] ∧ ∃ s ∈ slots, s.interface = some n) ∧ ∀ n, c.via = some n → n ≠ [] := by
  obtain ⟨s, hs, _, hc⟩ := mem_liveCandidates.mp h
  rw [slotCandidate, Option.map_eq_some_iff] at hc
  obtain ⟨_, _, rfl⟩ := hc
  constructor
  · intro n hn
    obtain ⟨hn, hne⟩ := Option.filter_eq_some_iff.mp hn
    exact ⟨by simpa using hne, s, hs, hn⟩
  · intro n hn
    obtain ⟨_, hne⟩ := Option.filter_eq_some_iff.mp hn
    simpa using hne

-- A candidate that is blocked for good once it is recorded.
def Recordable (c : PathSlotCandidate) : Prop := c.iface ≠ none ∨ ∃ v, c.via = some v ∧ trim v = v

instance : DecidablePred Recordable := fun c =>
  inferInstanceAs (Decidable (c.iface ≠ none ∨ ∃ v, v ∈ c.via ∧ trim v = v))

theorem blocked_of_record (hslots : ∀ s ∈ slots, ∀ n, s.interface = some n → trim n = n) (hc : c ∈ liveCandidates slots)
    (hrecordable : Recordable c) (t : FailoverTracker) (failedVia : Option Text) :
    slotIsUnblocked c (recordPathFailoverAttempt t c.iface c.via).blockedIfaces
      (recordPathFailoverAttempt t c.iface c.via).blockedVias failedVia = false := by
  obtain ⟨hiface, hvia⟩ := names_of_live hc
  rw [← Bool.not_eq_true, unblocked_iff]
  intro ⟨hopenIface, hopenVia, _⟩
  obtain hsome | ⟨v, hv, htrim⟩ := hrecordable
  · obtain ⟨n, hn⟩ := Option.ne_none_iff_exists'.mp hsome
    obtain ⟨hne, s, hs, hname⟩ := hiface n hn
    have hblocked := @nameBlocked_pushName t.blockedIfaces n hne (hslots s hs n hname)
    simp only [recordPathFailoverAttempt, hn, hblocked] at hopenIface
    cases hopenIface
  · have hblocked := @nameBlocked_pushName t.blockedVias v (hvia v hv) htrim
    simp only [recordPathFailoverAttempt, hv, hblocked] at hopenVia
    cases hopenVia

-- Recording only takes candidates away.
theorem openCandidates_record (attempt : Option Text × Option Text) :
    openCandidates slots (recordAttempt t attempt) failedVia = (openCandidates slots t failedVia).filter fun c =>
      slotIsUnblocked c (recordAttempt t attempt).blockedIfaces (recordAttempt t attempt).blockedVias failedVia := by
  rw [openCandidates, openCandidates, List.filter_filter]
  refine List.filter_congr ?_
  intro c _
  rw [Bool.eq_iff_iff, Bool.and_eq_true]
  refine ⟨fun h => ⟨h, ?_⟩, fun h => h.1⟩
  rw [unblocked_iff] at h ⊢
  obtain ⟨hiface, hvia, hfailed⟩ := h
  refine ⟨?_, ?_, hfailed⟩
  · rw [← Bool.not_eq_true] at hiface ⊢
    exact fun hold => hiface (nameBlocked_mono (subset_pushName t.blockedIfaces attempt.1) hold)
  · rw [← Bool.not_eq_true] at hvia ⊢
    exact fun hold => hvia (nameBlocked_mono (subset_pushName t.blockedVias attempt.2) hold)

-- Each pick leaves one open candidate less.
theorem length_failoverPicks_le (hslots : ∀ s ∈ slots, ∀ n, s.interface = some n → trim n = n) (rounds : Nat)
    (t : FailoverTracker) (hrecordable : ∀ c ∈ openCandidates slots t failedVia, Recordable c) :
    (failoverPicks slots failedVia preferIfaces rounds t).length ≤ (openCandidates slots t failedVia).length := by
  induction rounds generalizing t with
  | zero => exact Nat.zero_le _
  | succ rounds ih =>
      rw [failoverPicks]
      cases hselect : selectUnblockedSlot slots t.blockedIfaces t.blockedVias failedVia preferIfaces with
      | none => exact Nat.zero_le _
      | some c =>
          rw [select_eq, bestOf_eq_some] at hselect
          have hc := hselect.mem
          have hfilter := @openCandidates_record slots t failedVia (c.iface, c.via)
          have hfewer : (openCandidates slots (recordAttempt t (c.iface, c.via)) failedVia).length <
              (openCandidates slots t failedVia).length := by
            rw [hfilter, List.length_filter_lt_length_iff_exists]
            refine ⟨c, hc, ?_⟩
            have hblocked := blocked_of_record hslots (mem_openCandidates.mp hc).1 (hrecordable c hc) t failedVia
            simpa [recordAttempt] using hblocked
          have hrest := ih (recordAttempt t (c.iface, c.via)) (by
            intro d hd
            rw [hfilter] at hd
            exact hrecordable d (List.mem_of_mem_filter hd))
          change (failoverPicks slots failedVia preferIfaces rounds (recordAttempt t (c.iface, c.via))).length + 1 ≤ _
          omega

-- A candidate that leaves no name to block it by stays open.
theorem open_of_not_recordable (hrecordable : ¬ Recordable c) (hc : c ∈ openCandidates slots t failedVia)
    (attempt : Option Text × Option Text) : c ∈ openCandidates slots (recordAttempt t attempt) failedVia := by
  simp only [Recordable, not_or, not_not, not_exists, not_and] at hrecordable
  obtain ⟨hiface, hvia⟩ := hrecordable
  rw [openCandidates_record, List.mem_filter]
  refine ⟨hc, ?_⟩
  rw [mem_openCandidates, unblocked_iff] at hc
  obtain ⟨_, _, hopenVia, hfailed⟩ := hc
  rw [unblocked_iff]
  refine ⟨by simp [hiface, nameBlocked], ?_, hfailed⟩
  cases hv : c.via with
  | none => rfl
  | some v =>
      rw [hv] at hopenVia
      exact not_nameBlocked_pushName attempt.2 (hvia v hv) hopenVia

theorem length_failoverPicks_of_open (hrecordable : ¬ Recordable c) (rounds : Nat) (t : FailoverTracker)
    (hc : c ∈ openCandidates slots t failedVia) : (failoverPicks slots failedVia preferIfaces rounds t).length = rounds := by
  induction rounds generalizing t with
  | zero => rfl
  | succ rounds ih =>
      rw [failoverPicks]
      cases hselect : selectUnblockedSlot slots t.blockedIfaces t.blockedVias failedVia preferIfaces with
      | none =>
          rw [select_eq, bestOf_eq_none] at hselect
          rw [hselect] at hc
          cases hc
      | some d =>
          have hopen := open_of_not_recordable hrecordable hc (d.iface, d.via)
          exact congrArg (· + 1) (ih (recordAttempt t (d.iface, d.via)) hopen)

-- A path that was picked and recorded is not picked again, whatever is recorded and seen later.
def PicksApart (slots : List PathSlot) (failedVia : Option Text) (preferIfaces : List Text) (t : FailoverTracker) : Prop :=
  ∀ c, selectUnblockedSlot slots t.blockedIfaces t.blockedVias failedVia preferIfaces = some c →
    ∀ t', Reachable recordAttempt (recordPathFailoverAttempt t c.iface c.via) t' →
      ∀ laterSlots laterVia laterPrefer c',
        selectUnblockedSlot laterSlots t'.blockedIfaces t'.blockedVias laterVia laterPrefer = some c' →
        sameName c.iface c'.iface = false ∧ sameName c.via c'.via = false

theorem picksApart_iff (hslots : ∀ s ∈ slots, ∀ n, s.interface = some n → trim n = n) :
    PicksApart slots failedVia preferIfaces t ↔
      ∀ c, FirstChoice (openCandidates slots t failedVia) preferIfaces c → ∀ v, c.via = some v → trim v = v := by
  constructor
  · intro hapart c hfirst v hv
    by_contra htrim
    -- a later slot that has nothing but this via
    let again : PathSlot := { hops := some 1, viaHash := some v }
    have hselect := select_eq.trans (bestOf_eq_some.mpr hfirst)
    have hopen := mem_openCandidates.mp hfirst.mem
    have hne := (names_of_live hopen.1).2 v hv
    have hvia := not_nameBlocked_pushName c.via htrim (hv ▸ (unblocked_iff.mp hopen.2).2.1)
    let found : PathSlotCandidate := ⟨⟨1, by decide⟩, none, some v⟩
    have hlive : liveCandidates [again] = [found] := by
      simp [liveCandidates, slotExpired, slotCandidate, again, found, hne]
    have hunblocked : slotIsUnblocked found (recordPathFailoverAttempt t c.iface c.via).blockedIfaces
        (recordPathFailoverAttempt t c.iface c.via).blockedVias none = true := unblocked_iff.mpr ⟨rfl, hvia, rfl⟩
    have hlater : selectUnblockedSlot [again] (recordPathFailoverAttempt t c.iface c.via).blockedIfaces
        (recordPathFailoverAttempt t c.iface c.via).blockedVias none [] = some found := by
      rw [select_eq, openCandidates, hlive]
      simp only [List.filter_cons, List.filter_nil, hunblocked, if_true]
      rfl
    have hsame := (hapart c hselect _ ⟨[], rfl⟩ [again] none [] _ hlater).2
    rw [hv] at hsame
    simp [sameName, eqIgnoreAsciiCase, found] at hsame
  · intro hvias c hselect t' hreach laterSlots laterVia laterPrefer c' hlater
    rw [select_eq, bestOf_eq_some] at hselect hlater
    have hopen := mem_openCandidates.mp hselect.mem
    obtain ⟨hiface, hvia⟩ := names_of_live hopen.1
    obtain ⟨hopenIface, hopenVia, _⟩ := unblocked_iff.mp (mem_openCandidates.mp hlater.mem).2
    constructor
    · rw [← Bool.not_eq_true]
      intro hsame
      obtain ⟨n, _, hn, _⟩ := sameName_iff.mp hsame
      obtain ⟨hne, s, hs, hname⟩ := hiface n hn
      have hblocked : nameBlocked c.iface t'.blockedIfaces = true := by
        refine blockedIfaces_run hreach ?_
        rw [hn]
        exact nameBlocked_pushName hne (hslots s hs n hname)
      rw [nameBlocked_same hblocked hsame] at hopenIface
      cases hopenIface
    · rw [← Bool.not_eq_true]
      intro hsame
      obtain ⟨v, _, hv, _⟩ := sameName_iff.mp hsame
      have hblocked : nameBlocked c.via t'.blockedVias = true := by
        refine blockedVias_run hreach ?_
        rw [hv]
        exact nameBlocked_pushName (hvia v hv) (hvias c hselect v hv)
      rw [nameBlocked_same hblocked hsame] at hopenVia
      cases hopenVia

structure FailsOver (slots : List PathSlot) (failedVia : Option Text) (preferIfaces : List Text) (t : FailoverTracker) :
    Prop where
  apart : PicksApart slots failedVia preferIfaces t
  preferred : ∀ c, selectUnblockedSlot slots t.blockedIfaces t.blockedVias failedVia preferIfaces = some c →
    ∀ s ∈ slots, slotExpired s = false → ∀ c', slotCandidate s = some c' →
      slotIsUnblocked c' t.blockedIfaces t.blockedVias failedVia = true →
      ifacePreferred c'.iface preferIfaces = true → ifacePreferred c.iface preferIfaces = true
  exhausted : selectUnblockedSlot slots t.blockedIfaces t.blockedVias failedVia preferIfaces = none →
    ∀ s ∈ slots, slotExpired s = false → ∀ c, slotCandidate s = some c →
      slotIsUnblocked c t.blockedIfaces t.blockedVias failedVia = false
  ends : ∀ rounds, (failoverPicks slots failedVia preferIfaces rounds t).length ≤ slots.length

def hubSlots : List PathSlot :=
  [{ hops := some 2, interface := some "hub".toList, viaHash := some "a1".toList },
   { hops := some 3, interface := some "radio".toList, viaHash := some "b2".toList }]

-- Two ways over one next hop, whose name comes with a blank.
def blankVia : List PathSlot :=
  [{ hops := some 1, interface := some "x".toList, viaHash := some " ab".toList },
   { hops := some 2, interface := some "y".toList, viaHash := some " ab".toList }]

end MeshClient.Reticulum
