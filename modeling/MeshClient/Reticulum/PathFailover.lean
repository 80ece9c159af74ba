import MeshClient.Reticulum.RrcSession
import MeshClient.Lib.Run
import MeshClient.Net.Spelling

namespace MeshClient.Reticulum

-- What is read of a slot's JSON object: a member that is absent or of another type is `none`.
structure PathSlot where
  hops : Option Nat := none
  interface : Option Text := none
  viaHash : Option Text := none
  expired : Option Bool := none
deriving DecidableEq

structure PathSlotCandidate where
  hops : Fin 256
  iface : Option Text
  via : Option Text
deriving DecidableEq

-- What was tried and what is blocked.
structure FailoverTracker where
  tried : List Text := []
  blockedIfaces : List Text := []
  blockedVias : List Text := []
deriving DecidableEq

def nameBlocked (name : Option Text) (blocked : List Text) : Bool :=
  name.any fun n => blocked.any fun b => eqIgnoreAsciiCase b n

def ifaceBlocked (iface : Option Text) (blockedIfaces : List Text) : Bool := nameBlocked iface blockedIfaces

def viaBlocked (via : Option Text) (blockedVias : List Text) : Bool := nameBlocked via blockedVias

def slotExpired (slot : PathSlot) : Bool := slot.expired.getD false

def slotCandidate (slot : PathSlot) : Option PathSlotCandidate :=
  slot.hops.map fun hops =>
    { hops := ⟨hops % 256, Nat.mod_lt _ (by decide)⟩
      iface := slot.interface.filter (· ≠ [])
      via := slot.viaHash.filter (· ≠ []) }

def slotIsUnblocked (cand : PathSlotCandidate) (blockedIfaces blockedVias : List Text) (failedVia : Option Text) : Bool :=
  if ifaceBlocked cand.iface blockedIfaces then false
  else if viaBlocked cand.via blockedVias then false
  else if failedVia.any fun fv => cand.via.any fun v => eqIgnoreAsciiCase v fv then false
  else true

def ifacePreferred (iface : Option Text) (preferIfaces : List Text) : Bool :=
  iface.any fun i => preferIfaces ≠ [] && preferIfaces.any fun p => eqIgnoreAsciiCase p i

def selectFrom (fallback : Option PathSlotCandidate) (blockedIfaces blockedVias : List Text) (failedVia : Option Text)
    (preferIfaces : List Text) : List PathSlot → Option PathSlotCandidate
  | [] => fallback
  | slot :: rest =>
      if slotExpired slot then selectFrom fallback blockedIfaces blockedVias failedVia preferIfaces rest
      else
        match slotCandidate slot with
        | none => selectFrom fallback blockedIfaces blockedVias failedVia preferIfaces rest
        | some cand =>
            if !slotIsUnblocked cand blockedIfaces blockedVias failedVia then
              selectFrom fallback blockedIfaces blockedVias failedVia preferIfaces rest
            else if ifacePreferred cand.iface preferIfaces then some cand
            else selectFrom (fallback.or (some cand)) blockedIfaces blockedVias failedVia preferIfaces rest

def selectUnblockedSlot (slots : List PathSlot) (blockedIfaces blockedVias : List Text) (failedVia : Option Text)
    (preferIfaces : List Text) : Option PathSlotCandidate :=
  selectFrom none blockedIfaces blockedVias failedVia preferIfaces slots

-- A name without its surrounding blanks, unless it is there already or nothing is left of it.
def pushName (names : List Text) (name : Option Text) : List Text :=
  match (name.map trim).filter (· ≠ []) with
  | none => names
  | some n => if names.any fun t => eqIgnoreAsciiCase t n then names else names ++ [n]

def pushTriedIface (tried : List Text) (iface : Option Text) : List Text := pushName tried iface

def recordPathFailoverAttempt (t : FailoverTracker) (iface via : Option Text) : FailoverTracker where
  tried := pushTriedIface t.tried iface
  blockedIfaces := pushName t.blockedIfaces iface
  blockedVias := pushName t.blockedVias via

-- Select and record in turns: what is picked, for so many rounds at most.
def failoverPicks (slots : List PathSlot) (failedVia : Option Text) (preferIfaces : List Text) :
    Nat → FailoverTracker → List PathSlotCandidate
  | 0, _ => []
  | rounds + 1, t =>
      match selectUnblockedSlot slots t.blockedIfaces t.blockedVias failedVia preferIfaces with
      | none => []
      | some c => c :: failoverPicks slots failedVia preferIfaces rounds (recordPathFailoverAttempt t c.iface c.via)

open Run Trim

variable {slots : List PathSlot} {t t' : FailoverTracker} {failedVia : Option Text} {preferIfaces names : List Text}
  {cands : List PathSlotCandidate} {c c' : PathSlotCandidate} {n n' : Text}

theorem eqIgnoreAsciiCase_iff : eqIgnoreAsciiCase n n' = true ↔ n.map Char.toLower = n'.map Char.toLower := by
  simp [eqIgnoreAsciiCase]

theorem isWhitespace_toLower (c : Char) : isWhitespace c.toLower = isWhitespace c := by
  unfold isWhitespace
  rw [Net.toNat_toLower]
  split
  · rename_i hcapital
    rw [Bool.eq_iff_iff]
    simp only [List.mem_cons, List.not_mem_nil, or_false, Bool.or_eq_true, Bool.and_eq_true, decide_eq_true_eq]
    omega
  · rfl

theorem neat_map_toLower : Neat isWhitespace (n.map Char.toLower) ↔ Neat isWhitespace n := by
  have hhead : (∀ x ∈ (n.map Char.toLower).head?, isWhitespace x = false) ↔ ∀ x ∈ n.head?, isWhitespace x = false := by
    rw [List.head?_map]
    cases n.head? <;> simp [isWhitespace_toLower]
  have hlast : (∀ x ∈ (n.map Char.toLower).getLast?, isWhitespace x = false) ↔
      ∀ x ∈ n.getLast?, isWhitespace x = false := by
    rw [List.getLast?_map]
    cases n.getLast? <;> simp [isWhitespace_toLower]
  exact ⟨fun h => ⟨hhead.mp h.head, hlast.mp h.last⟩, fun h => ⟨hhead.mpr h.head, hlast.mpr h.last⟩⟩

-- Surrounding blanks are seen in either case of the letters.
theorem trim_of_eqIgnoreAsciiCase (h : eqIgnoreAsciiCase n n' = true) (htrim : trim n = n) : trim n' = n' := by
  have hneat : Neat isWhitespace n := trim_eq_self_iff.mp htrim
  rw [← neat_map_toLower, eqIgnoreAsciiCase_iff.mp h, neat_map_toLower] at hneat
  exact trim_of_neat hneat

def liveCandidates (slots : List PathSlot) : List PathSlotCandidate :=
  (slots.filter fun s => !slotExpired s).filterMap slotCandidate

-- The candidates that can be picked, in the order of the slots.
def openCandidates (slots : List PathSlot) (t : FailoverTracker) (failedVia : Option Text) : List PathSlotCandidate :=
  (liveCandidates slots).filter fun c => slotIsUnblocked c t.blockedIfaces t.blockedVias failedVia

-- The first of them on a preferred interface, else the first of all.
def bestOf (cands : List PathSlotCandidate) (preferIfaces : List Text) : Option PathSlotCandidate :=
  (cands.find? fun c => ifacePreferred c.iface preferIfaces).or cands.head?

theorem selectFrom_eq (fallback : Option PathSlotCandidate) :
    selectFrom fallback t.blockedIfaces t.blockedVias failedVia preferIfaces slots =
      ((openCandidates slots t failedVia).find? fun c => ifacePreferred c.iface preferIfaces).or
        (fallback.or (openCandidates slots t failedVia).head?) := by
  induction slots generalizing fallback with
  | nil => simp [selectFrom, openCandidates, liveCandidates]
  | cons slot rest ih =>
      rw [selectFrom]
      by_cases hexpired : slotExpired slot = true
      · rw [if_pos hexpired, ih]
        simp [openCandidates, liveCandidates, hexpired]
      rw [if_neg hexpired]
      cases hcand : slotCandidate slot with
      | none =>
          simp only [ih]
          simp [openCandidates, liveCandidates, hexpired, hcand]
      | some c =>
          have hlive : liveCandidates (slot :: rest) = c :: liveCandidates rest := by
            rw [liveCandidates, List.filter_cons_of_pos (by simp [hexpired]), List.filterMap_cons_some hcand]
            rfl
          by_cases hopen : slotIsUnblocked c t.blockedIfaces t.blockedVias failedVia = true
          · have hcons : openCandidates (slot :: rest) t failedVia = c :: openCandidates rest t failedVia := by
              simp [openCandidates, hlive, hopen]
            rw [hcons]
            simp only [hopen, Bool.not_true, Bool.false_eq_true, if_false]
            by_cases hprefer : ifacePreferred c.iface preferIfaces = true
            · simp [hprefer]
            · rw [if_neg hprefer, ih]
              cases fallback <;> simp [hprefer]
          · have hskip : openCandidates (slot :: rest) t failedVia = openCandidates rest t failedVia := by
              simp [openCandidates, hlive, hopen]
            rw [hskip]
            simp only [hopen, Bool.not_false, if_true, ih]

theorem select_eq : selectUnblockedSlot slots t.blockedIfaces t.blockedVias failedVia preferIfaces =
    bestOf (openCandidates slots t failedVia) preferIfaces := by
  rw [selectUnblockedSlot, selectFrom_eq, Option.none_or]
  rfl

theorem mem_liveCandidates : c ∈ liveCandidates slots ↔
    ∃ s ∈ slots, slotExpired s = false ∧ slotCandidate s = some c := by
  rw [liveCandidates, List.mem_filterMap]
  constructor
  · intro ⟨s, hs, hc⟩
    rw [List.mem_filter] at hs
    exact ⟨s, hs.1, by simpa using hs.2, hc⟩
  · intro ⟨s, hs, hexpired, hc⟩
    refine ⟨s, ?_, hc⟩
    rw [List.mem_filter]
    exact ⟨hs, by simp [hexpired]⟩

theorem mem_openCandidates : c ∈ openCandidates slots t failedVia ↔
    c ∈ liveCandidates slots ∧ slotIsUnblocked c t.blockedIfaces t.blockedVias failedVia = true := List.mem_filter

theorem length_liveCandidates_le (slots : List PathSlot) : (liveCandidates slots).length ≤ slots.length :=
  (List.length_filterMap_le _ _).trans (List.length_filter_le _ _)

-- The candidate that comes first: the first one on a preferred interface, or the first one where none is on one.
def FirstChoice (cands : List PathSlotCandidate) (preferIfaces : List Text) (c : PathSlotCandidate) : Prop :=
  (ifacePreferred c.iface preferIfaces = true ∧ ∃ before after, cands = before ++ c :: after ∧
    ∀ b ∈ before, ifacePreferred b.iface preferIfaces = false) ∨
  ((∀ b ∈ cands, ifacePreferred b.iface preferIfaces = false) ∧ cands.head? = some c)

theorem bestOf_eq_some : bestOf cands preferIfaces = some c ↔ FirstChoice cands preferIfaces c := by
  rw [bestOf, Option.or_eq_some_iff, List.find?_eq_some_iff_append, List.find?_eq_none]
  simp [FirstChoice]

theorem FirstChoice.mem (h : FirstChoice cands preferIfaces c) : c ∈ cands := by
  obtain ⟨_, before, after, rfl, _⟩ | ⟨_, hhead⟩ := h
  · simp
  · exact List.mem_of_head? hhead

theorem bestOf_eq_none : bestOf cands preferIfaces = none ↔ cands = [] := by
  rw [bestOf, Option.or_eq_none_iff, List.head?_eq_none_iff]
  constructor
  · exact fun h => h.2
  · rintro rfl
    exact ⟨rfl, rfl⟩

-- A preferred interface comes first.
theorem FirstChoice.preferred (h : FirstChoice cands preferIfaces c) (hc' : c' ∈ cands)
    (hprefer : ifacePreferred c'.iface preferIfaces = true) : ifacePreferred c.iface preferIfaces = true := by
  obtain ⟨hc, _⟩ | ⟨hnone, _⟩ := h
  · exact hc
  · rw [hnone c' hc'] at hprefer
    cases hprefer

theorem unblocked_iff : slotIsUnblocked c t.blockedIfaces t.blockedVias failedVia = true ↔
    nameBlocked c.iface t.blockedIfaces = false ∧ nameBlocked c.via t.blockedVias = false ∧
      (failedVia.any fun fv => c.via.any fun v => eqIgnoreAsciiCase v fv) = false := by
  unfold slotIsUnblocked ifaceBlocked viaBlocked
  split_ifs with h1 h2 h3
  · simp [h1]
  · simp [h2]
  · simp [h3]
  · simp only [Bool.not_eq_true] at h1 h2 h3
    simp [h1, h2, h3]

theorem nameBlocked_some : nameBlocked (some n) names = true ↔ ∃ b ∈ names, eqIgnoreAsciiCase b n = true := by
  simp [nameBlocked]

theorem subset_pushName (names : List Text) (name : Option Text) : ∀ b ∈ names, b ∈ pushName names name := by
  intro b hb
  unfold pushName
  split
  · exact hb
  · split
    · exact hb
    · exact List.mem_append_left _ hb

-- A name without surrounding blanks is blocked once it is recorded.
theorem nameBlocked_pushName (hne : n ≠ []) (htrim : trim n = n) : nameBlocked (some n) (pushName names (some n)) = true := by
  rw [nameBlocked_some]
  unfold pushName
  have hname : ((some n).map trim).filter (· ≠ []) = some n := by
    rw [Option.map_some, htrim, Option.filter_eq_some_iff]
    exact ⟨rfl, by simpa using hne⟩
  rw [hname]
  simp only
  split
  · rename_i hthere
    obtain ⟨b, hb, heq⟩ := List.any_eq_true.mp hthere
    exact ⟨b, hb, heq⟩
  · exact ⟨n, List.mem_append_right _ List.mem_cons_self, by simp [eqIgnoreAsciiCase]⟩

-- A name with surrounding blanks is never recorded.
theorem not_nameBlocked_pushName (name : Option Text) (htrim : trim n ≠ n) (hold : nameBlocked (some n) names = false) :
    nameBlocked (some n) (pushName names name) = false := by
  rw [← Bool.not_eq_true, nameBlocked_some] at hold ⊢
  intro ⟨b, hb, heq⟩
  unfold pushName at hb
  split at hb
  · exact hold ⟨b, hb, heq⟩
  rename_i m hm
  split at hb
  · exact hold ⟨b, hb, heq⟩
  obtain hb | hb := List.mem_append.mp hb
  · exact hold ⟨b, hb, heq⟩
  · obtain rfl := List.mem_singleton.mp hb
    rw [Option.filter_eq_some_iff, Option.map_eq_some_iff] at hm
    obtain ⟨⟨m, _, rfl⟩, _⟩ := hm
    exact htrim (trim_of_eqIgnoreAsciiCase heq (trim_trim m))

end MeshClient.Reticulum
