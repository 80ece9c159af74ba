import MeshClient.ScheduledBroadcasts.NextDue

namespace MeshClient.ScheduledBroadcasts.LocalTime

open Successor

variable {offset dueAt nowMs next : Int} {rule : Rule}

-- The walk over the missed occurrences begins each search outside the years that are misread.
def WalkAsWritten (offset : Int) (rule : Rule) (dueAt nowMs : Int) : Prop :=
  ∀ ms, dueAt ≤ ms → ms ≤ nowMs → Occurs offset rule ms ∨ ms = nowMs → ReadAsWritten offset rule ms

-- Skipping the missed occurrences comes to what a search from now on gives, the next occurrence.
def SkipsToNext (offset : Int) (rule : Rule) (dueAt nowMs : Int) : Prop :=
  (constantOffset offset).advancePastDue rule dueAt nowMs =
      (constantOffset offset).computeNextDue rule nowMs ∧
    ∃ next, (constantOffset offset).computeNextDue rule nowMs = some next ∧
      IsNext (Occurs offset rule) nowMs next

theorem advanceFrom_succ (t : LocalTime) (fuel : Nat) {cursor found : Int}
    (h : t.computeNextDue rule cursor = some found) : t.advanceFrom rule nowMs (fuel + 1) cursor =
      if found > nowMs then some found else t.advanceFrom rule nowMs fuel found := by
  rw [advanceFrom, h]
  rfl

-- One step of the walk for each occurrence missed, and one more to the next.
theorem advanceFrom_eq (h : ValidRule rule) (hkept : AnchorKept rule)
    (hnext : IsNext (Occurs offset rule) nowMs next) {fuel : Nat} {cursor : Int}
    (hcursor : Occurs offset rule cursor) (hle : cursor ≤ nowMs)
    (hwalk : WalkAsWritten offset rule cursor nowMs) :
    (constantOffset offset).advanceFrom rule nowMs fuel cursor =
      if count (Occurs offset rule) cursor nowMs < fuel then some next else none := by
  induction fuel generalizing cursor with
  | zero => rw [if_neg (Nat.not_lt_zero _), advanceFrom]
  | succ fuel ih =>
      obtain ⟨found, hfound, _⟩ := @exists_next offset rule h cursor
      have hread := hwalk cursor (Int.le_refl _) hle (.inl hcursor)
      rw [advanceFrom_succ _ fuel (computeNextDue_of_isNext h hkept hread hfound)]
      by_cases hlater : nowMs < found
      · have heq := (hfound.of_le hle hlater).unique hnext
        rw [if_pos hlater, hfound.count_of_lt hlater, if_pos (Nat.succ_pos _), heq]
      · have hreached := not_lt.mp hlater
        have hrest : WalkAsWritten offset rule found nowMs :=
          fun ms hge hms hoccurs => hwalk ms (hfound.1.le.trans hge) hms hoccurs
        rw [if_neg hlater, ih hfound.2.1 hreached hrest, hfound.count_of_le hreached]
        simp only [Nat.add_lt_add_iff_right]

theorem walkAsWritten_of_late (h : 100 ≤ yearOf (dayOf offset dueAt)) :
    WalkAsWritten offset rule dueAt nowMs := by
  have hlate : ∀ ms, dueAt ≤ ms → ¬EarlyYear (yearOf (dayOf offset ms)) := by
    intro ms hge hearly
    have hyear := yearOf_mono (@dayOf_mono offset _ _ hge)
    have hlast := hearly.2
    omega
  exact fun ms hge _ _ => ⟨fun _ => hlate ms hge, fun next hnext => hlate next (hge.trans hnext.1.le)⟩

-- The walk ends at the next occurrence where it has fewer than `MAX_CANDIDATES` to skip.
theorem advancePastDue_skips (h : ValidRule rule) (hdue : Occurs offset rule dueAt)
    (hle : dueAt ≤ nowMs) :
    (WalkAsWritten offset rule dueAt nowMs → AnchorKept rule →
      count (Occurs offset rule) dueAt nowMs < MAX_CANDIDATES → SkipsToNext offset rule dueAt nowMs) ∧
    (SkipsToNext offset rule dueAt nowMs → AnchorKept rule ∧ ReadAsWritten offset rule nowMs ∧
      (WalkAsWritten offset rule dueAt nowMs →
        count (Occurs offset rule) dueAt nowMs < MAX_CANDIDATES)) := by
  obtain ⟨next, hnext, _⟩ := @exists_next offset rule h nowMs
  have hadvance : (constantOffset offset).advancePastDue rule dueAt nowMs =
      (constantOffset offset).advanceFrom rule nowMs MAX_CANDIDATES dueAt := if_neg (by omega)
  constructor
  · intro hwalk hkept hfew
    have hread := hwalk nowMs hle (Int.le_refl _) (.inr rfl)
    have hfound := computeNextDue_of_isNext h hkept hread hnext
    refine ⟨?_, next, hfound, hnext⟩
    rw [hadvance, hfound, advanceFrom_eq h hkept hnext hdue hle hwalk, if_pos hfew]
  · rintro ⟨hsame, found, hfound, hisNext⟩
    have hkept := computeNextDue_anchorKept h hfound hisNext.2.1
    have hread := computeNextDue_readAsWritten h hfound hisNext
    refine ⟨hkept, hread, fun hwalk => ?_⟩
    rw [hadvance, hfound, advanceFrom_eq h hkept hnext hdue hle hwalk] at hsame
    by_contra hmany
    rw [if_neg hmany] at hsame
    cases hsame

def onTheHour : Rule where
  interval := .hourly
  timeOfDayMin := 0

theorem onTheHour_valid : ValidRule onTheHour :=
  ⟨by decide, by simp [onTheHour], nofun, nofun⟩

theorem onTheHour_isNext (k : Int) :
    IsNext (Occurs 0 onTheHour) (k * 3600000) ((k + 1) * 3600000) := by
  have hoccurs : ∀ u, Occurs 0 onTheHour u ↔ u % 3600000 = 0 := by
    intro u
    simp only [Occurs, onTheHour, clockOf, MS_PER_DAY]
    omega
  refine ⟨by omega, (hoccurs _).mpr (by omega), fun u hu hlt hP => ?_⟩
  rw [hoccurs] at hP
  omega

theorem count_onTheHour (n : Nat) (k : Int) :
    count (Occurs 0 onTheHour) (k * 3600000) ((k + n) * 3600000) = n := by
  induction n generalizing k with
  | zero => exact (onTheHour_isNext k).count_of_lt (by push_cast; omega)
  | succ n ih =>
      rw [(onTheHour_isNext k).count_of_le (by push_cast; omega)]
      have hrest := ih (k + 1)
      rw [show k + 1 + (n : Int) = k + ((n + 1 : Nat) : Int) by push_cast; ring] at hrest
      rw [hrest]

theorem onTheHour_occurs : Occurs 0 onTheHour 0 := by
  change clockOf 0 0 % 3600000 = _
  decide

theorem advancePastDue_skips_day :
    (WalkAsWritten 0 onTheHour 0 86400000 → AnchorKept onTheHour →
      count (Occurs 0 onTheHour) 0 86400000 < MAX_CANDIDATES → SkipsToNext 0 onTheHour 0 86400000) ∧
    (SkipsToNext 0 onTheHour 0 86400000 → AnchorKept onTheHour ∧ ReadAsWritten 0 onTheHour 86400000 ∧
      (WalkAsWritten 0 onTheHour 0 86400000 →
        count (Occurs 0 onTheHour) 0 86400000 < MAX_CANDIDATES)) :=
  advancePastDue_skips onTheHour_valid onTheHour_occurs (by decide)

-- After a thousand hours switched off the walk gives up.
theorem thousand_hours_missed :
    (constantOffset 0).advancePastDue onTheHour 0 (1000 * 3600000) = none ∧
      ¬SkipsToNext 0 onTheHour 0 (1000 * 3600000) := by
  have hkept : AnchorKept onTheHour := nofun
  have hwalk : WalkAsWritten 0 onTheHour 0 (1000 * 3600000) := walkAsWritten_of_late (by decide)
  have hcount : count (Occurs 0 onTheHour) 0 (1000 * 3600000) = 1000 := count_onTheHour 1000 0
  have hnone : (constantOffset 0).advancePastDue onTheHour 0 (1000 * 3600000) = none := by
    rw [advancePastDue, if_neg (by decide), advanceFrom_eq onTheHour_valid hkept
      (onTheHour_isNext 1000) onTheHour_occurs (by decide) hwalk, hcount, if_neg (by decide)]
  refine ⟨hnone, fun hskips => ?_⟩
  obtain ⟨hsame, found, hfound, _⟩ := hskips
  rw [hnone, hfound] at hsame
  cases hsame

end MeshClient.ScheduledBroadcasts.LocalTime
