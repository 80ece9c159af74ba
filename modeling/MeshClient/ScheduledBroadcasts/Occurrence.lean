import MeshClient.Lib.Successor
import MeshClient.ScheduledBroadcasts.Calendar

namespace MeshClient.ScheduledBroadcasts.LocalTime

open Successor

def weekdayOf (days : Int) : Int := (days + 4) % 7

-- The number of the week, each beginning on its Monday.
def mondayWeek (days : Int) : Int := (days + 3) / 7

def dayOfMonth (days : Int) : Int := (civilFromDays days).2.2

def anchorDay (rule : Rule) : Option Int :=
  (rule.anchorYmd.bind ymdParts).map fun (y, m, d) => daysFromCivil y m d

def EvenWeeks (a b : Int) : Prop := (mondayWeek a - mondayWeek b) % 2 = 0

-- The instants that the rule stands for, in a time zone with a constant offset to UTC.
def Occurs (offset : Int) (rule : Rule) (ms : Int) : Prop :=
  match rule.interval with
  | .hourly => clockOf offset ms % 3600000 = rule.timeOfDayMin % 60 * 60000
  | .daily => clockOf offset ms = rule.timeOfDayMin * 60000
  | .weekly => clockOf offset ms = rule.timeOfDayMin * 60000 ∧
      rule.weekday = some (weekdayOf (dayOf offset ms))
  | .biweekly => clockOf offset ms = rule.timeOfDayMin * 60000 ∧
      rule.weekday = some (weekdayOf (dayOf offset ms)) ∧
        ∃ anchor, anchorDay rule = some anchor ∧ EvenWeeks (dayOf offset ms) anchor
  | .monthly => clockOf offset ms = rule.timeOfDayMin * 60000 ∧
      rule.dayOfMonth = some (dayOfMonth (dayOf offset ms))

-- A rule with the fields that its interval needs.
structure ValidRule (rule : Rule) : Prop where
  time : 0 ≤ rule.timeOfDayMin ∧ rule.timeOfDayMin ≤ 1439
  weekday : rule.interval = .weekly ∨ rule.interval = .biweekly →
    ∃ weekday, rule.weekday = some weekday ∧ 0 ≤ weekday ∧ weekday ≤ 6
  anchor : rule.interval = .biweekly → ∃ parts, rule.anchorYmd.bind ymdParts = some parts
  dayOfMonth : rule.interval = .monthly →
    ∃ day, rule.dayOfMonth = some day ∧ 1 ≤ day ∧ day ≤ 31

variable {offset : Int} {rule : Rule}

theorem ValidRule.clock_bounds (h : ValidRule rule) :
    0 ≤ rule.timeOfDayMin * 60000 ∧ rule.timeOfDayMin * 60000 < MS_PER_DAY := by
  have htime := h.time
  unfold MS_PER_DAY
  omega

theorem instant_lt_of_day_lt {days clock ms : Int} (hclock : 0 ≤ clock) (h : dayOf offset ms < days) :
    ms < instant offset days clock := by
  unfold dayOf at h
  unfold instant
  unfold MS_PER_DAY at h ⊢
  omega

theorem exists_weekday (after weekday : Int) (h : 0 ≤ weekday ∧ weekday ≤ 6) :
    ∃ days, after < days ∧ days ≤ after + 7 ∧ weekdayOf days = weekday := by
  refine ⟨after + 1 + (weekday - weekdayOf (after + 1)) % 7, by omega, by omega, ?_⟩
  unfold weekdayOf
  omega

theorem exists_even_week (after weekday anchor : Int) (h : 0 ≤ weekday ∧ weekday ≤ 6) :
    ∃ days, after < days ∧ days ≤ after + 14 ∧ weekdayOf days = weekday ∧ EvenWeeks days anchor := by
  obtain ⟨days, hlater, hsoon, hday⟩ := exists_weekday after weekday h
  by_cases heven : EvenWeeks days anchor
  · exact ⟨days, hlater, by omega, hday, heven⟩
  · refine ⟨days + 7, by omega, by omega, ?_, ?_⟩
    · unfold weekdayOf at hday ⊢
      omega
    · unfold EvenWeeks mondayWeek at heven ⊢
      omega

theorem exists_day_of_month (after day : Int) (h : 1 ≤ day ∧ day ≤ 31) :
    ∃ days, after < days ∧ days ≤ after + 93 ∧ dayOfMonth days = day := by
  have hfirst := firstDay_monthOf after
  have hlong : ∃ month, monthOf after + 1 ≤ month ∧ month ≤ monthOf after + 2 ∧
      firstDay (month + 1) = firstDay month + 31 := by
    rcases firstDay_long_month (monthOf after + 1) with hlong | hlong
    · exact ⟨monthOf after + 1, Int.le_refl _, by omega, hlong⟩
    · exact ⟨monthOf after + 1 + 1, by omega, by omega, hlong⟩
  obtain ⟨month, hge, hle, hlength⟩ := hlong
  have hstart : firstDay (monthOf after + 1) ≤ firstDay month := firstDay_strictMono.monotone hge
  have hend : firstDay month ≤ firstDay (monthOf after + 2) := firstDay_strictMono.monotone hle
  have hshort := (firstDay_succ_bounds (monthOf after)).2
  have hshort' := (firstDay_succ_bounds (monthOf after + 1)).2
  have htwo : monthOf after + 1 + 1 = monthOf after + 2 := by omega
  rw [htwo] at hshort'
  refine ⟨firstDay month + day - 1, by omega, by omega, ?_⟩
  rw [dayOfMonth, civilFromDays_eq, monthOf_eq (show firstDay month ≤ _ by omega) (by omega)]
  dsimp only
  omega

-- A valid rule occurs within three months, an hourly one within the hour.
theorem exists_occurs (h : ValidRule rule) (after : Int) : ∃ u, after < u ∧ Occurs offset rule u ∧
    dayOf offset u ≤ dayOf offset after + 93 ∧
      (rule.interval = .hourly → u ≤ after + 3600000) := by
  have hclock := h.clock_bounds
  have hday : ∀ days, dayOf offset after < days → after <
      instant offset days (rule.timeOfDayMin * 60000) := fun days => instant_lt_of_day_lt hclock.1
  cases hinterval : rule.interval with
  | hourly =>
      have htime := h.time
      have hu : ∃ u, after < u ∧ u ≤ after + 3600000 ∧
          (u + offset) % 3600000 = rule.timeOfDayMin % 60 * 60000 :=
        ⟨after + 1 + (rule.timeOfDayMin % 60 * 60000 - (after + 1 + offset)) % 3600000, by omega,
          by omega, by omega⟩
      obtain ⟨u, hlater, hsoon, hminute⟩ := hu
      refine ⟨u, hlater, ?_, ?_, fun _ => hsoon⟩
      · simp only [Occurs, hinterval, clockOf, MS_PER_DAY]
        omega
      · unfold dayOf MS_PER_DAY
        omega
  | daily =>
      refine ⟨_, hday (dayOf offset after + 1) (by omega), ?_, ?_, nofun⟩
      · simp only [Occurs, hinterval, clockOf_instant hclock]
      · rw [dayOf_instant hclock]
        omega
  | weekly =>
      obtain ⟨weekday, hweekday, hbounds⟩ := h.weekday (.inl hinterval)
      obtain ⟨days, hlater, hsoon, hfound⟩ := exists_weekday (dayOf offset after) weekday hbounds
      refine ⟨_, hday days hlater, ?_, ?_, nofun⟩
      · simp only [Occurs, hinterval, clockOf_instant hclock, dayOf_instant hclock, hweekday, hfound,
          and_self]
      · rw [dayOf_instant hclock]
        omega
  | biweekly =>
      obtain ⟨weekday, hweekday, hbounds⟩ := h.weekday (.inr hinterval)
      obtain ⟨parts, hparts⟩ := h.anchor hinterval
      obtain ⟨anchor, hanchor⟩ : ∃ anchor, anchorDay rule = some anchor := by
        rw [anchorDay, hparts]
        exact ⟨_, rfl⟩
      obtain ⟨days, hlater, hsoon, hfound, heven⟩ :=
        exists_even_week (dayOf offset after) weekday anchor hbounds
      refine ⟨_, hday days hlater, ?_, ?_, nofun⟩
      · simp only [Occurs, hinterval, clockOf_instant hclock, dayOf_instant hclock, hweekday, hfound,
          true_and]
        exact ⟨anchor, hanchor, heven⟩
      · rw [dayOf_instant hclock]
        omega
  | monthly =>
      obtain ⟨day, hdom, hbounds⟩ := h.dayOfMonth hinterval
      obtain ⟨days, hlater, hsoon, hfound⟩ := exists_day_of_month (dayOf offset after) day hbounds
      refine ⟨_, hday days hlater, ?_, ?_, nofun⟩
      · simp only [Occurs, hinterval, clockOf_instant hclock, dayOf_instant hclock, hdom, hfound,
          and_self]
      · rw [dayOf_instant hclock]
        omega

theorem exists_next (h : ValidRule rule) (after : Int) : ∃ next,
    IsNext (Occurs offset rule) after next ∧ dayOf offset next ≤ dayOf offset after + 93 ∧
      (rule.interval = .hourly → next ≤ after + 3600000) := by
  obtain ⟨u, hlater, hoccurs, hsoon, hhour⟩ := @exists_occurs offset rule h after
  obtain ⟨next, hnext⟩ := exists_isNext ⟨u, hlater, hoccurs⟩
  have hle := hnext.le_of hlater hoccurs
  exact ⟨next, hnext, (dayOf_mono hle).trans hsoon, fun hourly => hle.trans (hhour hourly)⟩

end MeshClient.ScheduledBroadcasts.LocalTime
