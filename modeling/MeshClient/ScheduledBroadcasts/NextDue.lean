import MeshClient.ScheduledBroadcasts.Occurrence

namespace MeshClient.ScheduledBroadcasts.LocalTime

open Successor

variable {offset after next : Int} {rule : Rule}

theorem ofParts_day {days : Int} (h : ¬EarlyYear (yearOf days)) (hh mm : Int) :
    (constantOffset offset).ofParts (civilFromDays days).1 (civilFromDays days).2.1
      (civilFromDays days).2.2 hh mm = instant offset days (hh * 3600000 + mm * 60000) := by
  have hparts := @ofParts_civil offset days h 0 hh mm
  rwa [Int.add_zero, Int.add_zero] at hparts

theorem eq_instant_iff {days clock t : Int} (h : 0 ≤ clock ∧ clock < MS_PER_DAY) :
    instant offset days clock = t ↔ clockOf offset t = clock ∧ dayOf offset t = days := by
  constructor
  · rintro rfl
    exact ⟨clockOf_instant h, dayOf_instant h⟩
  · rintro ⟨rfl, rfl⟩
    exact instant_dayOf_clockOf t

-- What a search by days has for one day.
def onDay (candidate : Int → Int → Int → Option Int) (days : Int) : Option Int :=
  candidate (civilFromDays days).1 (civilFromDays days).2.1 (civilFromDays days).2.2

theorem dayFrom_succ (t : LocalTime) (candidate : Int → Int → Int → Option Int) (fuel : Nat)
    (days : Int) : t.dayFrom candidate (fuel + 1) (civilFromDays days) =
      (onDay candidate days).or (t.dayFrom candidate fuel (t.nextDay (civilFromDays days).1
        (civilFromDays days).2.1 (civilFromDays days).2.2)) := rfl

-- The search gives what the first day with a candidate has.
theorem dayFrom_first {candidate : Int → Int → Int → Option Int} {j fuel : Nat} (hfuel : j < fuel)
    {days : Int} (hclean : ∀ i : Nat, i < j → ¬EarlyYear (yearOf (days + i)))
    (hnone : ∀ i : Nat, i < j → onDay candidate (days + i) = none)
    (hsome : onDay candidate (days + j) = some next) :
    (constantOffset offset).dayFrom candidate fuel (civilFromDays days) = some next := by
  induction j generalizing fuel days with
  | zero =>
      obtain ⟨fuel, rfl⟩ : ∃ n, fuel = n + 1 := ⟨fuel - 1, by omega⟩
      rw [Nat.cast_zero, Int.add_zero] at hsome
      rw [dayFrom_succ, hsome]
      rfl
  | succ j ih =>
      obtain ⟨fuel, rfl⟩ : ∃ n, fuel = n + 1 := ⟨fuel - 1, by omega⟩
      have hshift : ∀ i : Nat, days + ((i + 1 : Nat) : Int) = days + 1 + i := by
        intro i
        push_cast
        ring
      have hfirst := hnone 0 (by omega)
      have hday := hclean 0 (by omega)
      rw [Nat.cast_zero, Int.add_zero] at hfirst hday
      rw [dayFrom_succ, hfirst, Option.none_or, nextDay_civil hday]
      apply ih (by omega)
      · intro i hi
        rw [← hshift]
        exact hclean (i + 1) (by omega)
      · intro i hi
        rw [← hshift]
        exact hnone (i + 1) (by omega)
      · rw [← hshift]
        exact hsome

-- A result lies in no early year; where the search is in one, the result lies after all of them.
structure PastEarly (offset days t : Int) : Prop where
  not_early : ¬EarlyYear (yearOf (dayOf offset t))
  of_early : EarlyYear (yearOf days) → 1900 ≤ yearOf (dayOf offset t)
  of_not_early : ¬EarlyYear (yearOf days) → days ≤ dayOf offset t ∨ 1900 ≤ yearOf (dayOf offset t)

theorem PastEarly.of_built {days hh mm : Int}
    (hclock : 0 ≤ hh * 3600000 + mm * 60000 ∧ hh * 3600000 + mm * 60000 < MS_PER_DAY) :
    PastEarly offset days ((constantOffset offset).ofParts (civilFromDays days).1
      (civilFromDays days).2.1 (civilFromDays days).2.2 hh mm) := by
  have hcivil := civil_bounds days
  by_cases hearly : EarlyYear (yearOf days)
  · have hyear := @yearOf_ofParts_early offset (civilFromDays days).1 _ _ _ _ hearly hcivil.1
      hcivil.2.2 hclock
    exact ⟨fun hbad => by have := hbad.2; omega, fun _ => hyear, fun hno => absurd hearly hno⟩
  · have hday : dayOf offset ((constantOffset offset).ofParts (civilFromDays days).1
        (civilFromDays days).2.1 (civilFromDays days).2.2 hh mm) = days := by
      rw [ofParts_day hearly, dayOf_instant hclock]
    exact ⟨by rwa [hday], fun hyes => absurd hyes hearly, fun _ => .inl hday.ge⟩

-- The search goes on from the day that the constructor makes of the next date.
theorem PastEarly.of_nextDay {days found t : Int}
    (hfound : found = dayOf offset ((constantOffset offset).ofParts (civilFromDays days).1
      (civilFromDays days).2.1 ((civilFromDays days).2.2 + 1) 0 0))
    (h : PastEarly offset found t) : PastEarly offset days t := by
  have hcivil := civil_bounds days
  have hclock : 0 ≤ (0 : Int) * 3600000 + 0 * 60000 ∧
      (0 : Int) * 3600000 + 0 * 60000 < MS_PER_DAY := by
    unfold MS_PER_DAY
    omega
  by_cases hearly : EarlyYear (yearOf days)
  · have hyear := @yearOf_ofParts_early offset (civilFromDays days).1 _
      ((civilFromDays days).2.2 + 1) _ _ hearly hcivil.1 (by omega) hclock
    rw [← hfound] at hyear
    have hlate : ¬EarlyYear (yearOf found) := fun hbad => by
      have := hbad.2
      omega
    refine ⟨h.not_early, fun _ => ?_, fun hno => absurd hearly hno⟩
    rcases h.of_not_early hlate with hle | hge
    · exact hyear.trans (yearOf_mono hle)
    · exact hge
  · have hnext : found = days + 1 := by
      rw [hfound, ofParts_civil hearly, dayOf_instant hclock]
    refine ⟨h.not_early, fun hyes => absurd hyes hearly, fun _ => ?_⟩
    by_cases hfoundEarly : EarlyYear (yearOf found)
    · exact .inr (h.of_early hfoundEarly)
    · exact (h.of_not_early hfoundEarly).imp_left (by omega)

-- A candidate is a time of the day it is built for.
def BuiltFor (offset : Int) (candidate : Int → Int → Int → Option Int) : Prop :=
  ∀ y m d t, candidate y m d = some t → ∃ hh mm, t = (constantOffset offset).ofParts y m d hh mm ∧
    0 ≤ hh * 3600000 + mm * 60000 ∧ hh * 3600000 + mm * 60000 < MS_PER_DAY

theorem dayFrom_pastEarly {candidate : Int → Int → Int → Option Int} (h : BuiltFor offset candidate)
    {fuel : Nat} {days t : Int}
    (ht : (constantOffset offset).dayFrom candidate fuel (civilFromDays days) = some t) :
    PastEarly offset days t := by
  induction fuel generalizing days with
  | zero => cases ht
  | succ fuel ih =>
      rw [dayFrom_succ] at ht
      rcases Option.or_eq_some_iff.mp ht with hnow | ⟨_, hlater⟩
      · obtain ⟨hh, mm, rfl, hclock⟩ := h _ _ _ _ hnow
        exact PastEarly.of_built hclock
      · rw [nextDay, dateOf_eq] at hlater
        exact PastEarly.of_nextDay rfl (ih hlater)

-- The next occurrence is found where the search reads every day as it is written.
theorem dayFrom_isNext {candidate : Int → Int → Int → Option Int} {P : Int → Prop}
    (hspec : ∀ days t, ¬EarlyYear (yearOf days) →
      (onDay candidate days = some t ↔ after < t ∧ P t ∧ dayOf offset t = days))
    (hnext : IsNext P after next) (hsoon : dayOf offset next ≤ dayOf offset after + 93)
    (hclean : ∀ days, dayOf offset after ≤ days → days ≤ dayOf offset next → ¬EarlyYear (yearOf days)) :
    (constantOffset offset).dayFrom candidate MAX_CANDIDATES ((constantOffset offset).dateOf after) =
      some next := by
  have hle : dayOf offset after ≤ dayOf offset next := dayOf_mono hnext.1.le
  obtain ⟨j, hj⟩ := Int.le.dest hle
  rw [dateOf_eq]
  apply dayFrom_first (j := j) (by unfold MAX_CANDIDATES; omega)
  · intro i hi
    exact hclean _ (by omega) (by omega)
  · intro i hi
    cases hfound : onDay candidate (dayOf offset after + i) with
    | none => rfl
    | some t =>
        obtain ⟨hlater, hP, hday⟩ := (hspec _ t (hclean _ (by omega) (by omega))).mp hfound
        have hlt : t < next := by
          by_contra hge
          have := @dayOf_mono offset _ _ (not_lt.mp hge)
          omega
        exact absurd hP (hnext.2.2 t hlater hlt)
  · rw [hj]
    exact (hspec _ next (hclean _ hle (Int.le_refl _))).mpr ⟨hnext.1, hnext.2.1, rfl⟩

section DaySearch

variable {hh mm : Int}
  (hclock : 0 ≤ hh * 3600000 + mm * 60000 ∧ hh * 3600000 + mm * 60000 < MS_PER_DAY)

include hclock

theorem dailyAt_builtFor : BuiltFor offset ((constantOffset offset).dailyAt after hh mm) := by
  intro y m d t ht
  unfold dailyAt at ht
  dsimp only at ht
  split_ifs at ht
  exact ⟨hh, mm, (Option.some.inj ht).symm, hclock⟩

theorem weeklyAt_builtFor (weekday : Int) :
    BuiltFor offset ((constantOffset offset).weeklyAt after weekday hh mm) := by
  intro y m d t ht
  unfold weeklyAt at ht
  split_ifs at ht
  exact dailyAt_builtFor hclock y m d t ht

theorem biweeklyAt_builtFor (weekday anchorMs : Int) :
    BuiltFor offset ((constantOffset offset).biweeklyAt after weekday hh mm anchorMs) :=
  fun y m d t ht => weeklyAt_builtFor hclock weekday y m d t (Option.filter_eq_some_iff.mp ht).1

theorem dailyAt_spec {days t : Int} (h : ¬EarlyYear (yearOf days)) :
    onDay ((constantOffset offset).dailyAt after hh mm) days = some t ↔
      after < t ∧ clockOf offset t = hh * 3600000 + mm * 60000 ∧ dayOf offset t = days := by
  rw [← eq_instant_iff hclock, onDay, dailyAt, ofParts_day h]
  split_ifs with hlater
  · rw [Option.some.injEq]
    exact ⟨fun ht => ⟨ht ▸ hlater, ht⟩, fun ht => ht.2⟩
  · exact iff_of_false nofun fun ht => hlater (ht.2 ▸ ht.1)

theorem weeklyAt_spec {days t weekday : Int} (h : ¬EarlyYear (yearOf days)) :
    onDay ((constantOffset offset).weeklyAt after weekday hh mm) days = some t ↔
      after < t ∧ (clockOf offset t = hh * 3600000 + mm * 60000 ∧
        weekdayOf (dayOf offset t) = weekday) ∧ dayOf offset t = days := by
  have hprobe : (constantOffset offset).getDay ((constantOffset offset).ofParts (civilFromDays days).1
      (civilFromDays days).2.1 (civilFromDays days).2.2 0 0) = weekdayOf days := by
    rw [ofParts_day h]
    change weekdayOf (dayOf offset _) = _
    rw [dayOf_instant (by unfold MS_PER_DAY; omega)]
  have hdaily := @dailyAt_spec offset after hh mm hclock days t h
  rw [onDay] at hdaily
  rw [onDay, weeklyAt, hprobe]
  split_ifs with hday
  · rw [hdaily]
    constructor
    · rintro ⟨hlater, hclockOf, rfl⟩
      exact ⟨hlater, ⟨hclockOf, hday⟩, rfl⟩
    · rintro ⟨hlater, ⟨hclockOf, _⟩, hdays⟩
      exact ⟨hlater, hclockOf, hdays⟩
  · refine iff_of_false nofun ?_
    rintro ⟨_, ⟨_, hweekday⟩, rfl⟩
    exact hday hweekday

end DaySearch

-- The week index counts Monday weeks from a day that the offset alone decides.
theorem mondayWeekIndex_eq {ms : Int} (h : ¬EarlyYear (yearOf (dayOf offset ms))) :
    (constantOffset offset).mondayWeekIndex ms = mondayWeek (dayOf offset ms) +
      (-3 * MS_PER_DAY - offset) / (7 * MS_PER_DAY) := by
  have hmonday := @ofParts_civil offset _ h (-((dayOf offset ms + 3) % 7)) 0 0
  have hindex : (constantOffset offset).mondayWeekIndex ms = (constantOffset offset).ofParts
      (civilFromDays (dayOf offset ms)).1 (civilFromDays (dayOf offset ms)).2.1
        ((civilFromDays (dayOf offset ms)).2.2 + -((dayOf offset ms + 3) % 7)) 0 0 /
          (7 * MS_PER_DAY) := by
    have hshift : ((dayOf offset ms + 4) % 7 + 6) % 7 = (dayOf offset ms + 3) % 7 := by omega
    rw [← hshift]
    rfl
  rw [hindex, hmonday]
  unfold instant mondayWeek MS_PER_DAY
  omega

theorem mondayWeekIndex_even_iff {a b : Int} (ha : ¬EarlyYear (yearOf (dayOf offset a)))
    (hb : ¬EarlyYear (yearOf (dayOf offset b))) :
    (|(constantOffset offset).mondayWeekIndex a - (constantOffset offset).mondayWeekIndex b| % 2 ==
      0) = true ↔ EvenWeeks (dayOf offset a) (dayOf offset b) := by
  rw [mondayWeekIndex_eq ha, mondayWeekIndex_eq hb, beq_iff_eq, EvenWeeks]
  generalize (-3 * MS_PER_DAY - offset) / (7 * MS_PER_DAY) = shift
  rcases abs_cases (mondayWeek (dayOf offset a) + shift - (mondayWeek (dayOf offset b) + shift)) with
    ⟨habs, _⟩ | ⟨habs, _⟩ <;> rw [habs] <;> omega

theorem biweeklyAt_spec {hh mm days t weekday anchorMs : Int}
    (hclock : 0 ≤ hh * 3600000 + mm * 60000 ∧ hh * 3600000 + mm * 60000 < MS_PER_DAY)
    (hanchor : ¬EarlyYear (yearOf (dayOf offset anchorMs))) (h : ¬EarlyYear (yearOf days)) :
    onDay ((constantOffset offset).biweeklyAt after weekday hh mm anchorMs) days = some t ↔
      after < t ∧ (clockOf offset t = hh * 3600000 + mm * 60000 ∧
        weekdayOf (dayOf offset t) = weekday ∧
          EvenWeeks (dayOf offset t) (dayOf offset anchorMs)) ∧ dayOf offset t = days := by
  have hweekly := @weeklyAt_spec offset after hh mm hclock days t weekday h
  rw [onDay] at hweekly
  rw [onDay, biweeklyAt, Option.filter_eq_some_iff, hweekly]
  constructor
  · rintro ⟨⟨hlater, ⟨hclockOf, hweekday⟩, rfl⟩, heven⟩
    exact ⟨hlater, ⟨hclockOf, hweekday, (mondayWeekIndex_even_iff h hanchor).mp heven⟩, rfl⟩
  · rintro ⟨hlater, ⟨hclockOf, hweekday, heven⟩, rfl⟩
    exact ⟨⟨hlater, ⟨hclockOf, hweekday⟩, rfl⟩, (mondayWeekIndex_even_iff h hanchor).mpr heven⟩

theorem hourlyFrom_succ (t : LocalTime) (minute : Int) (fuel : Nat) (days hour : Int) :
    t.hourlyFrom after minute (fuel + 1) (civilFromDays days) hour =
      if t.ofParts (civilFromDays days).1 (civilFromDays days).2.1 (civilFromDays days).2.2 hour
          minute > after then
        some (t.ofParts (civilFromDays days).1 (civilFromDays days).2.1 (civilFromDays days).2.2 hour
          minute)
      else if hour + 1 > 23 then t.hourlyFrom after minute fuel (t.nextDay (civilFromDays days).1
        (civilFromDays days).2.1 (civilFromDays days).2.2) 0
      else t.hourlyFrom after minute fuel (civilFromDays days) (hour + 1) := rfl

theorem hourlyFrom_pastEarly {minute : Int} (hminute : 0 ≤ minute ∧ minute ≤ 59) {fuel : Nat}
    {days hour t : Int} (hhour : 0 ≤ hour ∧ hour ≤ 23)
    (ht : (constantOffset offset).hourlyFrom after minute fuel (civilFromDays days) hour = some t) :
    PastEarly offset days t := by
  induction fuel generalizing days hour with
  | zero => cases ht
  | succ fuel ih =>
      rw [hourlyFrom_succ] at ht
      split_ifs at ht with hlater hlast
      · obtain rfl := Option.some.inj ht
        exact PastEarly.of_built (by unfold MS_PER_DAY; omega)
      · rw [nextDay, dateOf_eq] at ht
        exact PastEarly.of_nextDay rfl (ih (by omega) ht)
      · exact ih (by omega) ht

-- The minute comes up in the running hour or in the next one.
theorem hourly_isNext {minute : Int} (hminute : 0 ≤ minute ∧ minute ≤ 59) :
    let hour := clockOf offset after / 3600000
    let now := instant offset (dayOf offset after) (hour * 3600000 + minute * 60000)
    IsNext (fun u => clockOf offset u % 3600000 = minute * 60000) after
      (if after < now then now else now + 3600000) := by
  unfold IsNext instant clockOf dayOf MS_PER_DAY
  dsimp only
  split_ifs with hnow
  · refine ⟨hnow, by omega, fun u hu hlt => by omega⟩
  · refine ⟨by omega, by omega, fun u hu hlt => by omega⟩

theorem nextHourly_isNext {minute : Int} (hminute : 0 ≤ minute ∧ minute ≤ 59)
    (hnext : IsNext (fun u => clockOf offset u % 3600000 = minute * 60000) after next)
    (hclean : ∀ days, dayOf offset after ≤ days → days ≤ dayOf offset next → ¬EarlyYear (yearOf days)) :
    (constantOffset offset).nextHourly after minute = some next := by
  have hclock := @clockOf_bounds offset after
  have hle : dayOf offset after ≤ dayOf offset next := dayOf_mono hnext.1.le
  have hfound := hnext.unique (hourly_isNext hminute)
  have hhours : (constantOffset offset).getHours after = clockOf offset after / 3600000 := rfl
  have hhour : 0 ≤ clockOf offset after / 3600000 ∧ clockOf offset after / 3600000 ≤ 23 := by
    unfold MS_PER_DAY at hclock
    omega
  rw [nextHourly, dateOf_eq, hhours, show MAX_CANDIDATES = 999 + 1 from rfl, hourlyFrom_succ,
    ofParts_day (hclean _ (Int.le_refl _) hle)]
  generalize clockOf offset after / 3600000 = hour at hfound hhour
  by_cases hnow : after < instant offset (dayOf offset after) (hour * 3600000 + minute * 60000)
  · rw [if_pos hnow] at hfound ⊢
    rw [hfound]
  · rw [if_neg hnow] at hfound ⊢
    rw [show (999 : Nat) = 998 + 1 from rfl]
    by_cases hlast : hour + 1 > 23
    · have hinstant : next = instant offset (dayOf offset after + 1) (0 * 3600000 + minute * 60000) := by
        rw [hfound]
        unfold instant MS_PER_DAY
        omega
      have hday : dayOf offset next = dayOf offset after + 1 := by
        rw [hinstant, dayOf_instant (by unfold MS_PER_DAY; omega)]
      rw [if_pos hlast, nextDay_civil (hclean _ (Int.le_refl _) hle), hourlyFrom_succ,
        ofParts_day (hclean _ (by omega) hday.ge), ← hinstant, if_pos hnext.1]
    · have hinstant : next = instant offset (dayOf offset after)
          ((hour + 1) * 3600000 + minute * 60000) := by
        rw [hfound]
        unfold instant
        omega
      rw [if_neg hlast, hourlyFrom_succ, ofParts_day (hclean _ (Int.le_refl _) hle), ← hinstant,
        if_pos hnext.1]

-- What the search by months has for one month, counted from January of the year zero.
def inMonth (t : LocalTime) (after day hh mm month : Int) : Option Int :=
  let candidate := t.ofParts (month / 12) (month % 12) day hh mm
  if day ≤ t.daysInMonth (month / 12) (month % 12) ∧
      t.dateOf candidate = (month / 12, month % 12, day) ∧ candidate > after then some candidate
  else none

theorem monthlyFrom_succ (t : LocalTime) (day hh mm : Int) (fuel : Nat) (month : Int) :
    t.monthlyFrom after day hh mm (fuel + 1) (month / 12) (month % 12) =
      (inMonth t after day hh mm month).or
        (t.monthlyFrom after day hh mm fuel ((month + 1) / 12) ((month + 1) % 12)) := by
  have hstep : t.monthlyFrom after day hh mm fuel ((month + 1) / 12) ((month + 1) % 12) =
      if month % 12 + 1 > 11 then t.monthlyFrom after day hh mm fuel (month / 12 + 1) 0
      else t.monthlyFrom after day hh mm fuel (month / 12) (month % 12 + 1) := by
    split_ifs with hlast
    · rw [show (month + 1) / 12 = month / 12 + 1 by omega, show (month + 1) % 12 = 0 by omega]
    · rw [show (month + 1) / 12 = month / 12 by omega,
        show (month + 1) % 12 = month % 12 + 1 by omega]
  rw [monthlyFrom, hstep]
  unfold inMonth
  dsimp only
  split_ifs <;> rfl

theorem monthlyFrom_first {day hh mm : Int} {t : LocalTime} {j fuel : Nat} (hfuel : j < fuel)
    {month : Int} (hnone : ∀ i : Nat, i < j → inMonth t after day hh mm (month + i) = none)
    (hsome : inMonth t after day hh mm (month + j) = some next) :
    t.monthlyFrom after day hh mm fuel (month / 12) (month % 12) = some next := by
  induction j generalizing fuel month with
  | zero =>
      obtain ⟨fuel, rfl⟩ : ∃ n, fuel = n + 1 := ⟨fuel - 1, by omega⟩
      rw [Nat.cast_zero, Int.add_zero] at hsome
      rw [monthlyFrom_succ, hsome]
      rfl
  | succ j ih =>
      obtain ⟨fuel, rfl⟩ : ∃ n, fuel = n + 1 := ⟨fuel - 1, by omega⟩
      have hshift : ∀ i : Nat, month + ((i + 1 : Nat) : Int) = month + 1 + i := by
        intro i
        push_cast
        ring
      have hfirst := hnone 0 (by omega)
      rw [Nat.cast_zero, Int.add_zero] at hfirst
      rw [monthlyFrom_succ, hfirst, Option.none_or]
      apply ih (by omega)
      · intro i hi
        rw [← hshift]
        exact hnone (i + 1) (by omega)
      · rw [← hshift]
        exact hsome

theorem monthlyFrom_some {day hh mm : Int} {t : LocalTime} {fuel : Nat} {month : Int}
    (h : t.monthlyFrom after day hh mm fuel (month / 12) (month % 12) = some next) :
    ∃ found, inMonth t after day hh mm found = some next := by
  induction fuel generalizing month with
  | zero => cases h
  | succ fuel ih =>
      rw [monthlyFrom_succ] at h
      rcases Option.or_eq_some_iff.mp h with hnow | ⟨_, hlater⟩
      · exact ⟨month, hnow⟩
      · exact ih hlater

theorem nextMonthly_eq (day hh mm : Int) : (constantOffset offset).nextMonthly after day hh mm =
    (constantOffset offset).monthlyFrom after day hh mm MAX_CANDIDATES
      (monthOf (dayOf offset after) / 12) (monthOf (dayOf offset after) % 12) := by
  have hcivil := civilFromDays_eq (dayOf offset after)
  have hyear : (constantOffset offset).getFullYear after = monthOf (dayOf offset after) / 12 :=
    congrArg Prod.fst hcivil
  have hmonth : (constantOffset offset).getMonth after = monthOf (dayOf offset after) % 12 :=
    congrArg (fun date => date.2.1) hcivil
  rw [nextMonthly, hyear, hmonth]

theorem daysInMonth_eq {month : Int} (h : ¬EarlyYear (month / 12)) :
    (constantOffset offset).daysInMonth (month / 12) (month % 12) =
      firstDay (month + 1) - firstDay month := by
  have hclock : 0 ≤ (0 : Int) * 3600000 + 0 * 60000 ∧
      (0 : Int) * 3600000 + 0 * 60000 < MS_PER_DAY := by
    unfold MS_PER_DAY
    omega
  have hmonths : 12 * (month / 12) + (month % 12 + 1) = month + 1 := by omega
  have hlength := firstDay_succ_bounds month
  change (civilFromDays (dayOf offset ((constantOffset offset).ofParts (month / 12)
    (month % 12 + 1) 0 0 0))).2.2 = _
  rw [ofParts_eq, readYear_of_not_early h, hmonths, dayOf_instant hclock, civilFromDays_eq,
    monthOf_eq (show firstDay month ≤ firstDay (month + 1) + 0 - 1 by omega) (by omega)]
  dsimp only
  omega

theorem inMonth_spec {day hh mm month t : Int} (hday : 1 ≤ day)
    (hclock : 0 ≤ hh * 3600000 + mm * 60000 ∧ hh * 3600000 + mm * 60000 < MS_PER_DAY) :
    inMonth (constantOffset offset) after day hh mm month = some t ↔
      after < t ∧ (clockOf offset t = hh * 3600000 + mm * 60000 ∧
        dayOfMonth (dayOf offset t) = day) ∧ monthOf (dayOf offset t) = month ∧
          ¬EarlyYear (month / 12) := by
  have hmonths : 12 * (month / 12) + month % 12 = month := by omega
  unfold inMonth
  dsimp only
  constructor
  · intro h
    split_ifs at h with hfound
    obtain rfl := Option.some.inj h
    obtain ⟨_, hdate, hlater⟩ := hfound
    rw [dateOf_eq] at hdate
    have hyear : yearOf (dayOf offset ((constantOffset offset).ofParts (month / 12) (month % 12) day
        hh mm)) = month / 12 := by rw [yearOf, hdate]
    have hlate : ¬EarlyYear (month / 12) := by
      intro hearly
      have hge := @yearOf_ofParts_early offset _ (month % 12) _ _ _ hearly (by omega) hday hclock
      rw [hyear] at hge
      have := hearly.2
      omega
    refine ⟨hlater, ⟨?_, by rw [dayOfMonth, hdate]⟩, ?_, hlate⟩
    · rw [ofParts_eq, clockOf_instant hclock]
    · rw [monthOf, hdate]
      exact hmonths
  · rintro ⟨hlater, ⟨hclockOf, hdom⟩, hmonth, hlate⟩
    have hbounds := firstDay_monthOf (dayOf offset t)
    have hcivil := civilFromDays_eq (dayOf offset t)
    rw [dayOfMonth, hcivil] at hdom
    dsimp only at hdom
    rw [hmonth] at hbounds hcivil hdom
    have hcandidate : (constantOffset offset).ofParts (month / 12) (month % 12) day hh mm = t := by
      rw [ofParts_eq, readYear_of_not_early hlate, hmonths, eq_instant_iff hclock]
      exact ⟨hclockOf, by omega⟩
    rw [hcandidate, if_pos]
    refine ⟨?_, ?_, hlater⟩
    · rw [daysInMonth_eq hlate]
      omega
    · rw [dateOf_eq, hcivil, hdom]

-- Early months are skipped, so the next occurrence is found where it is not in one itself.
theorem nextMonthly_isNext {day hh mm : Int} (hday : 1 ≤ day)
    (hclock : 0 ≤ hh * 3600000 + mm * 60000 ∧ hh * 3600000 + mm * 60000 < MS_PER_DAY)
    (hnext : IsNext (fun u => clockOf offset u = hh * 3600000 + mm * 60000 ∧
      dayOfMonth (dayOf offset u) = day) after next)
    (hsoon : dayOf offset next ≤ dayOf offset after + 93)
    (hlate : ¬EarlyYear (yearOf (dayOf offset next))) :
    (constantOffset offset).nextMonthly after day hh mm = some next := by
  have hle : monthOf (dayOf offset after) ≤ monthOf (dayOf offset next) :=
    monthOf_mono (dayOf_mono hnext.1.le)
  obtain ⟨j, hj⟩ := Int.le.dest hle
  have hmonths := monthOf_add_le hsoon
  rw [nextMonthly_eq]
  apply monthlyFrom_first (j := j) (by unfold MAX_CANDIDATES; omega)
  · intro i hi
    cases hfound : inMonth (constantOffset offset) after day hh mm
        (monthOf (dayOf offset after) + i) with
    | none => rfl
    | some t =>
        obtain ⟨hlater, hP, hmonth, _⟩ := (inMonth_spec hday hclock).mp hfound
        have hlt : t < next := by
          by_contra hge
          have := monthOf_mono (@dayOf_mono offset _ _ (not_lt.mp hge))
          omega
        exact absurd hP (hnext.2.2 t hlater hlt)
  · rw [hj, inMonth_spec hday hclock]
    exact ⟨hnext.1, hnext.2.1, rfl, by rwa [← yearOf_eq]⟩

-- Reading the anchor's year as one of the twentieth century moves it by whole pairs of weeks.
def AnchorKept (rule : Rule) : Prop :=
  rule.interval = .biweekly → ∀ y m d, rule.anchorYmd.bind ymdParts = some (y, m, d) →
    EvenWeeks (daysFromCivil (readYear y) m d) (daysFromCivil y m d)

-- Neither the search nor the occurrence it looks for is in the years that the constructor of
-- `Date` misreads. The search by months passes over them.
structure ReadAsWritten (offset : Int) (rule : Rule) (after : Int) : Prop where
  start : rule.interval ≠ .monthly → ¬EarlyYear (yearOf (dayOf offset after))
  next : ∀ next, IsNext (Occurs offset rule) after next → ¬EarlyYear (yearOf (dayOf offset next))

theorem not_early_between (hsoon : dayOf offset next ≤ dayOf offset after + 93)
    (hstart : ¬EarlyYear (yearOf (dayOf offset after)))
    (hlate : ¬EarlyYear (yearOf (dayOf offset next))) (days : Int) (hge : dayOf offset after ≤ days)
    (hle : days ≤ dayOf offset next) : ¬EarlyYear (yearOf days) := by
  have hfrom := yearOf_mono hge
  have hto := yearOf_mono hle
  have hspan := yearOf_add_le hsoon
  unfold EarlyYear at hstart hlate ⊢
  omega

theorem splitTimeOfDay_valid (h : ValidRule rule) : splitTimeOfDay rule.timeOfDayMin =
    some (rule.timeOfDayMin / 60, rule.timeOfDayMin % 60) := by
  have htime := h.time
  exact if_neg (by omega)

theorem inRange_some {value low high : Int} (h : low ≤ value ∧ value ≤ high) :
    inRange (some value) low high = some value := by
  rw [inRange, Option.filter_some, if_pos (by simpa using h)]

theorem ValidRule.clock_split (h : ValidRule rule) :
    rule.timeOfDayMin / 60 * 3600000 + rule.timeOfDayMin % 60 * 60000 =
      rule.timeOfDayMin * 60000 ∧
    0 ≤ rule.timeOfDayMin / 60 * 3600000 + rule.timeOfDayMin % 60 * 60000 ∧
      rule.timeOfDayMin / 60 * 3600000 + rule.timeOfDayMin % 60 * 60000 < MS_PER_DAY := by
  have hbounds := h.clock_bounds
  omega

theorem ymdParts_bounds {ymd : String} {y m d : Int} (h : ymdParts ymd = some (y, m, d)) :
    0 ≤ y ∧ (0 ≤ m ∧ m ≤ 11) ∧ 1 ≤ d := by
  obtain ⟨⟨ys, ms, ds⟩, _, hparts⟩ := Option.bind_eq_some_iff.mp h
  dsimp only at hparts
  split_ifs at hparts with hbad
  obtain ⟨rfl, rest⟩ := Prod.mk.inj (Option.some.inj hparts)
  obtain ⟨rfl, rfl⟩ := Prod.mk.inj rest
  omega

-- The anchor as the search reads it.
theorem anchorOf_eq {y m d : Int} (h : rule.anchorYmd.bind ymdParts = some (y, m, d)) :
    (constantOffset offset).anchorOf rule.anchorYmd after =
        some ((constantOffset offset).ofParts y m d 0 0) ∧
      dayOf offset ((constantOffset offset).ofParts y m d 0 0) = daysFromCivil (readYear y) m d ∧
        ¬EarlyYear (yearOf (daysFromCivil (readYear y) m d)) := by
  obtain ⟨ymd, hymd, hparts⟩ := Option.bind_eq_some_iff.mp h
  obtain ⟨hy, hm, hd⟩ := ymdParts_bounds hparts
  have hclock : 0 ≤ (0 : Int) * 3600000 + 0 * 60000 ∧
      (0 : Int) * 3600000 + 0 * 60000 < MS_PER_DAY := by
    unfold MS_PER_DAY
    omega
  have hnonempty : ymd ≠ "" := by
    rintro rfl
    cases hparts
  refine ⟨?_, ?_, ?_⟩
  · rw [anchorOf, hymd, Option.filter_some, if_pos (by simpa using hnonempty)]
    dsimp only
    rw [hparts]
    rfl
  · rw [ofParts_eq, dayOf_instant hclock, daysFromCivil_eq d hm]
  · have hread : 100 ≤ readYear y := by
      unfold readYear
      split_ifs <;> omega
    have hlater := monthOf_mono (show firstDay (12 * readYear y + m) ≤
      firstDay (12 * readYear y + m) + d - 1 by omega)
    rw [monthOf_eq (Int.le_refl _) (firstDay_strictMono (by omega))] at hlater
    rw [daysFromCivil_eq d hm, yearOf_eq]
    rintro ⟨_, hle⟩
    omega

-- The fields of a valid rule by its interval, with what the search of that interval is given.
theorem computeNextDue_eq (h : ValidRule rule) (t : LocalTime) : t.computeNextDue rule after =
    match rule.interval with
    | .hourly => t.nextHourly after (rule.timeOfDayMin % 60)
    | .daily => t.nextDaily after (rule.timeOfDayMin / 60) (rule.timeOfDayMin % 60)
    | .weekly => (inRange rule.weekday 0 6).bind fun weekday =>
        t.nextWeekly after weekday (rule.timeOfDayMin / 60) (rule.timeOfDayMin % 60)
    | .biweekly => (inRange rule.weekday 0 6).bind fun weekday =>
        (t.anchorOf rule.anchorYmd after).bind fun anchorMs =>
          t.nextBiweekly after weekday (rule.timeOfDayMin / 60) (rule.timeOfDayMin % 60) anchorMs
    | .monthly => (inRange rule.dayOfMonth 1 31).bind fun day =>
        t.nextMonthly after day (rule.timeOfDayMin / 60) (rule.timeOfDayMin % 60) := by
  rw [computeNextDue, splitTimeOfDay_valid h]
  rfl

theorem computeNextDue_of_isNext (h : ValidRule rule) (hkept : AnchorKept rule)
    (hread : ReadAsWritten offset rule after) (hnext : IsNext (Occurs offset rule) after next) :
    (constantOffset offset).computeNextDue rule after = some next := by
  obtain ⟨hsplit, hclock⟩ := h.clock_split
  have hlate := hread.next next hnext
  have hsoon : dayOf offset next ≤ dayOf offset after + 93 := by
    obtain ⟨other, hother, hsoon, _⟩ := @exists_next offset rule h after
    rwa [hnext.unique hother]
  have hclean : rule.interval ≠ .monthly → ∀ days, dayOf offset after ≤ days →
      days ≤ dayOf offset next → ¬EarlyYear (yearOf days) :=
    fun hdays => not_early_between hsoon (hread.start hdays) hlate
  rw [computeNextDue_eq h]
  cases hinterval : rule.interval with
  | hourly =>
      have hminute : 0 ≤ rule.timeOfDayMin % 60 ∧ rule.timeOfDayMin % 60 ≤ 59 := by omega
      refine nextHourly_isNext hminute (hnext.congr fun u => ?_) (hclean (by simp [hinterval]))
      simp only [Occurs, hinterval]
  | daily =>
      refine dayFrom_isNext (fun days t hday => dailyAt_spec hclock hday) (hnext.congr fun u => ?_)
        hsoon (hclean (by simp [hinterval]))
      simp only [Occurs, hinterval, hsplit]
  | weekly =>
      obtain ⟨weekday, hweekday, hbounds⟩ := h.weekday (.inl hinterval)
      rw [hweekday, inRange_some hbounds]
      refine dayFrom_isNext (fun days t hday => weeklyAt_spec hclock hday) (hnext.congr fun u => ?_)
        hsoon (hclean (by simp [hinterval]))
      simp only [Occurs, hinterval, hsplit, hweekday, Option.some.injEq, eq_comm (a := weekday)]
  | biweekly =>
      obtain ⟨weekday, hweekday, hbounds⟩ := h.weekday (.inr hinterval)
      obtain ⟨⟨y, m, d⟩, hparts⟩ := h.anchor hinterval
      obtain ⟨hanchorMs, hanchorDay, hanchorLate⟩ := @anchorOf_eq offset after rule y m d hparts
      have heven := hkept hinterval y m d hparts
      have hanchor : anchorDay rule = some (daysFromCivil y m d) := by
        rw [anchorDay, hparts]
        rfl
      rw [hweekday, inRange_some hbounds, hanchorMs]
      rw [← hanchorDay] at hanchorLate
      refine dayFrom_isNext (fun days t hday => biweeklyAt_spec hclock hanchorLate hday)
        (hnext.congr fun u => ?_) hsoon (hclean (by simp [hinterval]))
      have hweeks : EvenWeeks (dayOf offset u) (daysFromCivil y m d) ↔
          EvenWeeks (dayOf offset u) (daysFromCivil (readYear y) m d) := by
        unfold EvenWeeks at heven ⊢
        omega
      simp only [Occurs, hinterval, hsplit, hweekday, hanchor, hanchorDay, Option.some.injEq,
        eq_comm (a := weekday), exists_eq_left', hweeks]
  | monthly =>
      obtain ⟨day, hdom, hbounds⟩ := h.dayOfMonth hinterval
      rw [hdom, inRange_some hbounds]
      refine nextMonthly_isNext hbounds.1 hclock (hnext.congr fun u => ?_) hsoon hlate
      simp only [Occurs, hinterval, hsplit, hdom, Option.some.injEq, eq_comm (a := day)]

theorem computeNextDue_pastEarly (h : ValidRule rule) (hdays : rule.interval ≠ .monthly)
    (hfound : (constantOffset offset).computeNextDue rule after = some next) :
    PastEarly offset (dayOf offset after) next := by
  obtain ⟨_, hclock⟩ := h.clock_split
  rw [computeNextDue_eq h] at hfound
  cases hinterval : rule.interval with
  | hourly =>
      rw [hinterval] at hfound
      have hbounds := @clockOf_bounds offset after
      have hhour : 0 ≤ (constantOffset offset).getHours after ∧
          (constantOffset offset).getHours after ≤ 23 := by
        change 0 ≤ clockOf offset after / 3600000 ∧ clockOf offset after / 3600000 ≤ 23
        unfold MS_PER_DAY at hbounds
        omega
      exact hourlyFrom_pastEarly (by omega) hhour hfound
  | daily =>
      rw [hinterval] at hfound
      exact dayFrom_pastEarly (dailyAt_builtFor hclock) hfound
  | weekly =>
      rw [hinterval] at hfound
      obtain ⟨weekday, _, hfound⟩ := Option.bind_eq_some_iff.mp hfound
      exact dayFrom_pastEarly (weeklyAt_builtFor hclock weekday) hfound
  | biweekly =>
      rw [hinterval] at hfound
      obtain ⟨weekday, _, hfound⟩ := Option.bind_eq_some_iff.mp hfound
      obtain ⟨anchorMs, _, hfound⟩ := Option.bind_eq_some_iff.mp hfound
      exact dayFrom_pastEarly (biweeklyAt_builtFor hclock weekday anchorMs) hfound
  | monthly => exact absurd hinterval hdays

theorem computeNextDue_not_early (h : ValidRule rule)
    (hfound : (constantOffset offset).computeNextDue rule after = some next) :
    ¬EarlyYear (yearOf (dayOf offset next)) := by
  by_cases hmonthly : rule.interval = .monthly
  · obtain ⟨day, hdom, hbounds⟩ := h.dayOfMonth hmonthly
    obtain ⟨_, hclock⟩ := h.clock_split
    rw [computeNextDue_eq h, hmonthly] at hfound
    dsimp only at hfound
    rw [hdom, inRange_some hbounds, Option.bind_some, nextMonthly_eq] at hfound
    obtain ⟨month, hmonth⟩ := monthlyFrom_some hfound
    obtain ⟨_, _, hin, hlate⟩ := (inMonth_spec hbounds.1 hclock).mp hmonth
    rwa [yearOf_eq, hin]
  · exact (computeNextDue_pastEarly h hmonthly hfound).not_early

theorem computeNextDue_anchorKept (h : ValidRule rule)
    (hfound : (constantOffset offset).computeNextDue rule after = some next)
    (hoccurs : Occurs offset rule next) : AnchorKept rule := by
  intro hinterval y m d hparts
  have hlate := computeNextDue_not_early h hfound
  obtain ⟨hanchorMs, hanchorDay, hanchorLate⟩ := @anchorOf_eq offset after rule y m d hparts
  rw [computeNextDue_eq h, hinterval] at hfound
  dsimp only at hfound
  rw [hanchorMs] at hfound
  obtain ⟨weekday, _, hfound⟩ := Option.bind_eq_some_iff.mp hfound
  have hread := dayFrom_some (P := fun t =>
      (|(constantOffset offset).mondayWeekIndex t - (constantOffset offset).mondayWeekIndex
        ((constantOffset offset).ofParts y m d 0 0)| % 2 == 0) = true)
    (fun _ _ _ t ht => (Option.filter_eq_some_iff.mp ht).2) hfound
  rw [← hanchorDay] at hanchorLate
  rw [mondayWeekIndex_even_iff hlate hanchorLate, hanchorDay] at hread
  simp only [Occurs, hinterval] at hoccurs
  obtain ⟨_, _, anchor, hanchor, heven⟩ := hoccurs
  rw [anchorDay, hparts] at hanchor
  obtain rfl : daysFromCivil y m d = anchor := Option.some.inj hanchor
  unfold EvenWeeks at hread heven ⊢
  omega

theorem computeNextDue_readAsWritten (h : ValidRule rule)
    (hfound : (constantOffset offset).computeNextDue rule after = some next)
    (hnext : IsNext (Occurs offset rule) after next) : ReadAsWritten offset rule after where
  start hdays hearly := by
    have hyear := (computeNextDue_pastEarly h hdays hfound).of_early hearly
    obtain ⟨other, hother, hsoon, _⟩ := @exists_next offset rule h after
    rw [hother.unique hnext] at hsoon
    have hspan := yearOf_add_le hsoon
    have hlast := hearly.2
    omega
  next other hother := by
    rw [hother.unique hnext]
    exact computeNextDue_not_early h hfound

-- The search gives the rule's next occurrence just where the `Date` constructor reads the years
-- it is given as they are written.
theorem computeNextDue_isNext_iff (h : ValidRule rule) :
    (∃ next, (constantOffset offset).computeNextDue rule after = some next ∧
      IsNext (Occurs offset rule) after next) ↔
    ReadAsWritten offset rule after ∧ AnchorKept rule := by
  constructor
  · rintro ⟨next, hfound, hnext⟩
    exact ⟨computeNextDue_readAsWritten h hfound hnext,
      computeNextDue_anchorKept h hfound hnext.2.1⟩
  · rintro ⟨hread, hkept⟩
    obtain ⟨next, hnext, _⟩ := @exists_next offset rule h after
    exact ⟨next, computeNextDue_of_isNext h hkept hread hnext, hnext⟩

def nineDaily : Rule where
  interval := .daily
  timeOfDayMin := 540

theorem nineDaily_valid : ValidRule nineDaily :=
  ⟨by decide, by simp [nineDaily], nofun, nofun⟩

theorem computeNextDue_isNext_nine :
    (∃ next, (constantOffset 0).computeNextDue nineDaily 0 = some next ∧
      IsNext (Occurs 0 nineDaily) 0 next) ↔ ReadAsWritten 0 nineDaily 0 ∧ AnchorKept nineDaily :=
  computeNextDue_isNext_iff nineDaily_valid

-- After midnight of 1 January of the year 50 the search comes up with 1950.
theorem early_year_misread : ¬∃ next,
    (constantOffset 0).computeNextDue nineDaily (daysFromCivil 50 0 1 * MS_PER_DAY) = some next ∧
      IsNext (Occurs 0 nineDaily) (daysFromCivil 50 0 1 * MS_PER_DAY) next := by
  rintro ⟨next, hfound, hnext⟩
  have hmisread : (constantOffset 0).computeNextDue nineDaily (daysFromCivil 50 0 1 * MS_PER_DAY) =
      some (daysFromCivil 1950 0 1 * MS_PER_DAY + 540 * 60000) := by decide
  obtain rfl := Option.some.inj (hmisread.symm.trans hfound)
  exact hnext.2.2 (daysFromCivil 50 0 1 * MS_PER_DAY + 540 * 60000) (by decide) (by decide) (by
    change clockOf 0 _ = _
    decide)

end MeshClient.ScheduledBroadcasts.LocalTime
