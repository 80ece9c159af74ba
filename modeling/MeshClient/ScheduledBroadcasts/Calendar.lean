import MeshClient.ScheduledBroadcasts.Recurrence

namespace MeshClient.ScheduledBroadcasts.LocalTime

theorem ediv_eq_of_bounds {a b k : Int} (hb : 0 < b) (hl : b * k ≤ a) (hu : a < b * k + b) :
    a / b = k := by
  rw [Int.ediv_eq_iff_of_pos hb]
  constructor <;> linarith [mul_comm b k]

-- A day of the 400-year cycle by its century, its four-year group, its year and the day of it.
structure CycleDay (dayOfEra : Int) where
  century : Int
  group : Int
  year : Int
  day : Int
  century_bounds : 0 ≤ century ∧ century ≤ 3
  group_bounds : 0 ≤ group ∧ group ≤ 24
  year_bounds : 0 ≤ year ∧ year ≤ 3
  day_bounds : 0 ≤ day ∧ day ≤ 365
  leap : day = 365 → year = 3 ∧ (group = 24 → century = 3)
  dayOfEra_eq : dayOfEra = 36524 * century + 1461 * group + 365 * year + day

def cycleDay (dayOfEra : Int) (h : 0 ≤ dayOfEra ∧ dayOfEra < 146097) : CycleDay dayOfEra :=
  let century := min (dayOfEra / 36524) 3
  let inCentury := dayOfEra - 36524 * century
  let year := min (inCentury % 1461 / 365) 3
  { century := century
    group := inCentury / 1461
    year := year
    day := inCentury % 1461 - 365 * year
    century_bounds := by omega
    group_bounds := by omega
    year_bounds := by omega
    day_bounds := by omega
    leap := by omega
    dayOfEra_eq := by omega }

theorem CycleDay.yearOfEra_eq {dayOfEra : Int} (c : CycleDay dayOfEra) :
    (dayOfEra - dayOfEra / 1460 + dayOfEra / 36524 - dayOfEra / 146096) / 365 =
      100 * c.century + 4 * c.group + c.year := by
  obtain ⟨century, group, year, day, hcentury, hgroup, hyear, hday, hleap, heq⟩ := c
  dsimp only
  have hfour : dayOfEra / 1460 = 25 * century + group +
      (if 24 * century + group + 365 * year + day ≥ 1460 then 1 else 0) := by
    apply ediv_eq_of_bounds (by norm_num) <;> split_ifs <;> omega
  have hcenturies : dayOfEra / 36524 = century + (if dayOfEra = 146096 then 1 else 0) := by
    apply ediv_eq_of_bounds (by norm_num) <;> split_ifs <;> omega
  have hcycle : dayOfEra / 146096 = if dayOfEra = 146096 then 1 else 0 := by
    apply ediv_eq_of_bounds (by norm_num) <;> split_ifs <;> omega
  rw [hfour, hcenturies, hcycle]
  apply ediv_eq_of_bounds (by norm_num) <;> split_ifs <;> omega

-- The first of March of a year, in days from 1970-01-01.
def marchFirst (year : Int) : Int := 365 * year + year / 4 - year / 100 + year / 400 - 719468

-- The first day of a month counted from January of the year zero.
def firstDay (month : Int) : Int :=
  marchFirst ((month - 2) / 12) + (153 * ((month - 2) % 12) + 2) / 5

theorem daysFromCivil_eq {y m : Int} (d : Int) (hm : 0 ≤ m ∧ m ≤ 11) :
    daysFromCivil y m d = firstDay (12 * y + m) + d - 1 := by
  unfold daysFromCivil firstDay marchFirst
  dsimp only
  have hshift : (12 * y + m - 2) % 12 = (m + 10) % 12 := by omega
  have hyear : (12 * y + m - 2) / 12 = if m < 2 then y - 1 else y := by
    split_ifs <;> omega
  rw [hshift, hyear]
  generalize (if m < 2 then y - 1 else y) = year
  generalize (m + 10) % 12 = fromMarch
  omega

theorem firstDay_succ_bounds (month : Int) :
    firstDay month + 28 ≤ firstDay (month + 1) ∧ firstDay (month + 1) ≤ firstDay month + 31 := by
  unfold firstDay marchFirst
  by_cases hfebruary : (month - 2) % 12 = 11
  · have hyear : (month + 1 - 2) / 12 = (month - 2) / 12 + 1 := by omega
    have hmarch : (month + 1 - 2) % 12 = 0 := by omega
    rw [hyear, hmarch, hfebruary]
    generalize (month - 2) / 12 = year
    omega
  · have hyear : (month + 1 - 2) / 12 = (month - 2) / 12 := by omega
    have hnext : (month + 1 - 2) % 12 = (month - 2) % 12 + 1 := by omega
    rw [hyear, hnext]
    generalize (month - 2) / 12 = year
    omega

-- Of two months in a row one has all 31 days.
theorem firstDay_long_month (month : Int) : firstDay (month + 1) = firstDay month + 31 ∨
    firstDay (month + 1 + 1) = firstDay (month + 1) + 31 := by
  unfold firstDay marchFirst
  have hmonths : (month - 2) % 12 < 10 → (month + 1 - 2) / 12 = (month - 2) / 12 ∧
      (month + 1 + 1 - 2) / 12 = (month - 2) / 12 ∧
        (month + 1 - 2) % 12 = (month - 2) % 12 + 1 ∧
          (month + 1 + 1 - 2) % 12 = (month - 2) % 12 + 2 := by omega
  by_cases hjanuary : (month - 2) % 12 = 10
  · have hyear : (month + 1 - 2) / 12 = (month - 2) / 12 := by omega
    have hnext : (month + 1 - 2) % 12 = 11 := by omega
    left
    rw [hyear, hnext, hjanuary]
    omega
  · by_cases hfebruary : (month - 2) % 12 = 11
    · have hyear : (month + 1 + 1 - 2) / 12 = (month + 1 - 2) / 12 := by omega
      have hmarch : (month + 1 - 2) % 12 = 0 := by omega
      have hnext : (month + 1 + 1 - 2) % 12 = 1 := by omega
      right
      rw [hyear, hnext, hmarch]
      omega
    · obtain ⟨hyear, hyear', hnext, hnext'⟩ := hmonths (by omega)
      rw [hyear, hyear', hnext, hnext']
      omega

theorem firstDay_strictMono : StrictMono firstDay :=
  strictMono_int_of_lt_succ fun month => by linarith [(firstDay_succ_bounds month).1]

theorem marchFirst_cycle {dayOfEra : Int} (c : CycleDay dayOfEra) (era : Int) :
    marchFirst (100 * c.century + 4 * c.group + c.year + era * 400) + c.day =
      era * 146097 + dayOfEra - 719468 := by
  obtain ⟨century, group, year, day, hcentury, hgroup, hyear, hday, hleap, heq⟩ := c
  unfold marchFirst
  dsimp only
  have hfour : (100 * century + 4 * group + year + era * 400) / 4 = 25 * century + group + 100 * era := by
    omega
  have hhundred : (100 * century + 4 * group + year + era * 400) / 100 = century + 4 * era := by
    omega
  have hcycle : (100 * century + 4 * group + year + era * 400) / 400 = era := by omega
  rw [hfour, hhundred, hcycle]
  omega

-- The day is before the next first of March.
theorem marchFirst_cycle_succ {dayOfEra : Int} (c : CycleDay dayOfEra) (era : Int) :
    era * 146097 + dayOfEra - 719468 <
      marchFirst (100 * c.century + 4 * c.group + c.year + era * 400 + 1) := by
  have hmarch := marchFirst_cycle c era
  obtain ⟨century, group, year, day, hcentury, hgroup, hyear, hday, hleap, heq⟩ := c
  unfold marchFirst at hmarch ⊢
  dsimp only at hmarch ⊢
  by_cases hlast : year = 3
  · have hfour : (100 * century + 4 * group + year + era * 400 + 1) / 4 =
        (100 * century + 4 * group + year + era * 400) / 4 + 1 := by omega
    by_cases hhundred : group = 24
    · omega
    · have hsame : (100 * century + 4 * group + year + era * 400 + 1) / 100 =
          (100 * century + 4 * group + year + era * 400) / 100 := by omega
      omega
  · omega

theorem monthFromMarch_div (year : Int) {shifted : Int} (h : 0 ≤ shifted ∧ shifted ≤ 11) :
    (12 * year + shifted + 2) / 12 = year + if (shifted + 2) % 12 < 2 then 1 else 0 := by
  split_ifs <;> omega

-- The fields of a day: its month holds it.
theorem civilFromDays_spec (days : Int) : ∃ month, firstDay month ≤ days ∧
    days < firstDay (month + 1) ∧
      civilFromDays days = (month / 12, month % 12, days - firstDay month + 1) := by
  obtain ⟨era, hera⟩ : ∃ era, era = (days + 719468) / 146097 := ⟨_, rfl⟩
  obtain ⟨dayOfEra, hdayOfEra⟩ : ∃ dayOfEra, dayOfEra = (days + 719468) % 146097 := ⟨_, rfl⟩
  have hdays : days = era * 146097 + dayOfEra - 719468 := by omega
  let c := cycleDay dayOfEra (by omega)
  obtain ⟨year, hyear⟩ : ∃ year, year = 100 * c.century + 4 * c.group + c.year + era * 400 := ⟨_, rfl⟩
  obtain ⟨shifted, hshifted⟩ : ∃ shifted, shifted = (5 * c.day + 2) / 153 := ⟨_, rfl⟩
  have hday := c.day_bounds
  have hmarch : marchFirst year + c.day = days := by
    rw [hyear, hdays]
    exact marchFirst_cycle c era
  have hbounds : 0 ≤ shifted ∧ shifted ≤ 11 ∧ (153 * shifted + 2) / 5 ≤ c.day ∧
      (shifted < 11 → c.day < (153 * (shifted + 1) + 2) / 5) := by omega
  have hmonthYear : (12 * year + shifted + 2 - 2) / 12 = year := by omega
  have hmonth : (12 * year + shifted + 2 - 2) % 12 = shifted := by omega
  have hfirst : firstDay (12 * year + shifted + 2) = marchFirst year + (153 * shifted + 2) / 5 := by
    rw [firstDay, hmonthYear, hmonth]
  refine ⟨12 * year + shifted + 2, by omega, ?_, ?_⟩
  · by_cases hlast : shifted = 11
    · have hnextYear : (12 * year + shifted + 2 + 1 - 2) / 12 = year + 1 := by omega
      have hnext : (12 * year + shifted + 2 + 1 - 2) % 12 = 0 := by omega
      have hlater := marchFirst_cycle_succ c era
      rw [← hyear, ← hdays] at hlater
      rw [firstDay, hnextYear, hnext]
      omega
    · have hnextYear : (12 * year + shifted + 2 + 1 - 2) / 12 = year := by omega
      have hnext : (12 * year + shifted + 2 + 1 - 2) % 12 = shifted + 1 := by omega
      rw [firstDay, hnextYear, hnext]
      omega
  · have hdayOfYear : dayOfEra - (365 * (100 * c.century + 4 * c.group + c.year) +
        (100 * c.century + 4 * c.group + c.year) / 4 -
          (100 * c.century + 4 * c.group + c.year) / 100) = c.day := by
      have hcentury := c.century_bounds
      have hgroup := c.group_bounds
      have hyears := c.year_bounds
      have heq := c.dayOfEra_eq
      have hfour : (100 * c.century + 4 * c.group + c.year) / 4 = 25 * c.century + c.group := by omega
      have hhundred : (100 * c.century + 4 * c.group + c.year) / 100 = c.century := by omega
      rw [hfour, hhundred]
      omega
    unfold civilFromDays
    dsimp only
    rw [← hera, ← hdayOfEra, c.yearOfEra_eq, hdayOfYear, ← hshifted, ← hyear, hfirst]
    have hmonthOfYear : (12 * year + shifted + 2) % 12 = (shifted + 2) % 12 := by omega
    have hdayOfMonth : c.day - (153 * shifted + 2) / 5 + 1 =
        days - (marchFirst year + (153 * shifted + 2) / 5) + 1 := by linarith
    rw [monthFromMarch_div year ⟨hbounds.1, hbounds.2.1⟩, hmonthOfYear, hdayOfMonth]

-- The month a day lies in, counted from January of the year zero.
def monthOf (days : Int) : Int := 12 * (civilFromDays days).1 + (civilFromDays days).2.1

def yearOf (days : Int) : Int := (civilFromDays days).1

theorem monthOf_eq {days month : Int} (hfirst : firstDay month ≤ days)
    (hnext : days < firstDay (month + 1)) : monthOf days = month := by
  obtain ⟨found, hfound, hafter, hcivil⟩ := civilFromDays_spec days
  have hle : found ≤ month := by
    have hlt := firstDay_strictMono.lt_iff_lt.mp (hfound.trans_lt hnext)
    omega
  have hge : month ≤ found := by
    have hlt := firstDay_strictMono.lt_iff_lt.mp (hfirst.trans_lt hafter)
    omega
  rw [monthOf, hcivil]
  dsimp only
  omega

theorem firstDay_monthOf (days : Int) :
    firstDay (monthOf days) ≤ days ∧ days < firstDay (monthOf days + 1) := by
  obtain ⟨month, hfirst, hnext, _⟩ := civilFromDays_spec days
  rw [monthOf_eq hfirst hnext]
  exact ⟨hfirst, hnext⟩

theorem civilFromDays_eq (days : Int) : civilFromDays days =
    (monthOf days / 12, monthOf days % 12, days - firstDay (monthOf days) + 1) := by
  obtain ⟨month, hfirst, hnext, hcivil⟩ := civilFromDays_spec days
  rw [monthOf_eq hfirst hnext, hcivil]

theorem yearOf_eq (days : Int) : yearOf days = monthOf days / 12 := by
  rw [yearOf, civilFromDays_eq]

theorem monthOf_mono {a b : Int} (h : a ≤ b) : monthOf a ≤ monthOf b := by
  have ha := (firstDay_monthOf a).1
  have hb := (firstDay_monthOf b).2
  have hlt := firstDay_strictMono.lt_iff_lt.mp ((ha.trans h).trans_lt hb)
  omega

theorem yearOf_mono {a b : Int} (h : a ≤ b) : yearOf a ≤ yearOf b := by
  rw [yearOf_eq, yearOf_eq]
  have hmonth := monthOf_mono h
  omega

theorem monthOf_add_le {a b : Int} (h : b ≤ a + 93) : monthOf b ≤ monthOf a + 4 := by
  have hlast := (firstDay_monthOf a).2
  have hfirst := (firstDay_monthOf b).1
  have hmonths : firstDay (monthOf a + 1) + 112 ≤ firstDay (monthOf a + 5) := by
    have h1 := (firstDay_succ_bounds (monthOf a + 1)).1
    have h2 := (firstDay_succ_bounds (monthOf a + 1 + 1)).1
    have h3 := (firstDay_succ_bounds (monthOf a + 1 + 1 + 1)).1
    have h4 := (firstDay_succ_bounds (monthOf a + 1 + 1 + 1 + 1)).1
    have hfive : monthOf a + 1 + 1 + 1 + 1 + 1 = monthOf a + 5 := by omega
    rw [hfive] at h4
    omega
  have hlt : firstDay (monthOf b) < firstDay (monthOf a + 5) := by omega
  have hmonth := firstDay_strictMono.lt_iff_lt.mp hlt
  omega

-- A wait of three months ends in the next year at the latest.
theorem yearOf_add_le {a b : Int} (h : b ≤ a + 93) : yearOf b ≤ yearOf a + 1 := by
  have hmonth := monthOf_add_le h
  rw [yearOf_eq, yearOf_eq]
  omega

-- The `Date` constructor takes these years for years of the twentieth century.
def EarlyYear (year : Int) : Prop := 0 ≤ year ∧ year ≤ 99

def readYear (year : Int) : Int := if 0 ≤ year ∧ year ≤ 99 then 1900 + year else year

theorem readYear_of_early {year : Int} (h : EarlyYear year) : readYear year = 1900 + year := if_pos h

theorem readYear_of_not_early {year : Int} (h : ¬EarlyYear year) : readYear year = year := if_neg h

def dayOf (offset ms : Int) : Int := (ms + offset) / MS_PER_DAY

-- The time of day in milliseconds.
def clockOf (offset ms : Int) : Int := (ms + offset) % MS_PER_DAY

def instant (offset days clock : Int) : Int := days * MS_PER_DAY + clock - offset

variable {offset : Int}

theorem clockOf_bounds (ms : Int) : 0 ≤ clockOf offset ms ∧ clockOf offset ms < MS_PER_DAY := by
  unfold clockOf MS_PER_DAY
  omega

@[simp] theorem instant_dayOf_clockOf (ms : Int) :
    instant offset (dayOf offset ms) (clockOf offset ms) = ms := by
  unfold instant dayOf clockOf MS_PER_DAY
  omega

theorem dayOf_instant {days clock : Int} (h : 0 ≤ clock ∧ clock < MS_PER_DAY) :
    dayOf offset (instant offset days clock) = days := by
  unfold dayOf instant
  unfold MS_PER_DAY at h ⊢
  omega

theorem clockOf_instant {days clock : Int} (h : 0 ≤ clock ∧ clock < MS_PER_DAY) :
    clockOf offset (instant offset days clock) = clock := by
  unfold clockOf instant
  unfold MS_PER_DAY at h ⊢
  omega

theorem dayOf_mono {a b : Int} (h : a ≤ b) : dayOf offset a ≤ dayOf offset b := by
  unfold dayOf MS_PER_DAY
  omega

theorem dateOf_eq (ms : Int) :
    (constantOffset offset).dateOf ms = civilFromDays (dayOf offset ms) := rfl

theorem ofParts_eq (y m d hh mm : Int) : (constantOffset offset).ofParts y m d hh mm =
    instant offset (firstDay (12 * readYear y + m) + d - 1) (hh * 3600000 + mm * 60000) := by
  change daysFromCivil (readYear y + m / 12) (m % 12) d * MS_PER_DAY + hh * 3600000 + mm * 60000 -
    offset = _
  have hsplit : 12 * (readYear y + m / 12) + m % 12 = 12 * readYear y + m := by omega
  rw [daysFromCivil_eq d (by omega), hsplit]
  unfold instant
  ring

-- The fields of a day give the day back, also where a number of days is added to them.
theorem ofParts_civil {days : Int} (h : ¬EarlyYear (yearOf days)) (add hh mm : Int) :
    (constantOffset offset).ofParts (civilFromDays days).1 (civilFromDays days).2.1
        ((civilFromDays days).2.2 + add) hh mm =
      instant offset (days + add) (hh * 3600000 + mm * 60000) := by
  have hyear : readYear (civilFromDays days).1 = (civilFromDays days).1 := readYear_of_not_early h
  have hmonth : 12 * (civilFromDays days).1 + (civilFromDays days).2.1 = monthOf days := rfl
  rw [ofParts_eq, hyear, hmonth, civilFromDays_eq]
  dsimp only
  congr 1
  omega

theorem nextDay_civil {days : Int} (h : ¬EarlyYear (yearOf days)) :
    (constantOffset offset).nextDay (civilFromDays days).1 (civilFromDays days).2.1
      (civilFromDays days).2.2 = civilFromDays (days + 1) := by
  rw [nextDay, ofParts_civil h, dateOf_eq, dayOf_instant (by unfold MS_PER_DAY; omega)]

-- An early date is taken for one of the twentieth century.
theorem yearOf_ofParts_early {y m d hh mm : Int} (h : EarlyYear y) (hm : 0 ≤ m) (hd : 1 ≤ d)
    (hclock : 0 ≤ hh * 3600000 + mm * 60000 ∧ hh * 3600000 + mm * 60000 < MS_PER_DAY) :
    1900 ≤ yearOf (dayOf offset ((constantOffset offset).ofParts y m d hh mm)) := by
  rw [ofParts_eq, dayOf_instant hclock, yearOf_eq, readYear_of_early h]
  have hlater := monthOf_mono (show firstDay (12 * (1900 + y) + m) ≤
    firstDay (12 * (1900 + y) + m) + d - 1 by omega)
  rw [monthOf_eq (Int.le_refl _) (firstDay_strictMono (by omega))] at hlater
  have hearly := h.1
  omega

theorem civil_bounds (days : Int) : 0 ≤ (civilFromDays days).2.1 ∧ (civilFromDays days).2.1 ≤ 11 ∧
    1 ≤ (civilFromDays days).2.2 := by
  have hfirst := (firstDay_monthOf days).1
  rw [civilFromDays_eq]
  dsimp only
  omega

end MeshClient.ScheduledBroadcasts.LocalTime
