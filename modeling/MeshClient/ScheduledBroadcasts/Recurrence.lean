import MeshClient.Js.Text

namespace MeshClient.ScheduledBroadcasts

inductive Interval where
  | hourly
  | daily
  | weekly
  | biweekly
  | monthly
deriving DecidableEq

structure Rule where
  interval : Interval
  timeOfDayMin : Int
  weekday : Option Int := none
  dayOfMonth : Option Int := none
  anchorYmd : Option String := none
deriving DecidableEq

-- The platform's local time: `new Date(y, m, d, hh, mm, 0, 0).getTime()` and the getters of
-- `new Date(ms)`. Months count from zero.
structure LocalTime where
  ofParts : Int → Int → Int → Int → Int → Int
  getFullYear : Int → Int
  getMonth : Int → Int
  getDate : Int → Int
  getHours : Int → Int
  getDay : Int → Int

def MAX_CANDIDATES : Nat := 1000

def splitTimeOfDay (timeOfDayMin : Int) : Option (Int × Int) :=
  if timeOfDayMin < 0 ∨ timeOfDayMin > 1439 then none else some (timeOfDayMin / 60, timeOfDayMin % 60)

-- The digits of `^(\d{4})-(\d{2})-(\d{2})$`.
def ymdDigits (ymd : String) : Option (List Char × List Char × List Char) :=
  match ymd.toList with
  | [y₁, y₂, y₃, y₄, '-', m₁, m₂, '-', d₁, d₂] =>
      if [y₁, y₂, y₃, y₄, m₁, m₂, d₁, d₂].all Js.isDigit then
        some ([y₁, y₂, y₃, y₄], [m₁, m₂], [d₁, d₂])
      else none
  | _ => none

def ymdParts (ymd : String) : Option (Int × Int × Int) :=
  (ymdDigits ymd).bind fun (y, mo, d) =>
    let mo := Js.digitsValue mo
    let d := Js.digitsValue d
    if mo < 1 ∨ mo > 12 ∨ d < 1 ∨ d > 31 then none
    else some (Js.digitsValue y, (mo : Int) - 1, (d : Int))

namespace LocalTime

variable (t : LocalTime)

def dateOf (ms : Int) : Int × Int × Int := (t.getFullYear ms, t.getMonth ms, t.getDate ms)

def nextDay (y m d : Int) : Int × Int × Int := t.dateOf (t.ofParts y m (d + 1) 0 0)

def mondayWeekIndex (ms : Int) : Int :=
  let daysFromMonday := (t.getDay ms + 6) % 7
  let monday := t.ofParts (t.getFullYear ms) (t.getMonth ms) (t.getDate ms - daysFromMonday) 0 0
  monday / (7 * 24 * 60 * 60 * 1000)

def daysInMonth (y m : Int) : Int := t.getDate (t.ofParts y (m + 1) 0 0 0)

def hourlyFrom (afterMs minuteOfHour : Int) : Nat → Int × Int × Int → Int → Option Int
  | 0, _, _ => none
  | n + 1, (y, m, d), h =>
      let candidate := t.ofParts y m d h minuteOfHour
      if candidate > afterMs then some candidate
      else if h + 1 > 23 then hourlyFrom afterMs minuteOfHour n (t.nextDay y m d) 0
      else hourlyFrom afterMs minuteOfHour n (y, m, d) (h + 1)

def nextHourly (afterMs minuteOfHour : Int) : Option Int :=
  t.hourlyFrom afterMs minuteOfHour MAX_CANDIDATES (t.dateOf afterMs) (t.getHours afterMs)

-- The loop that `nextDaily`, `nextWeekly` and `nextBiweekly` share: day by day until one has a
-- candidate.
def dayFrom (candidate : Int → Int → Int → Option Int) : Nat → Int × Int × Int → Option Int
  | 0, _ => none
  | n + 1, (y, m, d) => (candidate y m d).or (dayFrom candidate n (t.nextDay y m d))

def dailyAt (afterMs hh mm y m d : Int) : Option Int :=
  let candidate := t.ofParts y m d hh mm
  if candidate > afterMs then some candidate else none

def weeklyAt (afterMs weekday hh mm y m d : Int) : Option Int :=
  if t.getDay (t.ofParts y m d 0 0) = weekday then t.dailyAt afterMs hh mm y m d else none

def biweeklyAt (afterMs weekday hh mm anchorMs y m d : Int) : Option Int :=
  (t.weeklyAt afterMs weekday hh mm y m d).filter fun candidate =>
    |t.mondayWeekIndex candidate - t.mondayWeekIndex anchorMs| % 2 == 0

def nextDaily (afterMs hh mm : Int) : Option Int :=
  t.dayFrom (t.dailyAt afterMs hh mm) MAX_CANDIDATES (t.dateOf afterMs)

def nextWeekly (afterMs weekday hh mm : Int) : Option Int :=
  t.dayFrom (t.weeklyAt afterMs weekday hh mm) MAX_CANDIDATES (t.dateOf afterMs)

def nextBiweekly (afterMs weekday hh mm anchorMs : Int) : Option Int :=
  t.dayFrom (t.biweeklyAt afterMs weekday hh mm anchorMs) MAX_CANDIDATES (t.dateOf afterMs)

def monthlyFrom (afterMs dayOfMonth hh mm : Int) : Nat → Int → Int → Option Int
  | 0, _, _ => none
  | n + 1, y, m =>
      let candidate := t.ofParts y m dayOfMonth hh mm
      if dayOfMonth ≤ t.daysInMonth y m ∧ t.dateOf candidate = (y, m, dayOfMonth) ∧ candidate > afterMs then
        some candidate
      else if m + 1 > 11 then monthlyFrom afterMs dayOfMonth hh mm n (y + 1) 0
      else monthlyFrom afterMs dayOfMonth hh mm n y (m + 1)

def nextMonthly (afterMs dayOfMonth hh mm : Int) : Option Int :=
  t.monthlyFrom afterMs dayOfMonth hh mm MAX_CANDIDATES (t.getFullYear afterMs) (t.getMonth afterMs)

-- Midnight of the anchor date, or of the day of `afterMs` where the rule names none.
def anchorOf (anchorYmd : Option String) (afterMs : Int) : Option Int :=
  match anchorYmd.filter fun ymd => ymd != "" with
  | some ymd => (ymdParts ymd).map fun (y, m, d) => t.ofParts y m d 0 0
  | none =>
      let (y, m, d) := t.dateOf afterMs
      some (t.ofParts y m d 0 0)

def inRange (value : Option Int) (low high : Int) : Option Int :=
  value.filter fun v => decide (low ≤ v ∧ v ≤ high)

def computeNextDue (rule : Rule) (afterMs : Int) : Option Int :=
  (splitTimeOfDay rule.timeOfDayMin).bind fun (hh, mm) =>
    match rule.interval with
    | .hourly => t.nextHourly afterMs mm
    | .daily => t.nextDaily afterMs hh mm
    | .weekly => (inRange rule.weekday 0 6).bind fun weekday => t.nextWeekly afterMs weekday hh mm
    | .biweekly => (inRange rule.weekday 0 6).bind fun weekday =>
        (t.anchorOf rule.anchorYmd afterMs).bind fun anchorMs => t.nextBiweekly afterMs weekday hh mm anchorMs
    | .monthly => (inRange rule.dayOfMonth 1 31).bind fun dayOfMonth => t.nextMonthly afterMs dayOfMonth hh mm

def advanceFrom (rule : Rule) (nowMs : Int) : Nat → Int → Option Int
  | 0, _ => none
  | n + 1, cursor =>
      (t.computeNextDue rule cursor).bind fun next =>
        if next > nowMs then some next else advanceFrom rule nowMs n next

def advancePastDue (rule : Rule) (dueAt nowMs : Int) : Option Int :=
  if dueAt > nowMs then some dueAt else t.advanceFrom rule nowMs MAX_CANDIDATES dueAt

def MS_PER_DAY : Int := 24 * 60 * 60 * 1000

-- Days from 1970-01-01 to the day; `m` counts from zero and `d` may leave the month.
def daysFromCivil (y m d : Int) : Int :=
  let y := if m < 2 then y - 1 else y
  let yearOfEra := y % 400
  let dayOfYear := (153 * ((m + 10) % 12) + 2) / 5 + d - 1
  y / 400 * 146097 + (yearOfEra * 365 + yearOfEra / 4 - yearOfEra / 100 + dayOfYear) - 719468

def civilFromDays (days : Int) : Int × Int × Int :=
  let era := (days + 719468) / 146097
  let dayOfEra := (days + 719468) % 146097
  let yearOfEra := (dayOfEra - dayOfEra / 1460 + dayOfEra / 36524 - dayOfEra / 146096) / 365
  let dayOfYear := dayOfEra - (365 * yearOfEra + yearOfEra / 4 - yearOfEra / 100)
  let shifted := (5 * dayOfYear + 2) / 153
  let m := (shifted + 2) % 12
  (yearOfEra + era * 400 + if m < 2 then 1 else 0, m, dayOfYear - (153 * shifted + 2) / 5 + 1)

-- The `Date` of a time zone with a constant offset to UTC; the constructor reads the years 0 to
-- 99 as 1900 to 1999.
def constantOffset (offset : Int) : LocalTime where
  ofParts y m d hh mm :=
    let y := if 0 ≤ y ∧ y ≤ 99 then 1900 + y else y
    (daysFromCivil (y + m / 12) (m % 12) d) * MS_PER_DAY + hh * 3600000 + mm * 60000 - offset
  getFullYear ms := (civilFromDays ((ms + offset) / MS_PER_DAY)).1
  getMonth ms := (civilFromDays ((ms + offset) / MS_PER_DAY)).2.1
  getDate ms := (civilFromDays ((ms + offset) / MS_PER_DAY)).2.2
  getHours ms := (ms + offset) % MS_PER_DAY / 3600000
  getDay ms := ((ms + offset) / MS_PER_DAY + 4) % 7

theorem dayFrom_some {t : LocalTime} {candidate : Int → Int → Int → Option Int} {P : Int → Prop}
    (h : ∀ y m d next, candidate y m d = some next → P next) {n : Nat} {date : Int × Int × Int} {next : Int}
    (hnext : t.dayFrom candidate n date = some next) : P next := by
  induction n generalizing date with
  | zero => cases hnext
  | succ n ih =>
      obtain ⟨y, m, d⟩ := date
      unfold dayFrom at hnext
      rcases Option.or_eq_some_iff.mp hnext with hnow | ⟨_, hlater⟩
      · exact h y m d next hnow
      · exact ih hlater

theorem dailyAt_gt {t : LocalTime} {afterMs hh mm y m d next : Int}
    (h : t.dailyAt afterMs hh mm y m d = some next) : next > afterMs := by
  unfold dailyAt at h
  dsimp only at h
  split_ifs at h with hlater
  obtain rfl := Option.some.inj h
  exact hlater

theorem weeklyAt_gt {t : LocalTime} {afterMs weekday hh mm y m d next : Int}
    (h : t.weeklyAt afterMs weekday hh mm y m d = some next) : next > afterMs := by
  unfold weeklyAt at h
  split_ifs at h
  exact dailyAt_gt h

theorem hourlyFrom_gt {t : LocalTime} {afterMs minuteOfHour h next : Int} {n : Nat} {date : Int × Int × Int}
    (hnext : t.hourlyFrom afterMs minuteOfHour n date h = some next) : next > afterMs := by
  induction n generalizing date h with
  | zero => cases hnext
  | succ n ih =>
      obtain ⟨y, m, d⟩ := date
      unfold hourlyFrom at hnext
      dsimp only at hnext
      split_ifs at hnext with hlater
      · obtain rfl := Option.some.inj hnext
        exact hlater
      · exact ih hnext
      · exact ih hnext

theorem monthlyFrom_gt {t : LocalTime} {afterMs dayOfMonth hh mm y m next : Int} {n : Nat}
    (hnext : t.monthlyFrom afterMs dayOfMonth hh mm n y m = some next) : next > afterMs := by
  induction n generalizing y m with
  | zero => cases hnext
  | succ n ih =>
      unfold monthlyFrom at hnext
      dsimp only at hnext
      split_ifs at hnext with hfound
      · obtain rfl := Option.some.inj hnext
        exact hfound.2.2
      · exact ih hnext
      · exact ih hnext

-- Whatever the local time does, an occurrence found is strictly later than the given time.
theorem computeNextDue_gt {t : LocalTime} {rule : Rule} {afterMs next : Int}
    (h : t.computeNextDue rule afterMs = some next) : next > afterMs := by
  obtain ⟨⟨hh, mm⟩, _, hnext⟩ := Option.bind_eq_some_iff.mp h
  dsimp only at hnext
  cases hinterval : rule.interval with
  | hourly =>
      rw [hinterval] at hnext
      exact hourlyFrom_gt hnext
  | daily =>
      rw [hinterval] at hnext
      exact dayFrom_some (fun _ _ _ _ => dailyAt_gt) hnext
  | weekly =>
      rw [hinterval] at hnext
      obtain ⟨weekday, _, hnext⟩ := Option.bind_eq_some_iff.mp hnext
      exact dayFrom_some (fun _ _ _ _ => weeklyAt_gt) hnext
  | biweekly =>
      rw [hinterval] at hnext
      obtain ⟨weekday, _, hnext⟩ := Option.bind_eq_some_iff.mp hnext
      obtain ⟨anchorMs, _, hnext⟩ := Option.bind_eq_some_iff.mp hnext
      have hlater : ∀ y m d found, t.biweeklyAt afterMs weekday hh mm anchorMs y m d = some found →
          found > afterMs := fun y m d found hfound => weeklyAt_gt (Option.filter_eq_some_iff.mp hfound).1
      exact dayFrom_some hlater hnext
  | monthly =>
      rw [hinterval] at hnext
      obtain ⟨dayOfMonth, _, hnext⟩ := Option.bind_eq_some_iff.mp hnext
      exact monthlyFrom_gt hnext

theorem advancePastDue_gt {t : LocalTime} {rule : Rule} {dueAt nowMs next : Int}
    (h : t.advancePastDue rule dueAt nowMs = some next) : next > nowMs := by
  have hwalk : ∀ (n : Nat) (cursor : Int), t.advanceFrom rule nowMs n cursor = some next → next > nowMs := by
    intro n
    induction n with
    | zero =>
        intro cursor hnone
        cases hnone
    | succ n ih =>
        intro cursor hsome
        obtain ⟨step, _, hstep⟩ := Option.bind_eq_some_iff.mp hsome
        split_ifs at hstep with hlater
        · obtain rfl := Option.some.inj hstep
          exact hlater
        · exact ih step hstep
  unfold advancePastDue at h
  split_ifs at h with hlater
  · obtain rfl := Option.some.inj h
    exact hlater
  · exact hwalk _ _ h

end LocalTime

end MeshClient.ScheduledBroadcasts
