import SealedEnvelope.Time.Calendar

/-!
# `SealedEnvelope.Proofs.Time.Calendar`: every number of days is a date

`Date.ofDays` finds a date by dividing out years of 365 days after it has taken off the
leap days before it. The theorems show that this is right for every number of days, before
1970 and after:

* `Date.isValid_ofDays`: the date exists, with the 29th of February in leap years only;
* `Date.toDays_ofDays`: its number of days is the one that it was found from;
* `Date.year_ofDays_le_iff`: its year is the one between whose first day and the first day of
  the next it lies.

The work is in `CycleDay.year_eq`: within a cycle of 400 years the divisions find the year
that the day lies in. A day of a cycle is taken apart into centuries, periods of four years
and years, and in these numbers the divisions can be carried out.
-/

set_option autoImplicit false

namespace SealedEnvelope.Date

/-- A day of a cycle of 400 years as full centuries, full periods of four years within the
century, full years within the period and the days of the last year. Only the last year of
a period has a day 365, and only the last century has a leap year at its end. -/
structure CycleDay (day century period year rest : Nat) : Prop where
  day_eq : day = 36524 * century + 1461 * period + 365 * year + rest
  century_le : century ≤ 3
  period_le : period ≤ 24
  year_le : year ≤ 3
  rest_le : rest ≤ 365
  leap : rest = 365 → year = 3 ∧ (period = 24 → century = 3)

/-- Every day of a cycle can be taken apart. -/
theorem exists_cycleDay {day : Nat} (h : day < 146097) :
    ∃ century period year rest, CycleDay day century period year rest := by
  obtain ⟨century, hcentury⟩ : ∃ n, n = min 3 (day / 36524) := ⟨_, rfl⟩
  obtain ⟨inCentury, hinCentury⟩ : ∃ n, n = day - 36524 * century := ⟨_, rfl⟩
  obtain ⟨period, hperiod⟩ : ∃ n, n = inCentury / 1461 := ⟨_, rfl⟩
  obtain ⟨inPeriod, hinPeriod⟩ : ∃ n, n = inCentury - 1461 * period := ⟨_, rfl⟩
  obtain ⟨year, hyear⟩ : ∃ n, n = min 3 (inPeriod / 365) := ⟨_, rfl⟩
  refine ⟨century, period, year, inPeriod - 365 * year, ?_, ?_, ?_, ?_, ?_, ?_⟩ <;> omega

section
variable {day century period year rest : Nat}

/-- The year within the cycle is what is left when the leap days before it are taken off
and years of 365 days are divided out. -/
theorem CycleDay.year_eq (h : CycleDay day century period year rest) :
    (day - day / 1460 + day / 36524 - day / 146096) / 365 = 100 * century + 4 * period + year := by
  obtain ⟨rfl, hcentury, hperiod, hyear, hrest, hleap⟩ := h
  -- The last day of the cycle is the only one that counts as a fifth century.
  have hcenturies : (36524 * century + 1461 * period + 365 * year + rest) / 36524
        - (36524 * century + 1461 * period + 365 * year + rest) / 146096 = century := by
    by_cases hlast : 36524 ≤ 1461 * period + 365 * year + rest
    · have hcentury' : century = 3 := by omega
      have hrest' : 1461 * period + 365 * year + rest = 36524 := by omega
      omega
    · have hdiv : (36524 * century + 1461 * period + 365 * year + rest) / 36524 = century := by
        omega
      omega
  -- A period has 1461 days and not 1460, so towards its end one more is counted.
  have hperiods : (36524 * century + 1461 * period + 365 * year + rest) / 1460
      = 25 * century + period
        + (if 1460 ≤ 24 * century + period + 365 * year + rest then 1 else 0) := by
    split <;> omega
  have hbound : (36524 * century + 1461 * period + 365 * year + rest) / 146096
      ≤ (36524 * century + 1461 * period + 365 * year + rest) / 36524 := by omega
  rw [hperiods]
  split <;> omega

/-- The days of a cycle before the year of a day. -/
theorem CycleDay.start_eq (h : CycleDay day century period year rest) :
    365 * (100 * century + 4 * period + year) + (100 * century + 4 * period + year) / 4
        - (100 * century + 4 * period + year) / 100
      = 36524 * century + 1461 * period + 365 * year := by
  obtain ⟨-, hcentury, hperiod, hyear, -, -⟩ := h
  have hfour : (100 * century + 4 * period + year) / 4 = 25 * century + period := by omega
  have hhundred : (100 * century + 4 * period + year) / 100 = century := by omega
  rw [hfour, hhundred]
  omega

/-- The 29th of February, the last day of a year that is counted from March, is one of a
leap year. -/
theorem CycleDay.isLeapYear (h : CycleDay day century period year rest) (hrest : rest = 365)
    (cycle : Int) :
    isLeapYear (cycle * 400 + (100 * century + 4 * period + year : Nat) + 1) = true := by
  obtain ⟨-, hcentury, hperiod, -, -, hleap⟩ := h
  obtain ⟨hyear, hlast⟩ := hleap hrest
  simp only [Date.isLeapYear, Bool.and_eq_true, Bool.or_eq_true, beq_iff_eq, bne_iff_ne]
  refine ⟨by omega, ?_⟩
  by_cases hend : period = 24
  · right
    have := hlast hend
    omega
  · left
    omega

end

/-- The month that a day of a year counted from March lies in. -/
def monthOfRest (rest : Nat) : Nat :=
  if (5 * rest + 2) / 153 < 10 then (5 * rest + 2) / 153 + 3 else (5 * rest + 2) / 153 - 9

/-- The day of the month that a day of a year counted from March is. -/
def dayOfRest (rest : Nat) : Nat := rest - (153 * ((5 * rest + 2) / 153) + 2) / 5 + 1

/-- The month and the day of the month give the day of the year back. -/
theorem rest_eq {rest : Nat} (h : rest ≤ 365) :
    (153 * ((monthOfRest rest + 9) % 12) + 2) / 5 + (dayOfRest rest - 1) = rest := by
  have key : ∀ rest : Fin 366,
      (153 * ((monthOfRest rest.val + 9) % 12) + 2) / 5 + (dayOfRest rest.val - 1) = rest.val := by
    decide +kernel
  exact key ⟨rest, Nat.lt_succ_of_le h⟩

/-- No month is shorter than the days that fall in it, if the 29th of February falls in leap
years only. -/
theorem dayOfRest_le_monthLength {rest : Nat} (h : rest ≤ 365) {year : Int}
    (hleap : monthOfRest rest ≤ 2 → rest = 365 → isLeapYear year = true) :
    dayOfRest rest ≤ monthLength year (monthOfRest rest) := by
  unfold monthLength
  -- The year enters through its being a leap year only, which leaves finitely many cases.
  generalize isLeapYear year = leap at hleap
  have key : ∀ rest : Fin 366, ∀ leap : Bool,
      (monthOfRest rest.val ≤ 2 → rest.val = 365 → leap = true) →
      dayOfRest rest.val ≤ if monthOfRest rest.val = 2 then (if leap then 29 else 28)
        else if monthOfRest rest.val = 4 ∨ monthOfRest rest.val = 6 ∨ monthOfRest rest.val = 9
          ∨ monthOfRest rest.val = 11 then 30
        else if 1 ≤ monthOfRest rest.val ∧ monthOfRest rest.val ≤ 12 then 31 else 0 := by
    decide +kernel
  exact key ⟨rest, Nat.lt_succ_of_le h⟩ leap hleap

/-- A number of days within its cycle, with the date that it has there. -/
theorem ofDays_eq (days : Int) :
    ∃ cycle : Int, ∃ day century period year rest : Nat,
      CycleDay day century period year rest ∧ days = cycle * 146097 + day - 719468
        ∧ (ofDays days).month = monthOfRest rest ∧ (ofDays days).day = dayOfRest rest
        ∧ (ofDays days).year =
            if monthOfRest rest ≤ 2 then cycle * 400 + (100 * century + 4 * period + year : Nat) + 1
            else cycle * 400 + (100 * century + 4 * period + year : Nat) := by
  obtain ⟨cycle, hcycle⟩ : ∃ n, n = (days + 719468) / 146097 := ⟨_, rfl⟩
  obtain ⟨day, hday⟩ : ∃ n, n = ((days + 719468) % 146097).toNat := ⟨_, rfl⟩
  have hday' : day < 146097 := by omega
  obtain ⟨century, period, year, rest, h⟩ := exists_cycleDay hday'
  have hrest : day - (365 * (100 * century + 4 * period + year)
      + (100 * century + 4 * period + year) / 4 - (100 * century + 4 * period + year) / 100)
      = rest := by
    rw [h.start_eq, h.day_eq]
    omega
  refine ⟨cycle, day, century, period, year, rest, h, by omega, ?_, ?_, ?_⟩
  · simp only [ofDays, ← hday, h.year_eq, hrest, monthOfRest]
  · simp only [ofDays, ← hday, h.year_eq, hrest, dayOfRest]
  · simp only [ofDays, ← hcycle, ← hday, h.year_eq, hrest]
    rfl

/-- Every number of days is that of a date that exists. -/
theorem isValid_ofDays (days : Int) : (ofDays days).isValid = true := by
  obtain ⟨cycle, day, century, period, year, rest, h, -, hmonth, hday, hyear⟩ := ofDays_eq days
  simp only [isValid, Bool.and_eq_true, decide_eq_true_eq, hmonth, hday]
  refine ⟨Nat.le_add_left 1 _, dayOfRest_le_monthLength h.rest_le fun hle hrest => ?_⟩
  rw [hyear, if_pos hle]
  exact h.isLeapYear hrest cycle

/-- The date of a number of days has this number of days. -/
theorem toDays_ofDays (days : Int) : (ofDays days).toDays = days := by
  obtain ⟨cycle, day, century, period, year, rest, h, hdays, hmonth, hday, hyear⟩ := ofDays_eq days
  obtain ⟨inCycle, hinCycle⟩ : ∃ n, n = 100 * century + 4 * period + year := ⟨_, rfl⟩
  have hlt : inCycle < 400 := by
    have := h.century_le
    have := h.period_le
    have := h.year_le
    omega
  have hstart := h.start_eq
  have hrest := rest_eq h.rest_le
  have hdayEq := h.day_eq
  rw [← hinCycle] at hyear hstart
  -- Years are counted from March again, so the one added for January and February goes.
  have hfirst : (if (ofDays days).month ≤ 2 then (ofDays days).year - 1 else (ofDays days).year)
      = cycle * 400 + inCycle := by
    rw [hmonth, hyear]
    split <;> omega
  have hcycle : (cycle * 400 + inCycle) / 400 = cycle := by omega
  have hmod : ((cycle * 400 + inCycle) % 400).toNat = inCycle := by omega
  simp only [toDays]
  rw [hfirst, hcycle, hmod, dayOfCycle, hmonth, hday, hrest]
  omega

/-! ## The year of a day -/

/-- The number of days from the first of March of the year 0 to the first of March of a
year. -/
def marchDays (year : Int) : Int := 365 * year + year / 4 - year / 100 + year / 400

/-- Years have 365 days and some leap days, so that between two of them there are not much
fewer days. -/
theorem marchDays_add_le {year later : Int} (h : year < later) :
    marchDays year + 362 ≤ marchDays later := by
  unfold marchDays
  omega

/-- The days of whole years within a cycle and the cycles before it. -/
theorem marchDays_cycle (cycle : Int) {inCycle : Nat} (h : inCycle < 400) :
    marchDays (cycle * 400 + inCycle)
      = cycle * 146097 + (365 * inCycle + inCycle / 4 - inCycle / 100 : Nat) := by
  unfold marchDays
  omega

/-- The first of January stands in the year that has begun in March before. -/
theorem toDays_january (year : Int) :
    toDays { year := year, month := 1, day := 1 } = marchDays (year - 1) + 306 - 719468 := by
  obtain ⟨cycle, hcycle⟩ : ∃ n, n = (year - 1) / 400 := ⟨_, rfl⟩
  obtain ⟨inCycle, hinCycle⟩ : ∃ n, n = ((year - 1) % 400).toNat := ⟨_, rfl⟩
  have hyear : year - 1 = cycle * 400 + inCycle := by omega
  have hmarch := marchDays_cycle cycle (by omega : inCycle < 400)
  rw [hyear, hmarch]
  simp only [toDays, dayOfCycle]
  rw [if_pos (by decide), ← hcycle, ← hinCycle]
  omega

/-- A day lies in a year or an earlier one exactly if it is before the first of January of the
next. -/
theorem year_ofDays_le_iff (days year : Int) :
    (ofDays days).year ≤ year ↔ days < toDays { year := year + 1, month := 1, day := 1 } := by
  obtain ⟨cycle, day, century, period, yearOfPeriod, rest, h, hdays, -, -, hyear⟩ := ofDays_eq days
  obtain ⟨march, hmarch⟩ :
      ∃ n : Int, n = cycle * 400 + (100 * century + 4 * period + yearOfPeriod : Nat) := ⟨_, rfl⟩
  have hlt : 100 * century + 4 * period + yearOfPeriod < 400 := by
    have := h.century_le
    have := h.period_le
    have := h.year_le
    omega
  have hstart : days = marchDays march + rest - 719468 := by
    have hcycle := marchDays_cycle cycle hlt
    rw [h.start_eq, ← hmarch] at hcycle
    have := h.day_eq
    omega
  have hrest := h.rest_le
  -- January and February are the days from 306 on, and belong to the next year.
  have hjanuary : monthOfRest rest ≤ 2 ↔ 306 ≤ rest := by
    have key : ∀ rest : Fin 366, monthOfRest rest.val ≤ 2 ↔ 306 ≤ rest.val := by decide +kernel
    exact key ⟨rest, Nat.lt_succ_of_le hrest⟩
  rw [toDays_january, Int.add_sub_cancel, hyear, ← hmarch, hstart]
  rcases Int.lt_trichotomy march year with hbefore | rfl | hafter
  · have := marchDays_add_le hbefore
    split <;> omega
  · split <;> omega
  · have := marchDays_add_le hafter
    split <;> omega

end SealedEnvelope.Date
