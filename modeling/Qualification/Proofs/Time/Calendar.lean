import Qualification.Time
/-!
# The calendar

The dates of day numbers are dates, and their day numbers are those. Years begin in March here. An
era of 400 years has centuries of 36524 days, these have fours of 1461 days, and these have years of
365 days; the last century, four and year of each have one day more where there is a leap day.

* `EraDay`, `exists_eraDay`: where in its era a day lies;
* `yearOfEra_eq`: the year of a day, without cases;
* `dateOfDay_eq`, `dayNumber_of_eraDay`: the two functions in terms of it;
* **`dateOfDay_spec`**: the date of a day number.
-/

namespace Qualification.Instant

/-- The year in its era of a day of the era. -/
def yearOfEra (d : Int) : Int := (d - d / 1460 + d / 36524 - d / 146096) / 365

/-- A day of an era lies in a century, a four of that, a year of that, and is a day of that. -/
structure EraDay (d century four year day : Int) : Prop where
  sum : d = 36524 * century + 1461 * four + 365 * year + day
  century_nonneg : 0 ≤ century
  century_le : century ≤ 3
  four_nonneg : 0 ≤ four
  four_le : four ≤ 24
  year_nonneg : 0 ≤ year
  year_le : year ≤ 3
  day_nonneg : 0 ≤ day
  day_le : day ≤ 365
  leap : day = 365 → year = 3 ∧ (four < 24 ∨ century = 3)

theorem exists_eraDay {d : Int} (h : 0 ≤ d) (h' : d < 146097) :
    ∃ century four year day, EraDay d century four year day := by
  -- The last day of an era and that of a four belong to what is over but for them.
  obtain ⟨century, r, hd, hcentury⟩ : ∃ century r, d = 36524 * century + r ∧ 0 ≤ century ∧
      century ≤ 3 ∧ 0 ≤ r ∧ (r ≤ 36523 ∨ r = 36524 ∧ century = 3) := by
    by_cases hlast : d = 146096
    · exact ⟨3, 36524, by omega⟩
    · exact ⟨d / 36524, d % 36524, by omega⟩
  obtain ⟨year, day, hr, hyear⟩ : ∃ year day, r % 1461 = 365 * year + day ∧ 0 ≤ year ∧ year ≤ 3 ∧
      0 ≤ day ∧ (day ≤ 364 ∨ day = 365 ∧ year = 3) := by
    by_cases hlast : r % 1461 = 1460
    · exact ⟨3, 365, by omega⟩
    · exact ⟨r % 1461 / 365, r % 1461 % 365, by omega⟩
  exact ⟨century, r / 1461, year, day, by omega, by omega, by omega, by omega, by omega, by omega,
    by omega, by omega, by omega, by omega⟩

/-- Every day number lies in an era. -/
theorem exists_era (n : Int) : ∃ era d century four year day,
    n + 719468 = era * 146097 + d ∧ 0 ≤ d ∧ d < 146097 ∧ EraDay d century four year day := by
  have hd : 0 ≤ (n + 719468) % 146097 := by omega
  have hd' : (n + 719468) % 146097 < 146097 := by omega
  obtain ⟨century, four, year, day, h⟩ := exists_eraDay hd hd'
  exact ⟨(n + 719468) / 146097, _, century, four, year, day, by omega, hd, hd', h⟩

namespace EraDay

variable {d century four year day : Int}

/-- The days of an era before a year. -/
theorem daysBefore (h : EraDay d century four year day) :
    (100 * century + 4 * four + year) * 365 + (100 * century + 4 * four + year) / 4 -
      (100 * century + 4 * four + year) / 100 = d - day := by
  have hyear := h.year_nonneg
  have hyear' := h.year_le
  have hfour := h.four_nonneg
  have hfour' := h.four_le
  have hfours : (100 * century + 4 * four + year) / 4 = 25 * century + four := by
    clear hfour hfour'
    omega
  have hcenturies : (100 * century + 4 * four + year) / 100 = century := by omega
  rw [hfours, hcenturies, h.sum]
  omega

theorem year_bounds (h : EraDay d century four year day) :
    0 ≤ 100 * century + 4 * four + year ∧ 100 * century + 4 * four + year < 400 := by
  obtain ⟨-, hcentury, hcentury', hfour, hfour', hyear, hyear', -, -, -⟩ := h
  omega

/-- **The year of a day.** -/
theorem yearOfEra_eq (h : EraDay d century four year day) :
    yearOfEra d = 100 * century + 4 * four + year := by
  obtain ⟨hd, hcentury, hcentury', hfour, hfour', hyear, hyear', hday, hday', hleap⟩ := h
  have hcenturies : d / 36524 - d / 146096 = century := by
    by_cases hlast : four = 24 ∧ day = 365
    · omega
    · have hin : 1461 * four + 365 * year + day < 36524 := by omega
      have hquotient : d / 36524 = century := by
        rw [show d = 1461 * four + 365 * year + day + 36524 * century by omega,
          Int.add_mul_ediv_left _ _ (by decide), Int.ediv_eq_zero_of_lt (by omega) hin,
          Int.zero_add]
      omega
  -- Fours of 1460 days fall behind by a day each, which is made up for within the last year.
  obtain ⟨early, hfours, hearly⟩ : ∃ early, d / 1460 = 25 * century + four + early ∧
      (early = 0 ∧ day ≤ 364 ∨ early = 1 ∧ 1 ≤ day) := by
    by_cases hlong : 24 * century + four + 365 * year + day < 1460
    · exact ⟨0, by omega, by omega⟩
    · exact ⟨1, by omega, by omega⟩
  have hdays : d - d / 1460 + d / 36524 - d / 146096 =
      365 * (100 * century + 4 * four + year) + (day - early) := by omega
  rw [yearOfEra, hdays]
  omega

/-- A year of 366 days ends with a leap day. -/
theorem isLeapYear (h : EraDay d century four year day) (hday : day = 365) (era : Int) :
    isLeapYear (100 * century + 4 * four + year + era * 400 + 1) = true := by
  obtain ⟨rfl, hlast⟩ := h.leap hday
  have hfour := h.four_nonneg
  have hfour' := h.four_le
  have hmod : (100 * century + 4 * four + 3 + era * 400 + 1) % 4 = 0 := by omega
  have hcentury : (100 * century + 4 * four + 3 + era * 400 + 1) % 100 ≠ 0 ∨
      (100 * century + 4 * four + 3 + era * 400 + 1) % 400 = 0 := by
    rcases hlast with hlast | rfl
    · exact .inl (by omega)
    · omega
  simp only [Instant.isLeapYear, hmod]
  simpa using hcentury

end EraDay

/-- The number of a month in the year that begins in January. -/
def civilMonth (month : Int) : Int := if month < 10 then month + 3 else month - 9

theorem civilMonth_bounds {month : Int} (h : 0 ≤ month) (h' : month ≤ 11) :
    1 ≤ civilMonth month ∧ civilMonth month ≤ 12 := by
  unfold civilMonth
  split <;> omega

/-- The month of a day of the year, and its day in the month. -/
theorem month_bounds {day : Int} (h : 0 ≤ day) (h' : day ≤ 365) :
    0 ≤ (5 * day + 2) / 153 ∧ (5 * day + 2) / 153 ≤ 11 ∧
      0 ≤ day - (153 * ((5 * day + 2) / 153) + 2) / 5 := by
  omega

section Date

variable {n era d century four year day : Int}

theorem dateOfDay_eq (hn : n + 719468 = era * 146097 + d) (hd : 0 ≤ d) (hd' : d < 146097)
    (h : EraDay d century four year day) :
    dateOfDay n =
      let month := (5 * day + 2) / 153
      (100 * century + 4 * four + year + era * 400 + (if civilMonth month ≤ 2 then 1 else 0),
        (civilMonth month).toNat, (day - (153 * month + 2) / 5 + 1).toNat) := by
  have hera : Int.fdiv (n + 719468) 146097 = era := by
    rw [Int.fdiv_eq_ediv_of_nonneg _ (by decide), hn, Int.add_comm,
      Int.add_mul_ediv_right _ _ (by decide), Int.ediv_eq_zero_of_lt hd hd', Int.zero_add]
  have hrest : n + 719468 - era * 146097 = d := by omega
  have hyear := h.yearOfEra_eq
  unfold yearOfEra at hyear
  have hday : d - (365 * (100 * century + 4 * four + year) +
      (100 * century + 4 * four + year) / 4 - (100 * century + 4 * four + year) / 100) = day := by
    rw [Int.mul_comm 365, h.daysBefore]
    omega
  simp only [dateOfDay, hera, hrest, hyear, hday]
  rfl

theorem dayNumber_of_eraDay (h : EraDay d century four year day) {month : Int} (hmonth : 0 ≤ month)
    (hmonth' : month ≤ 11) (hday : 0 ≤ day - (153 * month + 2) / 5) :
    dayNumber
      (100 * century + 4 * four + year + era * 400 + (if civilMonth month ≤ 2 then 1 else 0))
      (civilMonth month).toNat (day - (153 * month + 2) / 5 + 1).toNat =
      era * 146097 + d - 719468 := by
  obtain ⟨hcivil, -⟩ := civilMonth_bounds hmonth hmonth'
  have hmarch : (civilMonth month + 9) % 12 = month := by
    unfold civilMonth
    split <;> omega
  have hcast : ((civilMonth month).toNat : Int) = civilMonth month := by omega
  have hspring : ((civilMonth month).toNat ≤ 2) = (civilMonth month ≤ 2) := by
    apply propext
    omega
  have hyear : (if civilMonth month ≤ 2 then
      100 * century + 4 * four + year + era * 400 + (if civilMonth month ≤ 2 then 1 else 0) - 1
      else 100 * century + 4 * four + year + era * 400 +
        (if civilMonth month ≤ 2 then 1 else 0)) =
      100 * century + 4 * four + year + era * 400 := by
    split <;> omega
  have hera : Int.fdiv (100 * century + 4 * four + year + era * 400) 400 = era := by
    rw [Int.fdiv_eq_ediv_of_nonneg _ (by decide), Int.add_mul_ediv_right _ _ (by decide),
      Int.ediv_eq_zero_of_lt h.year_bounds.1 h.year_bounds.2, Int.zero_add]
  have hrest : 100 * century + 4 * four + year + era * 400 - era * 400 =
      100 * century + 4 * four + year := by omega
  have hdayOfYear : (153 * month + 2) / 5 +
      ((day - (153 * month + 2) / 5 + 1).toNat : Int) - 1 = day := by omega
  simp only [dayNumber, hspring, hyear, hera, hrest, hcast, hmarch, hdayOfYear, h.daysBefore]
  omega

end Date

theorem daysInMonth_le (year : Int) (month : Nat) : daysInMonth year month ≤ 31 := by
  unfold daysInMonth
  split
  · split <;> decide
  · split <;> decide

/-- A month that has a day of the year has it among its days. -/
theorem day_le_daysInMonth {day month : Int} (h' : day ≤ 365)
    (hmonth : (5 * day + 2) / 153 = month) (h : 0 ≤ day) {civilYear : Int}
    (hleap : day = 365 → isLeapYear civilYear = true) :
    (day - (153 * month + 2) / 5 + 1).toNat ≤ daysInMonth civilYear (civilMonth month).toNat := by
  have hcases : month = 0 ∨ month = 1 ∨ month = 2 ∨ month = 3 ∨ month = 4 ∨ month = 5 ∨ month = 6 ∨
      month = 7 ∨ month = 8 ∨ month = 9 ∨ month = 10 ∨ month = 11 := by omega
  rcases hcases with rfl | rfl | rfl | rfl | rfl | rfl | rfl | rfl | rfl | rfl | rfl | rfl
  all_goals simp only [civilMonth, daysInMonth]
  case inr.inr.inr.inr.inr.inr.inr.inr.inr.inr.inr =>
    -- February
    by_cases hday : day = 365
    · simp [hleap hday, hday]
    · simp
      split <;> omega
  all_goals simp
  all_goals omega

/-- **The date of a day number** has a month of the year and a day of the month, and it is the date
with that day number. -/
theorem dateOfDay_spec (n : Int) :
    let date := dateOfDay n
    1 ≤ date.2.1 ∧ date.2.1 ≤ 12 ∧ 1 ≤ date.2.2 ∧ date.2.2 ≤ daysInMonth date.1 date.2.1 ∧
      dayNumber date.1 date.2.1 date.2.2 = n := by
  obtain ⟨era, d, century, four, year, day, hn, hd, hd', h⟩ := exists_era n
  obtain ⟨hmonth, hmonth', hday⟩ := month_bounds h.day_nonneg h.day_le
  obtain ⟨hcivil, hcivil'⟩ := civilMonth_bounds hmonth hmonth'
  intro date
  have hdate : date = _ := dateOfDay_eq hn hd hd' h
  rw [hdate]
  refine ⟨?_, ?_, ?_, ?_, ?_⟩
  · simp only
    omega
  · simp only
    omega
  · simp only
    omega
  · refine day_le_daysInMonth h.day_le rfl h.day_nonneg fun hlast => ?_
    have hfebruary : civilMonth ((5 * day + 2) / 153) ≤ 2 := by
      rw [hlast]
      decide
    simp only [if_pos hfebruary]
    exact h.isLeapYear hlast era
  · simp only
    rw [dayNumber_of_eraDay h hmonth hmonth' hday]
    omega

end Qualification.Instant
