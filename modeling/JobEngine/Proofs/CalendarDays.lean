import JobEngine.Time.Calendar

/-!
# Days and dates

A day has one date, and the days of a date are counted back to that day. The
days of an era are divided into its 400 years by one quotient; that it gives
the right year is shown by centuries, groups of four years and single years.
-/
namespace JobEngine.Time

/-! ## The year of a day in its era -/

/-- The day of an era on which one of its years begins. -/
def yearStart (year : Int) : Int := 365 * year + year / 4 - year / 100

/-- The year of a day, as the calendar computes it. -/
def yearOfDay (day : Int) : Int := (day - day / 1460 + day / 36524 - day / 146096) / 365

/-- A year of an era in centuries, groups of four years behind them, and years behind those. -/
structure YearParts (year century four one : Int) : Prop where
  sum : year = 100 * century + 4 * four + one
  centuries : 0 ≤ century ∧ century < 4
  fours : 0 ≤ four ∧ four < 25
  ones : 0 ≤ one ∧ one < 4

theorem YearParts.start {year century four one : Int} (parts : YearParts year century four one) :
    yearStart year = 36524 * century + 1461 * four + 365 * one := by
  obtain ⟨rfl, centuries, fours, ones⟩ := parts
  unfold yearStart
  omega

section YearOfDay

variable {day century four one : Int}

theorem yearOfDay_range (first : 0 ≤ day) (last : day < 146097) :
    0 ≤ yearOfDay day ∧ yearOfDay day < 400 := by
  unfold yearOfDay
  omega

theorem yearOfDay_parts (first : 0 ≤ day) (last : day < 146097) :
    ∃ century four one, YearParts (yearOfDay day) century four one := by
  have range := yearOfDay_range first last
  exact ⟨yearOfDay day / 100, yearOfDay day % 100 / 4, yearOfDay day % 4, by omega, by omega,
    by omega, by omega⟩

/-- The quotients of a day before the last one of its era, and what they say of its year. -/
structure DayParts (day year leaps centuries : Int) : Prop where
  leap : 1460 * leaps ≤ day ∧ day ≤ 1460 * leaps + 1459
  century : 36524 * centuries ≤ day ∧ day ≤ 36524 * centuries + 36523
  year : 365 * year ≤ day - leaps + centuries ∧ day - leaps + centuries ≤ 365 * year + 364

theorem dayParts (first : 0 ≤ day) (last : day < 146096) :
    DayParts day (yearOfDay day) (day / 1460) (day / 36524) := by
  have era : day / 146096 = 0 := by omega
  have quotient : yearOfDay day = (day - day / 1460 + day / 36524) / 365 := by
    rw [yearOfDay, era, Int.sub_zero]
  rw [quotient]
  constructor <;> omega

section Bounds

variable {year leaps centuries : Int} (parts : YearParts year century four one)
  (quotients : DayParts day year leaps centuries)
include parts quotients

theorem yearStart_le (first : 0 ≤ day) : 36524 * century + 1461 * four + 365 * one ≤ day := by
  obtain ⟨rfl, _, _, _⟩ := parts
  obtain ⟨leap, hundred, year⟩ := quotients
  refine Int.not_lt.mp fun early => ?_
  have past : centuries ≤ century := by omega
  omega

theorem le_yearEnd : day ≤ 36524 * century + 1461 * four + 365 * one + 365 := by
  obtain ⟨rfl, _, _, _⟩ := parts
  obtain ⟨leap, hundred, year⟩ := quotients
  refine Int.not_lt.mp fun late => ?_
  have past : century ≤ centuries := by omega
  omega

/-- The first three years of a group have no leap day. -/
theorem le_yearEnd_common (common : one ≠ 3) :
    day ≤ 36524 * century + 1461 * four + 365 * one + 364 := by
  obtain ⟨rfl, _, _, _⟩ := parts
  obtain ⟨leap, hundred, year⟩ := quotients
  refine Int.not_lt.mp fun late => ?_
  have past : century ≤ centuries := by omega
  omega

/-- Nor has the last year of a century. -/
theorem le_yearEnd_century (group : four = 24) (last : one = 3) :
    day ≤ 36524 * century + 1461 * four + 365 * one + 364 := by
  obtain ⟨rfl, _, _, _⟩ := parts
  obtain ⟨leap, hundred, year⟩ := quotients
  refine Int.not_lt.mp fun late => ?_
  have past : century + 1 ≤ centuries := by omega
  omega

end Bounds

/-- The year has begun by the day and has not ended; its last day may be a leap day. -/
theorem dayOfYear_range (first : 0 ≤ day) (last : day < 146097) :
    yearStart (yearOfDay day) ≤ day ∧ day ≤ yearStart (yearOfDay day) + 365 ∧
      (day = yearStart (yearOfDay day) + 365 →
        ∀ era, isLeapYear (yearOfDay day + era * 400 + 1) = true) := by
  simp only [isLeapYear, Bool.and_eq_true, Bool.or_eq_true, decide_eq_true_eq]
  by_cases last : day = 146096
  · subst last
    have year : yearOfDay 146096 = 399 := by decide
    rw [year]
    refine ⟨by decide, by decide, fun _ era => ?_⟩
    omega
  · obtain ⟨century, four, one, parts⟩ := yearOfDay_parts first (by omega)
    have quotients := dayParts first (by omega)
    rw [parts.start]
    refine ⟨yearStart_le parts quotients first, le_yearEnd parts quotients, fun leap era => ?_⟩
    have group : one = 3 := by
      by_cases common : one = 3
      · exact common
      · have short := le_yearEnd_common parts quotients common
        omega
    have within : four ≠ 24 := fun end' => by
      have short := le_yearEnd_century parts quotients end' group
      omega
    obtain ⟨sum, centuries, fours, -⟩ := parts
    rw [sum]
    omega

end YearOfDay

namespace Date

/-! ## Dates -/

/-- The date of a day by era, year of the era and day of the year, which begins in March. -/
def ofParts (era year day : Int) : Date :=
  let month := (5 * day + 2) / 153
  let civil := if month < 10 then month + 3 else month - 9
  ⟨year + era * 400 + (if civil ≤ 2 then 1 else 0), civil.toNat,
    (day - (153 * month + 2) / 5 + 1).toNat⟩

theorem ofDays_eq (days : Int) :
    ofDays days = ofParts ((days + 719468) / 146097) (yearOfDay ((days + 719468) % 146097))
      ((days + 719468) % 146097 - yearStart (yearOfDay ((days + 719468) % 146097))) := rfl

section Parts

variable {era year day : Int} (first : 0 ≤ day) (last : day ≤ 365)
include first last

omit first last in
/-- The days of a date from its year and month as they are counted from March. -/
theorem toDays_eq {d : Date} {month : Int}
    (years : (if d.month ≤ 2 then d.year - 1 else d.year) = year + era * 400)
    (months : (if d.month ≤ 2 then (d.month : Int) + 9 else d.month - 3) = month)
    (range : 0 ≤ year ∧ year < 400) :
    d.toDays = era * 146097 + (yearStart year + ((153 * month + 2) / 5 + d.day - 1)) - 719468 := by
  have quotient : (year + era * 400) / 400 = era := by omega
  have remainder : (year + era * 400) % 400 = year := by omega
  simp only [toDays, years, months, quotient, remainder, yearStart]
  omega

theorem toDays_ofParts (range : 0 ≤ year ∧ year < 400) :
    (ofParts era year day).toDays = era * 146097 + (yearStart year + day) - 719468 := by
  have span : 0 ≤ (5 * day + 2) / 153 ∧ (5 * day + 2) / 153 < 12 := by omega
  have begun : (153 * ((5 * day + 2) / 153) + 2) / 5 ≤ day := by omega
  have date : (ofParts era year day).day =
      (day - (153 * ((5 * day + 2) / 153) + 2) / 5 + 1).toNat := rfl
  have years : (if (ofParts era year day).month ≤ 2 then (ofParts era year day).year - 1
      else (ofParts era year day).year) = year + era * 400 := by
    simp only [ofParts]
    split <;> split <;> omega
  have months : (if (ofParts era year day).month ≤ 2 then ((ofParts era year day).month : Int) + 9
      else (ofParts era year day).month - 3) = (5 * day + 2) / 153 := by
    simp only [ofParts]
    split <;> split <;> omega
  rw [toDays_eq years months range, date]
  omega

theorem valid_ofParts (leap : day = 365 → isLeapYear (year + era * 400 + 1) = true) :
    (ofParts era year day).valid = true := by
  by_cases february : (5 * day + 2) / 153 = 11
  · by_cases end' : day = 365
    · subst end'
      simp [ofParts, valid, daysInMonth, leap rfl]
    · have short : 28 ≤ daysInMonth (year + era * 400 + 1) 2 := by
        simp only [daysInMonth]
        split <;> omega
      simp [ofParts, valid, february]
      omega
  · have months : (5 * day + 2) / 153 = 0 ∨ (5 * day + 2) / 153 = 1 ∨ (5 * day + 2) / 153 = 2 ∨
        (5 * day + 2) / 153 = 3 ∨ (5 * day + 2) / 153 = 4 ∨ (5 * day + 2) / 153 = 5 ∨
        (5 * day + 2) / 153 = 6 ∨ (5 * day + 2) / 153 = 7 ∨ (5 * day + 2) / 153 = 8 ∨
        (5 * day + 2) / 153 = 9 ∨ (5 * day + 2) / 153 = 10 := by
      omega
    obtain month | month | month | month | month | month | month | month | month | month |
      month := months <;> simp [ofParts, valid, month, daysInMonth] <;> omega

end Parts

/-- The date of a day is counted back to it. -/
theorem toDays_ofDays (days : Int) : (ofDays days).toDays = days := by
  have first : 0 ≤ (days + 719468) % 146097 := by omega
  have last : (days + 719468) % 146097 < 146097 := by omega
  obtain ⟨begun, going, -⟩ := dayOfYear_range first last
  rw [ofDays_eq, toDays_ofParts (by omega) (by omega) (yearOfDay_range first last)]
  omega

theorem valid_ofDays (days : Int) : (ofDays days).valid = true := by
  have first : 0 ≤ (days + 719468) % 146097 := by omega
  have last : (days + 719468) % 146097 < 146097 := by omega
  obtain ⟨begun, going, leap⟩ := dayOfYear_range first last
  rw [ofDays_eq]
  exact valid_ofParts (by omega) (by omega) fun end' => leap (by omega) _

/-! ## Years -/

/-- The days before a year that begins in March. -/
def daysBefore (year : Int) : Int := 365 * year + year / 4 - year / 100 + year / 400

theorem daysBefore_mono {year later : Int} (le : year ≤ later) :
    daysBefore year ≤ daysBefore later := by
  unfold daysBefore
  have cases : year = later ∨ year + 1 ≤ later := by omega
  omega

variable {d : Date} {year : Int}

theorem toDays_newYear (year : Int) :
    (Date.mk year 1 1).toDays = daysBefore (year - 1) + 306 - 719468 := by
  simp only [toDays, daysBefore]
  omega

theorem daysInMonth_le (year : Int) (month : Nat) : daysInMonth year month ≤ 31 := by
  unfold daysInMonth
  grind

/-- A valid date lies in its year. -/
theorem toDays_range (valid : d.valid = true) :
    daysBefore (d.year - 1) + 306 - 719468 ≤ d.toDays ∧
      d.toDays < daysBefore d.year + 306 - 719468 := by
  obtain ⟨year, month, day⟩ := d
  have long := daysInMonth_le year month
  simp only [Date.valid, Bool.and_eq_true, decide_eq_true_eq] at valid
  simp only [toDays, daysBefore]
  by_cases spring : month ≤ 2
  · simp only [if_pos spring]
    omega
  · simp only [if_neg spring]
    omega

theorem toDays_lt_newYear (valid : d.valid = true) (before : d.year < year) :
    d.toDays < (Date.mk year 1 1).toDays := by
  have mono := daysBefore_mono (show d.year ≤ year - 1 by omega)
  have range := toDays_range valid
  rw [toDays_newYear]
  omega

theorem newYear_le_toDays (valid : d.valid = true) (after : year ≤ d.year) :
    (Date.mk year 1 1).toDays ≤ d.toDays := by
  have mono := daysBefore_mono (show year - 1 ≤ d.year - 1 by omega)
  have range := toDays_range valid
  rw [toDays_newYear]
  omega

end Date

end JobEngine.Time
