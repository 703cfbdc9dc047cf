import JobEngine.Time.Timestamp

/-!
# Cron expressions

Six fields, seconds first, and a year that may follow: seconds, minutes,
hours, day of the month, month, day of the week. A field is a star or a list
of values, ranges and steps. A day must fit both its field in the month and
its field in the week. `L` is the last day of the month, `15W` the working day
nearest to the fifteenth, `5L` the last Friday and `5#2` the second one.
-/
namespace JobEngine.Time

open Text (isDigit digitValue isBlank)

structure Cron where
  seconds : List Nat
  minutes : List Nat
  hours : List Nat
  days : List Nat
  lastDay : Bool := false
  /-- Days of the month that stand for the working day nearest to them. -/
  nearest : List Nat := []
  months : List Nat
  weekdays : List Nat
  /-- A weekday and which one of the month it is. -/
  numbered : List (Nat × Nat) := []
  lastWeekdays : List Nat := []
  /-- Every year if none is given. -/
  years : Option (List Nat) := none
deriving DecidableEq, Repr

namespace Cron

/-! ## Reading -/

/-- Replaces each occurrence of a word, from left to right. -/
def replaceWord (word replacement : List Char) : Nat → List Char → List Char
  | 0, cs => cs
  | _, [] => []
  | fuel + 1, c :: rest =>
    if !word.isEmpty && word.isPrefixOf (c :: rest) then
      replacement ++ replaceWord word replacement fuel ((c :: rest).drop word.length)
    else c :: replaceWord word replacement fuel rest

/-- A Sunday at the end of a range is the seventh day of the week. -/
def names : List (String × String) := [
  ("-SUN", "-7"), ("SUN", "0"), ("MON", "1"), ("TUE", "2"), ("WED", "3"), ("THU", "4"),
  ("FRI", "5"), ("SAT", "6"),
  ("JAN", "1"), ("FEB", "2"), ("MAR", "3"), ("APR", "4"), ("MAY", "5"), ("JUN", "6"),
  ("JUL", "7"), ("AUG", "8"), ("SEP", "9"), ("OCT", "10"), ("NOV", "11"), ("DEC", "12")]

def replaceNames (cs : List Char) : List Char :=
  names.foldl (fun cs (word, number) => replaceWord word.toList number.toList cs.length cs) cs

def nicknames : List (String × String) := [
  ("@YEARLY", "0 0 0 1 1 *"), ("@ANNUALLY", "0 0 0 1 1 *"), ("@MONTHLY", "0 0 0 1 * *"),
  ("@WEEKLY", "0 0 0 * * 0"), ("@DAILY", "0 0 0 * * *"), ("@HOURLY", "0 0 * * * *")]

def number? (cs : List Char) : Option Nat :=
  if cs.isEmpty || !cs.all isDigit then none
  else some (cs.foldl (fun value c => value * 10 + digitValue c) 0)

/-- `first` to `last`, both between `least` and `largest`. -/
def range? (least largest : Nat) (cs : List Char) : Option (Nat × Nat) :=
  match Text.splitAll '-' cs with
  | [first, last] => do
    let first ← number? first
    let last ← number? last
    if least ≤ first ∧ first ≤ last ∧ last ≤ largest then some (first, last) else none
  | _ => none

def valuesBetween (first last : Nat) : List Nat := List.range' first (last + 1 - first)

/-- A part of a field: a value, a range, or a step through a range. -/
def part? (least largest : Nat) (cs : List Char) : Option (List Nat) :=
  match Text.splitAll '/' cs with
  | [base] =>
    if base.contains '-' then
      (range? least largest base).map fun (first, last) => valuesBetween first last
    else
      (number? base).bind fun n => if least ≤ n ∧ n ≤ largest then some [n] else none
  | [base, step] => do
    let step ← number? step
    let (first, last) ←
      if base = ['*'] then some (least, largest)
      else if base.contains '-' then range? least largest base
      else (number? base).bind fun n =>
        if least ≤ n ∧ n ≤ largest then some (n, largest) else none
    if step = 0 then none
    else some ((valuesBetween first last).filter fun v => (v - first) % step = 0)
  | _ => none

/-- The parts of a list; empty ones do not count. -/
def listParts (cs : List Char) : List (List Char) :=
  (Text.splitAll ',' cs).filter (!·.isEmpty)

/-- The values of a field, each once and in order. -/
def field? (least largest : Nat) (cs : List Char) : Option (List Nat) :=
  if cs = ['*'] then some (valuesBetween least largest)
  else
    ((listParts cs).mapM (part? least largest)).map fun found =>
      (valuesBetween least largest).filter fun v => found.any (·.contains v)

def dayMark? (cs : List Char) : Option Nat :=
  match cs.getLast? with
  | some 'W' => number? cs.dropLast
  | _ => none

/-- A weekday and its number in the month. -/
def numbered? (cs : List Char) : Option (Nat × Nat) :=
  match Text.splitAll '#' cs with
  | [day, n] => do
    let day ← number? day
    let n ← number? n
    if day ≤ 7 ∧ 1 ≤ n ∧ n ≤ 5 then some (day % 7, n) else none
  | _ => none

def lastWeekday? (cs : List Char) : Option Nat :=
  match cs.reverse with
  | 'L' :: '#' :: day | 'L' :: day =>
    (number? day.reverse).bind fun day => if day ≤ 7 then some (day % 7) else none
  | _ => none

def questionToStar (cs : List Char) : List Char := cs.map fun c => if c = '?' then '*' else c

def legal (extra : List Char) (cs : List Char) : Bool :=
  cs.all fun c => isDigit c || ['*', '/', '-', ',', '?'].contains c || extra.contains c

/-- The fields in the order in which they are written. -/
def ofFields? (fields : List (List Char)) : Option Cron := do
  let (second, minute, hour, day, month, weekday, year) ← match fields with
    | [s, m, h, d, mo, w] => some (s, m, h, d, mo, w, (none : Option (List Char)))
    | [s, m, h, d, mo, w, y] => some (s, m, h, d, mo, w, some y)
    | _ => none
  if !([second, minute, hour, month].all (legal [])) || !legal ['L', 'W'] day ||
      !legal ['L', '#'] weekday || !(year.all (legal [])) then none
  else
    let dayParts := listParts (questionToStar day)
    let weekdayParts := listParts (questionToStar weekday)
    let plainDays := dayParts.filter fun p => p ≠ ['L'] && (dayMark? p).isNone
    let nearest := dayParts.filterMap dayMark?
    let plainWeekdays := weekdayParts.filter fun p =>
      p ≠ ['L'] && (numbered? p).isNone && (lastWeekday? p).isNone
    let joined (parts : List (List Char)) : List Char := [','].intercalate parts
    if nearest.any fun n => n = 0 || 31 < n then none
    else
      return {
        seconds := ← field? 0 59 second
        minutes := ← field? 0 59 minute
        hours := ← field? 0 23 hour
        days := ← field? 1 31 (joined plainDays)
        lastDay := dayParts.contains ['L']
        nearest := nearest
        months := ← field? 1 12 month
        weekdays := (← field? 0 7 (joined plainWeekdays)).map (· % 7)
        numbered := weekdayParts.filterMap numbered?
        lastWeekdays := weekdayParts.filterMap lastWeekday?
        years := ← match year with
          | none => some none
          | some y => if y = ['*'] then some none else (field? 1 9999 y).map some }

def parse? (s : String) : Option Cron :=
  let cs := (Text.trimEnd (Text.trimStart s.toList)).map Text.upperChar
  let cs := match nicknames.find? (·.1.toList = cs) with
    | some (_, pattern) => pattern.toList
    | none => cs
  ofFields? (Text.words (replaceNames cs))

/-! ## Matching -/

/-- The working day nearest to a day, in the same month. -/
def nearestWorkingDay (year : Int) (month day : Nat) : Nat :=
  match (Date.mk year month day).weekday with
  | 6 => if day = 1 then day + 2 else day - 1
  | 0 => if day = daysInMonth year month then day - 2 else day + 1
  | _ => day

def matchesDay (c : Cron) (d : Date) : Bool :=
  let weekday := d.weekday
  let inMonth := c.days.contains d.day ||
    (c.lastDay && d.day = daysInMonth d.year d.month) ||
    c.nearest.any fun n =>
      n ≤ daysInMonth d.year d.month && nearestWorkingDay d.year d.month n = d.day
  let inWeek := c.weekdays.contains weekday ||
    c.numbered.contains (weekday, (d.day + 6) / 7) ||
    (c.lastWeekdays.contains weekday && daysInMonth d.year d.month < d.day + 7)
  inMonth && inWeek

def matchesMonth (c : Cron) (d : Date) : Bool :=
  c.months.contains d.month && c.years.all fun years => years.contains d.year.toNat

/-- No match is looked for beyond this year. -/
def lastYear : Int := 5000

/-- The first matching day from one day on. -/
def nextDay? (c : Cron) : Nat → Date → Option Date
  | 0, _ => none
  | fuel + 1, d =>
    if lastYear < d.year then none
    else if !c.matchesMonth d then
      nextDay? c fuel (if d.month < 12 then ⟨d.year, d.month + 1, 1⟩ else ⟨d.year + 1, 1, 1⟩)
    else if c.matchesDay d then some d
    else nextDay? c fuel (.ofDays (d.toDays + 1))

/-- The first matching second of a day, not before `start`. -/
def nextClock? (c : Cron) (start : Nat) : Option Nat :=
  (c.hours.filter fun h => start < (h + 1) * 3600).findSome? fun h =>
    (c.minutes.filter fun m => start < h * 3600 + (m + 1) * 60).findSome? fun m =>
      (c.seconds.find? fun s => start ≤ h * 3600 + m * 60 + s).map
        fun s => h * 3600 + m * 60 + s

/-- Days that a search visits at most. -/
def horizon : Nat := 2000000

/-- The first matching second after a second, both counted from 1970-01-01. -/
def nextAfter? (c : Cron) (second : Int) : Option Int :=
  let first := second + 1
  let today := Date.ofDays (first / 86400)
  let later : Unit → Option Int := fun _ => do
    let d ← c.nextDay? horizon (.ofDays (today.toDays + 1))
    let clock ← c.nextClock? 0
    return d.toDays * 86400 + clock
  if c.matchesMonth today && c.matchesDay today then
    match c.nextClock? (first % 86400).toNat with
    | some clock => some (today.toDays * 86400 + clock)
    | none => later ()
  else later ()

end Cron

end JobEngine.Time
