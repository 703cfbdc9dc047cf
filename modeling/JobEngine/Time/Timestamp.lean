import JobEngine.Text.Blank
import JobEngine.Time.Calendar

/-!
# Points in time

A point in time is a second of the UTC scale and a fraction of it in
nanoseconds; a fraction of a whole second or more lies in a leap second after
that second. It is written as an RFC 3339 text in UTC. The reader is more
liberal: single-digit fields, blanks around the separators, a signed year of
any length and any offset from UTC are accepted.
-/
namespace JobEngine.Time

open Text (isDigit isBlank digitValue trimStart)

structure Timestamp where
  /-- Seconds since 1970-01-01T00:00:00Z. -/
  second : Int
  nanos : Nat
deriving DecidableEq, Repr, Inhabited

namespace Timestamp

def ofMillis (ms : Nat) : Timestamp := ⟨(ms / 1000 : Nat), ms % 1000 * 1000000⟩

def before (a b : Timestamp) : Bool :=
  a.second < b.second || (a.second = b.second && a.nanos < b.nanos)

/-! ## Writing -/

def padded (width n : Nat) : String :=
  let digits := toString n
  String.ofList (List.replicate (width - digits.length) '0') ++ digits

def yearText (year : Int) : String :=
  if 0 ≤ year ∧ year ≤ 9999 then padded 4 year.toNat
  else if 0 ≤ year then "+" ++ padded 4 year.toNat
  else "-" ++ padded 4 (-year).toNat

/-- The date and the clock to the second; a leap second is the sixtieth. -/
def clockText (t : Timestamp) : String :=
  let date := Date.ofDays (t.second / 86400)
  let clock := (t.second % 86400).toNat
  let leap := if 1000000000 ≤ t.nanos then 1 else 0
  yearText date.year ++ "-" ++ padded 2 date.month ++ "-" ++ padded 2 date.day ++ "T" ++
    padded 2 (clock / 3600) ++ ":" ++ padded 2 (clock / 60 % 60) ++ ":" ++
    padded 2 (clock % 60 + leap)

/-- None, three, six or nine digits: the fewest that are exact. -/
def fractionText (t : Timestamp) : String :=
  let nanos := t.nanos % 1000000000
  if nanos = 0 then ""
  else if nanos % 1000000 = 0 then "." ++ padded 3 (nanos / 1000000)
  else if nanos % 1000 = 0 then "." ++ padded 6 (nanos / 1000)
  else "." ++ padded 9 nanos

def text (t : Timestamp) : String := t.clockText ++ t.fractionText ++ "Z"

/-- With the offset of UTC written out. -/
def offsetText (t : Timestamp) : String := t.clockText ++ t.fractionText ++ "+00:00"

/-- Always three digits of the fraction. -/
def millisText (t : Timestamp) : String :=
  t.clockText ++ "." ++ padded 3 (t.nanos % 1000000000 / 1000000) ++ "Z"

/-! ## Reading -/

abbrev Scan (α : Type) := List Char → Option (α × List Char)

def foldDigits (digits : List Char) : Nat :=
  digits.foldl (fun value c => value * 10 + digitValue c) 0

/-- Between one and `most` digits. -/
def scanNumber (most : Nat) : Scan Nat := fun cs =>
  let digits := (cs.takeWhile isDigit).take most
  if digits.isEmpty then none else some (foldDigits digits, cs.drop digits.length)

/-- A signed year has any number of digits, an unsigned one at most four. -/
def scanYear : Scan Int := fun cs =>
  match trimStart cs with
  | '-' :: rest => (scanNumber rest.length rest).map fun (n, rest) => (-(n : Int), rest)
  | '+' :: rest => (scanNumber rest.length rest).map fun (n, rest) => ((n : Int), rest)
  | cs => (scanNumber 4 cs).map fun (n, rest) => ((n : Int), rest)

/-- Two digits at most, after blanks, and not above `largest`. -/
def scanField (least largest : Nat) : Scan Nat := fun cs =>
  match scanNumber 2 (trimStart cs) with
  | some (n, rest) => if least ≤ n ∧ n ≤ largest then some (n, rest) else none
  | none => none

def scanSeparator (sep : Char) (cs : List Char) : Option (List Char) :=
  match trimStart cs with
  | c :: rest => if c = sep then some rest else none
  | [] => none

/-- The digits after a point; those after the ninth do not count. -/
def scanFraction : Scan Nat
  | '.' :: rest =>
    let digits := rest.takeWhile isDigit
    if digits.isEmpty then none
    else
      let kept := digits.take 9
      some (foldDigits kept * Nat.pow 10 (9 - kept.length), rest.drop digits.length)
  | rest => some (0, rest)

/-- A text of two digits. -/
def scanPair : Scan Nat
  | a :: b :: rest =>
    if isDigit a ∧ isDigit b then some (digitValue a * 10 + digitValue b, rest) else none
  | _ => none

/-- Seconds east of UTC: `Z`, `UTC`, or hours and minutes with a sign. -/
def scanOffset : Scan Int := fun cs =>
  match cs with
  | 'Z' :: rest | 'z' :: rest => some (0, rest)
  | sign :: rest =>
    if (cs.take 3).map Text.upperChar = ['U', 'T', 'C'] then some (0, cs.drop 3)
    else
      let direction : Option Int :=
        if sign = '+' then some 1
        else if sign = '-' ∨ sign.toNat = 0x2212 then some (-1)
        else none
      match direction, scanPair rest with
      | some direction, some (hours, rest) =>
        match scanPair (rest.dropWhile fun c => c = ':' || isBlank c) with
        | some (minutes, rest) =>
          if minutes < 60 ∧ hours < 24 then
            some (direction * (hours * 3600 + minutes * 60 : Nat), rest)
          else none
        | none => none
      | _, _ => none
  | [] => none

/-- The years whose days are counted. -/
def earliestYear : Int := -262143

def latestYear : Int := 262142

def earliest : Int := (Date.mk earliestYear 1 1).toDays * 86400

def latest : Int := (Date.mk latestYear 12 31).toDays * 86400 + 86399

def ofChars? (cs : List Char) : Option Timestamp := do
  let (year, cs) ← scanYear cs
  let cs ← scanSeparator '-' cs
  let (month, cs) ← scanField 1 12 cs
  let cs ← scanSeparator '-' cs
  let (day, cs) ← scanField 1 31 cs
  let cs ← match cs with
    | 'T' :: rest | 't' :: rest | ' ' :: rest => some rest
    | _ => none
  let (hour, cs) ← scanField 0 23 cs
  let cs ← scanSeparator ':' cs
  let (minute, cs) ← scanField 0 59 cs
  let cs ← scanSeparator ':' cs
  let (second, cs) ← scanField 0 60 cs
  let (fraction, cs) ← scanFraction cs
  let (offset, cs) ← scanOffset (trimStart cs)
  if !(trimStart cs).isEmpty then none
  else
    let date := Date.mk year month day
    if !date.valid ∨ year < earliestYear ∨ latestYear < year then none
    else
      let leap := if second = 60 then 1 else 0
      let moment := date.toDays * 86400 + (hour * 3600 + minute * 60 + (second - leap) : Nat) -
        offset
      if moment < earliest ∨ latest < moment then none
      else some ⟨moment, fraction + leap * 1000000000⟩

def parse? (s : String) : Option Timestamp := ofChars? s.toList

end Timestamp

end JobEngine.Time
