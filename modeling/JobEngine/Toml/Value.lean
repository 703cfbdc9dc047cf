import JobEngine.Text.Blank
import JobEngine.Time.Calendar

/-!
# TOML values

Dates and floating-point numbers are recognised, but their values are not
kept. `Scalar.ofChars?` reads the bare words of the format: numbers, flags,
dates and times.
-/
namespace JobEngine.Toml

open Text (isDigit digitValue hexValue?)

inductive Value
  | text (s : String)
  | whole (n : Int)
  | flag (b : Bool)
  | float
  | date
  | array (items : List Value)
  | table (fields : List (String × Value))
deriving Repr, Inhabited

namespace Scalar

/-- Digits of a base; an underscore stands between two digits only. -/
def digits? (isOne : Char → Bool) : List Char → Option (List Char)
  | [] => none
  | [c] => if isOne c then some [c] else none
  | c :: '_' :: rest => if isOne c then (digits? isOne rest).map (c :: ·) else none
  | c :: d :: rest => if isOne c then (digits? isOne (d :: rest)).map (c :: ·) else none

def valueIn (base : Nat) (digits : List Char) : Nat :=
  digits.foldl (fun value c => value * base + (hexValue? c).getD 0) 0

/-- Whole numbers reach from the least signed to the greatest unsigned 64-bit value. -/
def whole? (n : Int) : Option Value :=
  if -9223372036854775808 ≤ n ∧ n < UInt64.size then some (.whole n) else none

def inBase? (base : Nat) (cs : List Char) : Option Value :=
  (digits? (fun c => match hexValue? c with
    | some d => decide (d < base)
    | none => false) cs).bind fun digits => whole? (valueIn base digits)

/-- Decimal digits without a leading zero. -/
def decimal? (cs : List Char) : Option (List Char) :=
  (digits? isDigit cs).bind fun digits =>
    if digits.head? = some '0' ∧ 1 < digits.length then none else some digits

def splitSign : List Char → Bool × List Char
  | '-' :: rest => (true, rest)
  | '+' :: rest => (false, rest)
  | rest => (false, rest)

/-- Whether the double nearest to `digits * 10 ^ power` is finite. -/
def isFinite (digits : Nat) (power : Int) : Bool :=
  if digits = 0 then true
  else if 400 < power then false
  else if 0 ≤ power then !(Float.ofScientific digits false power.toNat).isInf
  else !(Float.ofScientific digits true power.natAbs).isInf

/-- A fraction, an exponent, or both, after a whole part. -/
def float? (cs : List Char) : Option Value := do
  let isMark (c : Char) : Bool := c = 'e' || c = 'E'
  let mantissa := cs.takeWhile fun c => !isMark c
  let exponent ← match cs.dropWhile fun c => !isMark c with
    | [] => some (0 : Int)
    | _ :: rest =>
      let (negative, rest) := splitSign rest
      (digits? isDigit rest).map fun ds =>
        let size : Int := valueIn 10 ds
        if negative then -size else size
  match Text.splitAll '.' mantissa with
  | [whole] =>
    let whole ← decimal? whole
    if isFinite (valueIn 10 whole) exponent then some .float else none
  | [whole, fraction] =>
    let whole ← decimal? whole
    let fraction ← digits? isDigit fraction
    if isFinite (valueIn 10 (whole ++ fraction)) (exponent - fraction.length) then some .float
    else none
  | _ => none

def number? (cs : List Char) : Option Value :=
  match cs with
  | '0' :: 'x' :: rest => inBase? 16 rest
  | '0' :: 'o' :: rest => inBase? 8 rest
  | '0' :: 'b' :: rest => inBase? 2 rest
  | cs =>
    let (negative, rest) := splitSign cs
    if rest = "inf".toList ∨ rest = "nan".toList then some .float
    else
      match decimal? rest with
      | some digits =>
        let size : Int := valueIn 10 digits
        whole? (if negative then -size else size)
      | none => float? rest

/-! ## Dates and times -/

def twoDigits? : List Char → Option (Nat × List Char)
  | a :: b :: rest =>
    if isDigit a ∧ isDigit b then some (digitValue a * 10 + digitValue b, rest) else none
  | _ => none

def date? (cs : List Char) : Option (List Char) :=
  match cs with
  | a :: b :: c :: d :: '-' :: rest =>
    if [a, b, c, d].all isDigit then
      let year : Int := valueIn 10 [a, b, c, d]
      match twoDigits? rest with
      | some (month, '-' :: rest) =>
        match twoDigits? rest with
        | some (day, rest) => if (Time.Date.mk year month day).valid then some rest else none
        | none => none
      | _ => none
    else none
  | _ => none

def fraction? : List Char → Option (List Char)
  | '.' :: rest =>
    if (rest.takeWhile isDigit).isEmpty then none else some (rest.dropWhile isDigit)
  | rest => some rest

/-- Hours and minutes, with or without seconds. -/
def clock? (cs : List Char) : Option (List Char) :=
  match twoDigits? cs with
  | some (hour, ':' :: rest) =>
    match twoDigits? rest with
    | some (minute, rest) =>
      if hour ≤ 23 ∧ minute ≤ 59 then
        match rest with
        | ':' :: rest =>
          match twoDigits? rest with
          | some (second, rest) => if second ≤ 60 then fraction? rest else none
          | none => none
        | rest => some rest
      else none
    | none => none
  | _ => none

def offset? : List Char → Bool
  | [] => true
  | ['Z'] | ['z'] => true
  | sign :: rest =>
    if sign = '+' ∨ sign = '-' then
      match twoDigits? rest with
      | some (hour, ':' :: rest) =>
        match twoDigits? rest with
        | some (minute, []) => hour ≤ 23 && minute ≤ 59
        | _ => false
      | _ => false
    else false

def moment? (cs : List Char) : Option Value :=
  match date? cs with
  | some [] => some .date
  | some (mark :: rest) =>
    if mark = 'T' ∨ mark = 't' ∨ mark = ' ' then
      (clock? rest).bind fun rest => if offset? rest then some .date else none
    else none
  | none =>
    match clock? cs with
    | some [] => some .date
    | _ => none

/-- The value of a bare word. -/
def ofChars? (cs : List Char) : Option Value :=
  if cs = "true".toList then some (.flag true)
  else if cs = "false".toList then some (.flag false)
  else (number? cs).or (moment? cs)

end Scalar

end JobEngine.Toml
