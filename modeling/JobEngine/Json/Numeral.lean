import JobEngine.Json.Value
import JobEngine.Text.Blank

/-!
# Numbers in JSON text

A numeral without fraction and exponent is a whole number if it fits 64 bits;
minus zero and everything else is a double. The double is built from the
leading digits that fit an unsigned 64-bit significand, scaled once by a power
of ten: near the ends of the range it may differ from the nearest double in
the last place.
-/
namespace JobEngine.Json

open Text (isDigit digitValue)

structure Numeral where
  negative : Bool
  whole : List Char
  fraction : Option (List Char)
  /-- The sign of the power of ten and its digits. -/
  exponent : Option (Bool × List Char)
deriving DecidableEq, Repr

def largestSignificand : Nat := UInt64.size - 1

/-- Digits are taken into the significand while it fits; the rest is left over. -/
def takeDigits : Nat → List Char → Nat × List Char
  | value, [] => (value, [])
  | value, c :: rest =>
    let next := value * 10 + digitValue c
    if next ≤ largestSignificand then takeDigits next rest else (value, c :: rest)

/-- `value * 10 ^ power`, scaled in steps of at most `10 ^ 308`. -/
def scale : Nat → Float → Int → Option Float
  | 0, value, _ => some value
  | fuel + 1, value, power =>
    if power.natAbs ≤ 308 then
      let unit := Float.ofScientific 1 false power.natAbs
      if 0 ≤ power then
        let product := value * unit
        if product.isInf then none else some product
      else some (value / unit)
    else if value == 0.0 then some value
    else if 0 ≤ power then none
    else scale fuel (value / Float.ofScientific 1 false 308) (power + 308)

namespace Numeral

/-- The power of ten that is written out, or that the value leaves the range. -/
def writtenPower (n : Numeral) (significand : Nat) : Option (Option Int) :=
  match n.exponent with
  | none => some (some 0)
  | some (negative, digits) =>
    let size := digits.foldl (fun value c => value * 10 + digitValue c) 0
    if size ≤ 2147483647 then some (some (if negative then -(size : Int) else size))
    else if significand ≠ 0 ∧ !negative then none
    else some none

def real? (n : Numeral) : Option Number :=
  let (start, spare) := takeDigits 0 n.whole
  let (significand, unread) := takeDigits start (n.fraction.getD [])
  let taken := (n.fraction.getD []).length - unread.length
  match n.writtenPower significand with
  | none => none
  | some power =>
    let magnitude := match power with
      | none => some 0.0
      | some p =>
        scale 10000000 significand.toUInt64.toFloat (p + (spare.length : Int) - (taken : Int))
    magnitude.map fun f => .real (if n.negative then -f else f).toBits

def number? (n : Numeral) : Option Number :=
  if n.fraction.isNone ∧ n.exponent.isNone then
    let value := n.whole.foldl (fun value c => value * 10 + digitValue c) 0
    if n.negative then
      if 0 < value ∧ value ≤ 9223372036854775808 then some (.whole (-(value : Int))) else n.real?
    else if value ≤ largestSignificand then some (.whole value)
    else n.real?
  else n.real?

end Numeral

end JobEngine.Json
