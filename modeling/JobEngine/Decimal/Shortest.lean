/-!
# The shortest decimal of a binary floating-point number

A finite double is a whole multiple of a power of two. Every real nearer to it
than to its neighbours reads back as it, and so do the two ends of that
interval when the multiple is even. The shortest decimal is the first one, by
number of digits, that lies in the interval; of two of them the nearer one.
-/
namespace JobEngine

/-- `digits * 10 ^ exponent` -/
structure Decimal where
  digits : Nat
  exponent : Int
deriving DecidableEq, Repr

namespace Decimal

/-- A positive double, its interval and its scale, all over one denominator. -/
structure Interval where
  low : Nat
  value : Nat
  high : Nat
  denominator : Nat
  closed : Bool

def signOf (bits : UInt64) : Bool := bits.toNat / Nat.pow 2 63 = 1

def isZero (bits : UInt64) : Bool := bits.toNat % Nat.pow 2 63 = 0

def intervalOf (bits : UInt64) : Interval :=
  let fraction := bits.toNat % Nat.pow 2 52
  let exponent := bits.toNat / Nat.pow 2 52 % Nat.pow 2 11
  let mantissa := if exponent = 0 then fraction else fraction + Nat.pow 2 52
  let scale := (if exponent = 0 then 1 else exponent) - 1
  let narrow := fraction = 0 ∧ 1 < exponent
  -- one unit of the last place is four quarters, and `4 * 2 ^ -1076` is the smallest double
  let up := Nat.pow 2 scale
  ⟨(4 * mantissa - if narrow then 1 else 2) * up, 4 * mantissa * up,
    (4 * mantissa + 2) * up, Nat.pow 2 1076, mantissa % 2 = 0⟩

namespace Interval

def holds (i : Interval) (num den : Nat) : Bool :=
  let low := i.low * den
  let high := i.high * den
  let x := num * i.denominator
  if i.closed then low ≤ x && x ≤ high else low < x && x < high

/-- The least power of ten above the value. -/
def magnitude (i : Interval) : Int :=
  if i.denominator ≤ i.value then
    (Nat.toDigits 10 (i.value / i.denominator)).length
  else leading 400 0
where
  leading : Nat → Nat → Int
    | 0, zeros => -(zeros : Int)
    | fuel + 1, zeros =>
      if i.denominator ≤ i.value * Nat.pow 10 (zeros + 1) then -(zeros : Int)
      else leading fuel (zeros + 1)

/-- The nearer of the value's two neighbours on the grid of `10 ^ step` that lies in the
interval. -/
def onGrid? (i : Interval) (step : Int) : Option Decimal :=
  let up := Nat.pow 10 step.toNat
  let down := Nat.pow 10 (-step).toNat
  let below := i.value * down / (i.denominator * up)
  let rest := i.value * down % (i.denominator * up)
  let above := below + 1
  let inLow := 0 < below && i.holds (below * up) down
  let inHigh := i.holds (above * up) down
  let pickLow := 2 * rest ≤ i.denominator * up
  if inLow && (pickLow || !inHigh) then some ⟨below, step⟩
  else if inHigh then some ⟨above, step⟩
  else none

def search (i : Interval) : Nat → Nat → Decimal
  | 0, _ => ⟨0, 0⟩
  | fuel + 1, places =>
    match i.onGrid? (i.magnitude - places) with
    | some d => d
    | none => i.search fuel (places + 1)

end Interval

def dropZeros : Nat → Decimal → Decimal
  | 0, d => d
  | fuel + 1, d =>
    if d.digits ≠ 0 ∧ d.digits % 10 = 0 then dropZeros fuel ⟨d.digits / 10, d.exponent + 1⟩ else d

/-- The shortest decimal of a finite double other than zero, without its sign. -/
def shortest (bits : UInt64) : Decimal :=
  dropZeros 20 ((intervalOf bits).search 17 1)

def zeros (n : Nat) : String := String.ofList (List.replicate n '0')

/-- Digits without an exponent, with a point only where a fraction follows. -/
def positional (d : Decimal) : String :=
  let text := toString d.digits
  if 0 ≤ d.exponent then text ++ zeros d.exponent.toNat
  else
    let places := (-d.exponent).toNat
    if places < text.length then
      let whole := text.toList.take (text.length - places)
      let fraction := text.toList.drop (text.length - places)
      String.ofList whole ++ "." ++ String.ofList fraction
    else "0." ++ zeros (places - text.length) ++ text

/-- One digit before the point, then the power of ten. -/
def scientific (d : Decimal) : String :=
  let cs := (toString d.digits).toList
  let power := d.exponent + cs.length - 1
  let head := String.ofList (cs.take 1)
  let tail := String.ofList (cs.drop 1)
  (if tail.isEmpty then head else head ++ "." ++ tail) ++ "e" ++ toString power

end Decimal

end JobEngine
