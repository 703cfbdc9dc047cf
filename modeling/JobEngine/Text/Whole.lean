import JobEngine.Text.Blank

/-!
# Whole numbers written as text

An unsigned decimal with an optional plus sign and a largest value. The first
character that is no digit and the first digit that makes the value too large
are reported in reading order.
-/
namespace JobEngine.Text

inductive WholeFault
  | empty
  | badDigit
  | tooLarge
deriving DecidableEq, Repr

def WholeFault.message : WholeFault → String
  | .empty => "cannot parse integer from empty string"
  | .badDigit => "invalid digit found in string"
  | .tooLarge => "number too large to fit in target type"

def readDigits (largest : Nat) : Nat → List Char → Except WholeFault Nat
  | value, [] => .ok value
  | value, c :: rest =>
    if isDigit c then
      let next := value * 10 + digitValue c
      if next ≤ largest then readDigits largest next rest else .error .tooLarge
    else .error .badDigit

def readWhole (largest : Nat) (s : String) : Except WholeFault Nat :=
  match s.toList with
  | [] => .error .empty
  | ['+'] => .error .badDigit
  | '+' :: digits => readDigits largest 0 digits
  | digits => readDigits largest 0 digits

end JobEngine.Text
