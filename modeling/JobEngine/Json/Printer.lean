import JobEngine.Decimal.Shortest
import JobEngine.Json.Value
import JobEngine.Text.Quoted

/-!
# Compact JSON text

No blanks are written. A double keeps a decimal point or an exponent, so that
it reads back as a double.
-/
namespace JobEngine.Json

open Decimal (isZero signOf shortest positional scientific)

/-- Positional from the fifth place after the point up to sixteen digits before it. -/
def realText (bits : UInt64) : String :=
  let sign := if signOf bits then "-" else ""
  if isZero bits then sign ++ "0.0"
  else
    let d := shortest bits
    let whole := d.exponent + (toString d.digits).length
    let body :=
      if 0 ≤ d.exponent ∧ whole ≤ 16 then positional d ++ ".0"
      else if -5 < whole ∧ whole ≤ 16 then positional d
      else scientific d
    sign ++ body

/-- Always positional, and never without a point. -/
def plainRealText (bits : UInt64) : String :=
  let sign := if signOf bits then "-" else ""
  if isZero bits then sign ++ "0.0"
  else
    let d := shortest bits
    sign ++ positional d ++ (if 0 ≤ d.exponent then ".0" else "")

def Number.text : Number → String
  | .whole n => toString n
  | .real bits => realText bits

def escapeChar (c : Char) : List Char :=
  if c = '"' then ['\\', '"']
  else if c = '\\' then ['\\', '\\']
  else if c.toNat = 8 then ['\\', 'b']
  else if c.toNat = 9 then ['\\', 't']
  else if c.toNat = 10 then ['\\', 'n']
  else if c.toNat = 12 then ['\\', 'f']
  else if c.toNat = 13 then ['\\', 'r']
  else if c.toNat < 32 then
    ['\\', 'u', '0', '0', Nat.digitChar (c.toNat / 16), Nat.digitChar (c.toNat % 16)]
  else [c]

def stringText (s : String) : String :=
  "\"" ++ String.ofList (s.toList.flatMap escapeChar) ++ "\""

mutual

def Value.text : Value → String
  | .null => "null"
  | .bool b => if b then "true" else "false"
  | .number n => n.text
  | .string s => stringText s
  | .array items => "[" ++ itemsText items ++ "]"
  | .object fields => "\x7b" ++ fieldsText fields ++ "\x7d"

def itemsText : List Value → String
  | [] => ""
  | [v] => v.text
  | v :: rest => v.text ++ "," ++ itemsText rest

def fieldsText : List (String × Value) → String
  | [] => ""
  | [(name, v)] => stringText name ++ ":" ++ v.text
  | (name, v) :: rest => stringText name ++ ":" ++ v.text ++ "," ++ fieldsText rest

end

end JobEngine.Json
