import JobEngine.Text.Blank

/-!
# Job identifiers

An identifier is a UUID. It is written in lower case with hyphens, and read in
that form, without hyphens, in braces, or as a `urn:uuid:` name, in any case.
-/
namespace JobEngine

structure JobId where
  value : BitVec 128
deriving DecidableEq, Repr, Inhabited

namespace JobId

open Text (hexValue?)

def ofNat (n : Nat) : JobId := ⟨BitVec.ofNat 128 n⟩

/-- The `count` low hexadecimal digits, the highest first. -/
def hexDigits : Nat → Nat → List Char
  | 0, _ => []
  | count + 1, n => hexDigits count (n / 16) ++ [Nat.digitChar (n % 16)]

/-- Hyphens after 8, 12, 16 and 20 digits. -/
def hyphenate (digits : List Char) : List Char :=
  digits.take 8 ++ '-' :: (digits.drop 8).take 4 ++ '-' :: (digits.drop 12).take 4 ++
    '-' :: (digits.drop 16).take 4 ++ '-' :: digits.drop 20

def text (id : JobId) : String :=
  String.ofList (hyphenate (hexDigits 32 id.value.toNat))

instance : ToString JobId := ⟨text⟩

def ofDigits? : Nat → List Char → Option Nat
  | value, [] => some value
  | value, c :: rest => (hexValue? c).bind fun d => ofDigits? (value * 16 + d) rest

def plain? (digits : List Char) : Option JobId :=
  if digits.length = 32 then (ofDigits? 0 digits).map ofNat else none

def hyphenated? (cs : List Char) : Option JobId :=
  let digits := cs.filter (· ≠ '-')
  if digits.length = 32 ∧ cs = hyphenate digits then plain? digits else none

def ofChars? (cs : List Char) : Option JobId :=
  match cs with
  | '{' :: rest =>
    if rest.getLast? = some '}' then hyphenated? rest.dropLast else none
  | 'u' :: 'r' :: 'n' :: ':' :: 'u' :: 'u' :: 'i' :: 'd' :: ':' :: rest => hyphenated? rest
  | cs => (plain? cs).or (hyphenated? cs)

def parse? (s : String) : Option JobId := ofChars? s.toList

end JobId

end JobEngine
