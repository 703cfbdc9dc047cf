import JobEngine.Config.Dialect
import JobEngine.Json.Reader

/-!
# Configuration in JSON

A record may also be given as an array of its first fields. A field that is
not known is skipped with everything inside it, whatever it holds.
-/
namespace JobEngine.Config

open Json (Tree Numeral)

def jsonWhole? (largest : Nat) : Tree → Option Nat
  | .number n =>
    match n.number? with
    | some (.whole value) =>
      if 0 ≤ value ∧ value ≤ largest then some value.toNat else none
    | _ => none
  | _ => none

/-- The names of an object's fields; none if one of them is no text. -/
def jsonNames? : List (Option String × Tree) → Option (List (String × Tree))
  | [] => some []
  | (none, _) :: _ => none
  | (some name, v) :: rest => (jsonNames? rest).map ((name, v) :: ·)

def jsonDialect : Dialect Tree where
  absent? := fun v => match v with
    | .null => some true
    | _ => some false
  whole? := jsonWhole?
  flag? := fun v => match v with
    | .bool b => some b
    | _ => none
  text? := fun v => match v with
    | .string text => text
    | _ => none
  record? := fun names v => match v with
    | .object fields => (jsonNames? fields).bind (knownOnce? names)
    | .array items => if items.length ≤ names.length then some (names.zip items) else none
    | _ => none

def Document.ofJson? (text : String) : Option Document :=
  (Tree.read? text).bind jsonDialect.document?

end JobEngine.Config
