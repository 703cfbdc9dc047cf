import JobEngine.Config.Dialect
import JobEngine.Toml.Reader

/-!
# Configuration in TOML

Nothing is absent in TOML but what is left out. A record may be given as an
array of its fields, of which those beyond the last one do not count; a date
is a record without any of them.
-/
namespace JobEngine.Config

def tomlDialect : Dialect Toml.Value where
  absent? := fun _ => some false
  whole? := fun largest v => match v with
    | .whole n => if 0 ≤ n ∧ n ≤ largest then some n.toNat else none
    | _ => none
  flag? := fun v => match v with
    | .flag b => some b
    | _ => none
  text? := fun v => match v with
    | .text s => some s
    | _ => none
  record? := fun names v => match v with
    | .table fields => knownOnce? names fields
    | .array items => some (names.zip items)
    | .date => some []
    | _ => none

def Document.ofToml? (text : String) : Option Document :=
  (Toml.read? text).bind fun fields => tomlDialect.document? (.table fields)

end JobEngine.Config
