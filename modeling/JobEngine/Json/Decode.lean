import JobEngine.Json.Printer

/-!
# Decoding JSON values

A record is read from an object, or from an array that lists its fields in the
order of their declaration. The fields of an object are looked at in the order
of their names and the first one that does not fit is reported; a field that
is missing is reported after all others fitted.
-/
namespace JobEngine.Json

/-- What stood where something else was expected. -/
inductive Found
  | null
  | bool (b : Bool)
  | whole (n : Int)
  | real (bits : UInt64)
  | string (s : String)
  | sequence
  | map
deriving DecidableEq, Repr

def Found.text : Found → String
  | .null => "null"
  | .bool b => "boolean \x60" ++ (if b then "true" else "false") ++ "\x60"
  | .whole n => "integer \x60" ++ toString n ++ "\x60"
  | .real bits => "floating point \x60" ++ plainRealText bits ++ "\x60"
  | .string s => "string " ++ Text.quote s
  | .sequence => "sequence"
  | .map => "map"

def Value.found : Value → Found
  | .null => .null
  | .bool b => .bool b
  | .number (.whole n) => .whole n
  | .number (.real bits) => .real bits
  | .string s => .string s
  | .array _ => .sequence
  | .object _ => .map

inductive DecodeError
  | wrongType (found : Found) (expected : String)
  | wrongValue (found : Found) (expected : String)
  | missingField (name : String)
  | unknownField (name : String) (known : List String)
  | unknownVariant (name : String) (known : List String)
  /-- An array of the wrong length. -/
  | wrongLength
  /-- A text that is no identifier or no point in time. -/
  | malformed
deriving DecidableEq, Repr

def tick (name : String) : String := "\x60" ++ name ++ "\x60"

def oneOf : List String → String
  | [] => "there are no fields"
  | [a] => "expected " ++ tick a
  | [a, b] => "expected " ++ tick a ++ " or " ++ tick b
  | names => "expected one of " ++ String.intercalate ", " (names.map tick)

/-- The wording, where the library has one of its own. -/
def DecodeError.message? : DecodeError → Option String
  | .wrongType found expected =>
    some ("invalid type: " ++ found.text ++ ", expected " ++ expected)
  | .wrongValue found expected =>
    some ("invalid value: " ++ found.text ++ ", expected " ++ expected)
  | .missingField name => some ("missing field " ++ tick name)
  | .unknownField name known => some ("unknown field " ++ tick name ++ ", " ++ oneOf known)
  | .unknownVariant name known => some ("unknown variant " ++ tick name ++ ", " ++ oneOf known)
  | .wrongLength | .malformed => none

abbrev Decoder (α : Type) := Value → Except DecodeError α

namespace Decode

def text : Decoder String
  | .string s => .ok s
  | v => .error (.wrongType v.found "a string")

def bool : Decoder Bool
  | .bool b => .ok b
  | v => .error (.wrongType v.found "a boolean")

/-- A whole number from zero to `largest`. -/
def wholeUpTo (largest : Nat) (expected : String) : Decoder Nat
  | .number (.whole n) =>
    if 0 ≤ n ∧ n ≤ largest then .ok n.toNat else .error (.wrongValue (.whole n) expected)
  | v => .error (.wrongType v.found expected)

def word32 : Decoder UInt32 := fun v =>
  (wholeUpTo (UInt32.size - 1) "u32" v).map UInt32.ofNat

def word64 : Decoder UInt64 := fun v =>
  (wholeUpTo (UInt64.size - 1) "u64" v).map UInt64.ofNat

/-- A 64-bit count. -/
def size : Decoder UInt64 := fun v =>
  (wholeUpTo (UInt64.size - 1) "usize" v).map UInt64.ofNat

def fields : Decoder (List (String × Value))
  | .object fs => .ok fs
  | v => .error (.wrongType v.found "a map")

def listOf {α : Type} (item : Decoder α) : Decoder (List α)
  | .array items => items.mapM item
  | v => .error (.wrongType v.found "a sequence")

def optional {α : Type} (decode : Decoder α) : Decoder (Option α)
  | .null => .ok none
  | v => (decode v).map some

/-- One of the named variants, alone or as the only name of an object. -/
def variant {α : Type} (table : List (String × α)) : Decoder α
  | .string name => pick name
  | .object [(name, v)] => do
    let a ← pick name
    match v with
    | .null => .ok a
    | v => .error (.wrongType v.found "unit")
  | .object _ => .error (.wrongValue .map "map with a single key")
  | v => .error (.wrongType v.found "string or map")
where
  pick (name : String) : Except DecodeError α :=
    match table.find? (·.1 = name) with
    | some (_, a) => .ok a
    | none => .error (.unknownVariant name (table.map (·.1)))

end Decode

inductive Presence
  | required
  /-- May be missing in an object, never in an array. -/
  | optional
  /-- May be missing at the end of an array too. -/
  | defaulted
deriving DecidableEq, Repr

/-- A field of a record: its name, the values it admits, whether it may be missing. -/
structure Slot where
  name : String
  check : Value → Except DecodeError Unit
  presence : Presence

def Slot.of {α : Type} (name : String) (decode : Decoder α)
    (presence : Presence := .required) : Slot :=
  ⟨name, fun v => (decode v).map fun _ => (), presence⟩

structure Shape where
  title : String
  slots : List Slot
  /-- Whether a name that is none of the fields is refused. -/
  closed : Bool := false

namespace Shape

def checkField (shape : Shape) (name : String) (v : Value) : Except DecodeError Unit :=
  match shape.slots.find? (·.name = name) with
  | some slot => slot.check v
  | none =>
    if shape.closed then .error (.unknownField name (shape.slots.map (·.name))) else .ok ()

def checkFields (shape : Shape) : List (String × Value) → Except DecodeError Unit
  | [] => .ok ()
  | (name, v) :: rest => do
    shape.checkField name v
    shape.checkFields rest

def checkPresent (fields : List (String × Value)) : List Slot → Except DecodeError Unit
  | [] => .ok ()
  | slot :: rest =>
    if slot.presence = .required ∧ (field? slot.name fields).isNone then
      .error (.missingField slot.name)
    else checkPresent fields rest

def ofItems : List Slot → List Value → Except DecodeError (List (String × Value))
  | [], [] => .ok []
  | [], _ :: _ => .error .wrongLength
  | slot :: slots, [] =>
    if slot.presence = .defaulted then ofItems slots [] else .error .wrongLength
  | slot :: slots, v :: items => do
    slot.check v
    return (slot.name, v) :: (← ofItems slots items)

/-- The fields of a value of this shape, each of them admitted by its slot. -/
def fields (shape : Shape) : Decoder (List (String × Value))
  | .object fs => do
    shape.checkFields fs
    checkPresent fs shape.slots
    return fs
  | .array items => ofItems shape.slots items
  | v => .error (.wrongType v.found shape.title)

end Shape

/-- A field that is present; the shape has made sure of it. -/
def required {α : Type} (name : String) (decode : Decoder α)
    (fields : List (String × Value)) : Except DecodeError α :=
  match field? name fields with
  | some v => decode v
  | none => .error (.missingField name)

def orElse {α : Type} (name : String) (decode : Decoder α) (default : α)
    (fields : List (String × Value)) : Except DecodeError α :=
  match field? name fields with
  | some v => decode v
  | none => .ok default

end JobEngine.Json
