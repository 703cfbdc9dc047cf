import JobEngine.Toml.Value

/-!
# Building tables

A table may be opened by a header, come into being on the way to another one,
or be built from dotted keys; how it came about decides what may be added to
it. Nothing is defined twice.
-/
namespace JobEngine.Toml

inductive Origin
  /-- On the way to a table that a header names. -/
  | passed
  | header
  | dotted
deriving DecidableEq, Repr

inductive Item
  /-- A value; inline tables and arrays are closed too. -/
  | value (v : Value)
  | table (origin : Origin) (fields : List (String × Item))
  /-- Tables under one name, the latest first. -/
  | tables (items : List (List (String × Item)))
deriving Inhabited

abbrev Fields := List (String × Item)

namespace Fields

def lookup? (fields : Fields) (name : String) : Option Item :=
  (List.find? (fun field => field.1 = name) fields).map (·.2)

/-- Replaces a field, or adds it at the end. -/
def set (fields : Fields) (name : String) (item : Item) : Fields :=
  if fields.any (·.1 = name) then
    fields.map fun field => if field.1 = name then (name, item) else field
  else fields ++ [(name, item)]

/-- Changes the table at the end of a path; tables that are missing are created. -/
def descend (change : Fields → Option Fields) : List String → Fields → Option Fields
  | [], fields => change fields
  | name :: path, fields =>
    match lookup? fields name with
    | none => (descend change path []).map fun t => set fields name (.table .passed t)
    | some (.table origin t) =>
      (descend change path t).map fun t => set fields name (.table origin t)
    | some (.tables (t :: older)) =>
      (descend change path t).map fun t => set fields name (.tables (t :: older))
    | some _ => none

/-- A header opens a table, which may have been passed before. -/
def openTable (name : String) (fields : Fields) : Option Fields :=
  match lookup? fields name with
  | none => some (set fields name (.table .header []))
  | some (.table .passed t) => some (set fields name (.table .header t))
  | some _ => none

/-- A doubled header adds a table to those of its name. -/
def addTable (name : String) (fields : Fields) : Option Fields :=
  match lookup? fields name with
  | none => some (set fields name (.tables [[]]))
  | some (.tables older) => some (set fields name (.tables ([] :: older)))
  | some _ => none

/-- Whether a table may take a value under the last name of a dotted key. -/
def takes (first : Bool) (origin : Origin) : Bool := first != (origin = .dotted : Bool)

/-- Puts a value under a dotted key. A table that a header has opened is closed to dotted keys,
and the table that takes the value must be one of dotted keys. -/
def assign (v : Value) (first : Bool) (origin : Origin) : List String → Fields → Option Fields
  | [], _ => none
  | [name], fields =>
    if takes first origin ∧ (lookup? fields name).isNone then some (set fields name (.value v))
    else none
  | name :: path, fields =>
    match lookup? fields name with
    | none => (assign v false .dotted path []).map fun t => set fields name (.table .dotted t)
    | some (.table .header _) => none
    | some (.table inner t) =>
      (assign v false inner path t).map fun t => set fields name (.table inner t)
    | some (.tables (t :: older)) =>
      (assign v false .header path t).map fun t => set fields name (.tables (t :: older))
    | some _ => none

end Fields

mutual

def Item.toValue : Item → Value
  | .value v => v
  | .table _ fields => .table (fieldValues fields)
  | .tables items => .array (tableValues items).reverse

def fieldValues : List (String × Item) → List (String × Value)
  | [] => []
  | (name, item) :: rest => (name, item.toValue) :: fieldValues rest

def tableValues : List (List (String × Item)) → List Value
  | [] => []
  | fields :: rest => .table (fieldValues fields) :: tableValues rest

end

end JobEngine.Toml
