import JobEngine.Config.Dialect
import JobEngine.Yaml.Node

/-!
# Configuration in YAML

A record is a mapping, or nothing at all. Texts are scalars of any style;
numbers and flags are plain ones. A number has a sign or none and may be
hexadecimal, octal or binary; a decimal number of several digits does not
begin with a zero.
-/
namespace JobEngine.Config

open Text (hexValue?)

/-- Digits of a base that are not too large together. -/
def digitsIn? (base largest : Nat) (cs : List Char) : Option Nat :=
  if cs.isEmpty then none
  else
    (cs.mapM fun c => (hexValue? c).filter (· < base)).bind fun digits =>
      let value := digits.foldl (fun value d => value * base + d) 0
      if value ≤ largest then some value else none

def yamlWhole? (largest : Nat) (text : String) : Option Nat :=
  let cs := match text.toList with
    | '+' :: rest => rest
    | rest => rest
  match cs with
  | '0' :: 'x' :: rest => digitsIn? 16 largest rest
  | '0' :: 'o' :: rest => digitsIn? 8 largest rest
  | '0' :: 'b' :: rest => digitsIn? 2 largest rest
  | '0' :: _ :: _ => none
  | cs => digitsIn? 10 largest cs

def yamlFlag? (text : String) : Option Bool :=
  if ["true", "True", "TRUE"].contains text then some true
  else if ["false", "False", "FALSE"].contains text then some false
  else none

def isNullWord (text : String) : Bool := ["null", "Null", "NULL", "~"].contains text

def coreTag (name : String) : String := "tag:yaml.org,2002:" ++ name

/-- The text of a scalar that may be read as a number or a flag. -/
def bareText? (kind : String) : Yaml.Node → Option String
  | .scalar .plain _ text => some text
  | .scalar .literal (some tag) text => if tag = coreTag kind then some text else none
  | _ => none

def yamlText? (d : Yaml.Tree) (v : Yaml.Node) : Option String :=
  match d.resolve v with
  | some (.scalar _ _ text) => some text
  | _ => none

def yamlAbsent? (d : Yaml.Tree) (v : Yaml.Node) : Option Bool :=
  match d.resolve v with
  | some (.scalar .plain none text) => some (text.isEmpty || isNullWord text)
  | some (.scalar .plain (some tag) text) =>
    if tag = coreTag "null" then (if isNullWord text then some true else none)
    else some false
  | some _ => some false
  | none => none

/-- The entries of a mapping whose keys are scalars. -/
def yamlEntries? (d : Yaml.Tree) (entries : List (Yaml.Node × Yaml.Node)) :
    Option (List (String × Yaml.Node)) :=
  entries.mapM fun (key, value) => (yamlText? d key).map fun name => (name, value)

def yamlDialect (d : Yaml.Tree) : Dialect Yaml.Node where
  absent? := yamlAbsent? d
  whole? := fun largest v => do yamlWhole? largest (← bareText? "int" (← d.resolve v))
  flag? := fun v => do yamlFlag? (← bareText? "bool" (← d.resolve v))
  text? := yamlText? d
  record? := fun names v => do
    match ← d.resolve v with
    | .mapping entries => knownOnce? names (← yamlEntries? d entries)
    | .scalar .plain _ text => if text.isEmpty then some [] else none
    | _ => none

def Document.ofYaml? (text : String) : Option Document :=
  (Yaml.Tree.read? text).bind fun d => (yamlDialect d).document? d.root

end JobEngine.Config
