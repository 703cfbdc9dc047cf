import JobEngine.Json.Numeral

/-!
# Reading JSON text

The grammar first gives a tree that still shows repeated names and string
escapes that name no character, because a reader that skips a part of the text
does not look at them. `Tree.value?` then asks for a value that has both
settled: the last of two fields of one name counts.
-/
namespace JobEngine.Json

open Text (isDigit hexValue?)

inductive Tree
  | null
  | bool (b : Bool)
  | number (n : Numeral)
  /-- The text, unless an escape names no character. -/
  | string (text : Option String)
  | array (items : List Tree)
  | object (fields : List (Option String × Tree))
deriving Repr, Inhabited

def isSpace (c : Char) : Bool := c = ' ' || c = '\n' || c = '\t' || c = '\r'

def skipSpace (cs : List Char) : List Char := cs.dropWhile isSpace

/-- Four hexadecimal digits. -/
def hexQuad : List Char → Option (Nat × List Char)
  | a :: b :: c :: d :: rest => do
    let a ← hexValue? a
    let b ← hexValue? b
    let c ← hexValue? c
    let d ← hexValue? d
    return (((a * 16 + b) * 16 + c) * 16 + d, rest)
  | _ => none

def isLead (n : Nat) : Bool := 0xd800 ≤ n && n < 0xdc00

def isTrail (n : Nat) : Bool := 0xdc00 ≤ n && n < 0xe000

/-- What follows a backslash: the character it names, if there is one, and the text after it. -/
def escaped : List Char → Option (Option Char × List Char)
  | '"' :: rest => some (some '"', rest)
  | '\\' :: rest => some (some '\\', rest)
  | '/' :: rest => some (some '/', rest)
  | 'b' :: rest => some (some (Char.ofNat 8), rest)
  | 'f' :: rest => some (some (Char.ofNat 12), rest)
  | 'n' :: rest => some (some '\n', rest)
  | 'r' :: rest => some (some '\r', rest)
  | 't' :: rest => some (some '\t', rest)
  | 'u' :: rest =>
    match hexQuad rest with
    | none => none
    | some (code, rest) =>
      if isLead code then
        match rest with
        | '\\' :: 'u' :: more =>
          match hexQuad more with
          | some (low, after) =>
            if isTrail low then
              some (some (Char.ofNat (0x10000 + (code - 0xd800) * 0x400 + (low - 0xdc00))), after)
            else some (none, rest)
          | none => some (none, rest)
        | _ => some (none, rest)
      else if isTrail code then some (none, rest)
      else some (some (Char.ofNat code), rest)
  | _ => none

/-- The rest of a string after its opening quote. -/
def readString : Nat → List Char → Option (Option (List Char) × List Char)
  | 0, _ => none
  | _, [] => none
  | _, '"' :: rest => some (some [], rest)
  | fuel + 1, '\\' :: rest =>
    match escaped rest with
    | none => none
    | some (c, rest) =>
      (readString fuel rest).map fun (tail, rest) =>
        (c.bind fun c => tail.map (c :: ·), rest)
  | fuel + 1, c :: rest =>
    if c.toNat < 32 then none
    else (readString fuel rest).map fun (tail, rest) => (tail.map (c :: ·), rest)

def stringTree (read : Option (List Char) × List Char) : Option String × List Char :=
  (read.1.map String.ofList, read.2)

/-- An optional part: a point or an exponent sign, then at least one digit. -/
def readFraction : List Char → Option (Option (List Char) × List Char)
  | '.' :: rest =>
    let digits := rest.takeWhile isDigit
    if digits.isEmpty then none else some (some digits, rest.dropWhile isDigit)
  | rest => some (none, rest)

def readExponent : List Char → Option (Option (Bool × List Char) × List Char)
  | c :: rest =>
    if c = 'e' ∨ c = 'E' then
      let (negative, rest) := match rest with
        | '+' :: rest => (false, rest)
        | '-' :: rest => (true, rest)
        | rest => (false, rest)
      let digits := rest.takeWhile isDigit
      if digits.isEmpty then none
      else some (some (negative, digits), rest.dropWhile isDigit)
    else some (none, c :: rest)
  | [] => some (none, [])

/-- A numeral: no leading zero before another digit. -/
def readNumeral (cs : List Char) : Option (Numeral × List Char) :=
  let (negative, rest) := match cs with
    | '-' :: rest => (true, rest)
    | rest => (false, rest)
  let whole := rest.takeWhile isDigit
  let rest := rest.dropWhile isDigit
  if whole.isEmpty ∨ (whole.head? = some '0' ∧ 1 < whole.length) then none
  else
    match readFraction rest with
    | none => none
    | some (fraction, rest) =>
      (readExponent rest).map fun (exponent, rest) =>
        (⟨negative, whole, fraction, exponent⟩, rest)

mutual

/-- One value; blanks before it are skipped. -/
def readTree : Nat → List Char → Option (Tree × List Char)
  | 0, _ => none
  | fuel + 1, cs =>
    match skipSpace cs with
    | 'n' :: 'u' :: 'l' :: 'l' :: rest => some (.null, rest)
    | 't' :: 'r' :: 'u' :: 'e' :: rest => some (.bool true, rest)
    | 'f' :: 'a' :: 'l' :: 's' :: 'e' :: rest => some (.bool false, rest)
    | '"' :: rest =>
      (readString (rest.length + 1) rest).map fun read =>
        (.string (stringTree read).1, read.2)
    | '[' :: rest =>
      match skipSpace rest with
      | ']' :: rest => some (.array [], rest)
      | rest => (readItems fuel rest).map fun (items, rest) => (.array items, rest)
    | '{' :: rest =>
      match skipSpace rest with
      | '}' :: rest => some (.object [], rest)
      | rest => (readFields fuel rest).map fun (fields, rest) => (.object fields, rest)
    | rest => (readNumeral rest).map fun (n, rest) => (.number n, rest)

/-- The items of an array up to its closing bracket, at least one. -/
def readItems : Nat → List Char → Option (List Tree × List Char)
  | 0, _ => none
  | fuel + 1, cs =>
    match readTree fuel cs with
    | none => none
    | some (item, rest) =>
      match skipSpace rest with
      | ',' :: rest => (readItems fuel rest).map fun (items, rest) => (item :: items, rest)
      | ']' :: rest => some ([item], rest)
      | _ => none

/-- The fields of an object up to its closing brace, at least one. -/
def readFields : Nat → List Char → Option (List (Option String × Tree) × List Char)
  | 0, _ => none
  | fuel + 1, cs =>
    match skipSpace cs with
    | '"' :: rest =>
      match readString (rest.length + 1) rest with
      | none => none
      | some read =>
        match skipSpace read.2 with
        | ':' :: rest =>
          match readTree fuel rest with
          | none => none
          | some (v, rest) =>
            match skipSpace rest with
            | ',' :: rest =>
              (readFields fuel rest).map fun (fields, rest) =>
                (((stringTree read).1, v) :: fields, rest)
            | '}' :: rest => some ([((stringTree read).1, v)], rest)
            | _ => none
        | _ => none
    | _ => none

end

/-- The tree of a whole text; only blanks may follow it. -/
def Tree.read? (text : String) : Option Tree :=
  let cs := text.toList
  match readTree (2 * cs.length + 2) cs with
  | some (tree, rest) => if (skipSpace rest).isEmpty then some tree else none
  | none => none

/-- How many arrays and objects may stand inside one another. -/
def deepest : Nat := 127

mutual

/-- The value of a tree, with `depth` containers still allowed around its leaves. -/
def Tree.value? : Nat → Tree → Option Value
  | _, .null => some .null
  | _, .bool b => some (.bool b)
  | _, .number n => n.number?.map .number
  | _, .string text => text.map .string
  | 0, .array _ => none
  | depth + 1, .array items => (itemValues? depth items).map .array
  | 0, .object _ => none
  | depth + 1, .object fields =>
    (fieldValues? depth fields).map fun fields => .object (sortFields fields)

def itemValues? : Nat → List Tree → Option (List Value)
  | _, [] => some []
  | depth, item :: rest =>
    match item.value? depth, itemValues? depth rest with
    | some v, some vs => some (v :: vs)
    | _, _ => none

def fieldValues? : Nat → List (Option String × Tree) → Option (List (String × Value))
  | _, [] => some []
  | depth, (name, item) :: rest =>
    match name, item.value? depth, fieldValues? depth rest with
    | some name, some v, some vs => some ((name, v) :: vs)
    | _, _, _ => none

end

/-- The value of a text, with at most `deepest` containers inside one another. -/
def Value.read? (text : String) : Option Value :=
  (Tree.read? text).bind (·.value? deepest)

end JobEngine.Json
