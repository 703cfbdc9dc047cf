import JobEngine.Toml.Table

/-!
# Reading TOML

A document is a sequence of lines: headers, assignments, comments. The values
of the format may span lines; inline tables may end in a comma and hold
comments and line breaks.
-/
namespace JobEngine.Toml

open Text (hexValue?)

/-! ## Blanks and comments -/

def isGap (c : Char) : Bool := c = ' ' || c = '\t'

def skipGaps (cs : List Char) : List Char := cs.dropWhile isGap

/-- A control character other than the tab. -/
def isControl (c : Char) : Bool := (c.toNat < 32 && c ≠ '\t') || c.toNat = 127

/-- A line break at the front. -/
def lineBreak? : List Char → Option (List Char)
  | '\n' :: rest => some rest
  | '\r' :: '\n' :: rest => some rest
  | _ => none

/-- The text after a comment, which ends before its line break. -/
def comment? (cs : List Char) : Option (List Char) :=
  let rest := cs.dropWhile fun c => !isControl c
  if rest.isEmpty || (lineBreak? rest).isSome then some rest else none

/-- Blanks, comments and line breaks. -/
def skipLines : Nat → List Char → Option (List Char)
  | 0, _ => none
  | fuel + 1, cs =>
    match skipGaps cs with
    | '#' :: rest => (comment? rest).bind (skipLines fuel)
    | rest =>
      match lineBreak? rest with
      | some rest => skipLines fuel rest
      | none => some rest

/-- What may follow a header or an assignment on its line. -/
def endLine? (cs : List Char) : Option (List Char) :=
  let rest := match skipGaps cs with
    | '#' :: rest => comment? rest
    | rest => some rest
  rest.bind fun rest => if rest.isEmpty then some [] else lineBreak? rest

/-! ## Strings -/

def fromHex? (count : Nat) (cs : List Char) : Option (Char × List Char) :=
  let digits := cs.take count
  if digits.length = count ∧ digits.all fun c => (hexValue? c).isSome then
    let code := digits.foldl (fun value c => value * 16 + (hexValue? c).getD 0) 0
    if code.isValidChar then some (Char.ofNat code, cs.drop count) else none
  else none

/-- The character that an escape names. -/
def escape? : List Char → Option (Char × List Char)
  | 'b' :: rest => some (Char.ofNat 8, rest)
  | 't' :: rest => some ('\t', rest)
  | 'n' :: rest => some ('\n', rest)
  | 'f' :: rest => some (Char.ofNat 12, rest)
  | 'r' :: rest => some ('\r', rest)
  | 'e' :: rest => some (Char.ofNat 27, rest)
  | '"' :: rest => some ('"', rest)
  | '\\' :: rest => some ('\\', rest)
  | 'x' :: rest => fromHex? 2 rest
  | 'u' :: rest => fromHex? 4 rest
  | 'U' :: rest => fromHex? 8 rest
  | _ => none

/-- A string of one line, up to its closing quote. -/
def line? (quote : Char) : Nat → List Char → Option (List Char × List Char)
  | 0, _ => none
  | _, [] => none
  | fuel + 1, c :: rest =>
    if c = quote then some ([], rest)
    else if c = '\\' ∧ quote = '"' then
      match escape? rest with
      | some (c, rest) => (line? quote fuel rest).map fun (text, rest) => (c :: text, rest)
      | none => none
    else if isControl c then none
    else (line? quote fuel rest).map fun (text, rest) => (c :: text, rest)

/-- Blanks and line breaks after a backslash at the end of a line; at least one line break. -/
def continued? (cs : List Char) : Option (List Char) :=
  match lineBreak? (skipGaps cs) with
  | none => none
  | some rest => some (rest.dropWhile fun c => isGap c || c = '\n' || c = '\r')

/-- A string of many lines, up to three closing quotes; up to two more belong to the text. -/
def lines? (quote : Char) : Nat → List Char → Option (List Char × List Char)
  | 0, _ => none
  | _, [] => none
  | fuel + 1, c :: rest =>
    let quotes := (c :: rest).takeWhile (· = quote)
    if 3 ≤ quotes.length then
      if 5 < quotes.length then none
      else some (quotes.drop 3, (c :: rest).drop quotes.length)
    else if c = '\\' ∧ quote = '"' then
      match continued? rest with
      | some rest => lines? quote fuel rest
      | none =>
        match escape? rest with
        | some (c, rest) => (lines? quote fuel rest).map fun (text, rest) => (c :: text, rest)
        | none => none
    else if isControl c then
      match lineBreak? (c :: rest) with
      | some after =>
        (lines? quote fuel after).map fun (text, rest) => ('\n' :: text, rest)
      | none => none
    else (lines? quote fuel rest).map fun (text, rest) => (c :: text, rest)

/-- The text of a string and what follows it. -/
def string? (cs : List Char) : Option (List Char × List Char) :=
  let many (quote : Char) (rest : List Char) : Option (List Char × List Char) :=
    lines? quote (rest.length + 1) ((lineBreak? rest).getD rest)
  match cs with
  | '"' :: '"' :: '"' :: rest => many '"' rest
  | '\'' :: '\'' :: '\'' :: rest => many '\'' rest
  | '"' :: rest => line? '"' (rest.length + 1) rest
  | '\'' :: rest => line? '\'' (rest.length + 1) rest
  | _ => none

/-! ## Keys -/

def isBare (c : Char) : Bool :=
  Text.isDigit c || ('a' ≤ c && c ≤ 'z') || ('A' ≤ c && c ≤ 'Z') || c = '_' || c = '-'

/-- One name of a key. -/
def name? (cs : List Char) : Option (String × List Char) :=
  match cs with
  | '"' :: rest | '\'' :: rest =>
    (line? (cs.headD ' ') (rest.length + 1) rest).map fun (text, rest) =>
      (String.ofList text, rest)
  | cs =>
    let bare := cs.takeWhile isBare
    if bare.isEmpty then none else some (String.ofList bare, cs.dropWhile isBare)

/-- A key: names with points between them. -/
def key? : Nat → List Char → Option (List String × List Char)
  | 0, _ => none
  | fuel + 1, cs =>
    match name? (skipGaps cs) with
    | none => none
    | some (name, rest) =>
      match skipGaps rest with
      | '.' :: rest => (key? fuel rest).map fun (names, rest) => (name :: names, rest)
      | rest => some ([name], rest)

/-! ## Values -/

/-- A bare word ends before a blank, a line break or a character of the grammar. -/
def endsWord (c : Char) : Bool :=
  isGap c || isControl c || c = ',' || c = ']' || c = '\x7d' || c = '#' || c = '='

/-- A bare word; a date may be followed by a blank and a clock. -/
def word (cs : List Char) : List Char × List Char :=
  let first := cs.takeWhile fun c => !endsWord c
  let rest := cs.dropWhile fun c => !endsWord c
  match rest with
  | ' ' :: d :: _ =>
    if Text.isDigit d ∧ Scalar.date? first = some [] then
      let second := (rest.drop 1).takeWhile fun c => !endsWord c
      (first ++ ' ' :: second, rest.drop (second.length + 1))
    else (first, rest)
  | _ => (first, rest)

/-- How many arrays and inline tables may stand inside one another. -/
def deepest : Nat := 80

mutual

/-- A value, with `depth` containers still allowed. -/
def value? (depth : Nat) : Nat → List Char → Option (Value × List Char)
  | 0, _ => none
  | fuel + 1, cs =>
    match cs with
    | '"' :: _ | '\'' :: _ =>
      (string? cs).map fun (text, rest) => (.text (String.ofList text), rest)
    | '[' :: rest =>
      match depth with
      | 0 => none
      | depth + 1 => (items? depth fuel rest).map fun (items, rest) => (.array items, rest)
    | '{' :: rest =>
      match depth with
      | 0 => none
      | depth + 1 =>
        (inline? depth fuel [] rest).map fun (fields, rest) => (.table (fieldValues fields), rest)
    | cs =>
      let (bare, rest) := word cs
      (Scalar.ofChars? bare).map fun v => (v, rest)

/-- The items of an array up to its closing bracket. -/
def items? (depth : Nat) : Nat → List Char → Option (List Value × List Char)
  | 0, _ => none
  | fuel + 1, cs =>
    match skipLines (cs.length + 1) cs with
    | none => none
    | some (']' :: rest) => some ([], rest)
    | some rest =>
      match value? depth fuel rest with
      | none => none
      | some (v, rest) =>
        match skipLines (rest.length + 1) rest with
        | some (',' :: rest) => (items? depth fuel rest).map fun (vs, rest) => (v :: vs, rest)
        | some (']' :: rest) => some ([v], rest)
        | _ => none

/-- The fields of an inline table up to its closing brace. -/
def inline? (depth : Nat) : Nat → Fields → List Char → Option (Fields × List Char)
  | 0, _, _ => none
  | fuel + 1, fields, cs =>
    match skipLines (cs.length + 1) cs with
    | none => none
    | some ('}' :: rest) => some (fields, rest)
    | some rest =>
      match key? (rest.length + 1) rest with
      | some (names, '=' :: rest) =>
        match value? depth fuel (skipGaps rest) with
        | none => none
        | some (v, rest) =>
          match fields.assign v true .header names with
          | none => none
          | some fields =>
            match skipLines (rest.length + 1) rest with
            | some (',' :: rest) => inline? depth fuel fields rest
            | some ('}' :: rest) => some (fields, rest)
            | _ => none
      | _ => none

end

/-! ## Documents -/

structure Reading where
  root : Fields := []
  /-- The table that assignments go to. -/
  current : List String := []

namespace Reading

/-- Changes the table that is current. -/
def change (r : Reading) (f : Fields → Option Fields) : Option Reading :=
  (r.root.descend f r.current).map fun root => { r with root }

/-- A header: the key between the brackets, and the rest of its line. -/
def header? (r : Reading) (cs : List Char) : Option (Reading × List Char) := do
  let (doubled, cs) := match cs with
    | '[' :: rest => (true, rest)
    | rest => (false, rest)
  let (names, rest) ← key? (cs.length + 1) cs
  let rest ← match rest with
    | ']' :: rest =>
      if doubled then
        match rest with
        | ']' :: rest => some rest
        | _ => none
      else some rest
    | _ => none
  let rest ← endLine? rest
  let last ← names.getLast?
  let root ← r.root.descend
    (if doubled then Fields.addTable last else Fields.openTable last) names.dropLast
  return ({ root, current := names }, rest)

def assignment? (r : Reading) (cs : List Char) : Option (Reading × List Char) := do
  let (names, rest) ← key? (cs.length + 1) cs
  match rest with
  | '=' :: rest =>
    let (v, rest) ← value? deepest (rest.length + 1) (skipGaps rest)
    let rest ← endLine? rest
    let r ← r.change fun fields => fields.assign v true .header names
    return (r, rest)
  | _ => none

def lines : Nat → Reading → List Char → Option Reading
  | 0, _, _ => none
  | fuel + 1, r, cs =>
    match skipGaps cs with
    | [] => some r
    | '#' :: rest => (comment? rest).bind (lines fuel r)
    | '[' :: rest => (r.header? rest).bind fun (r, rest) => lines fuel r rest
    | rest =>
      match lineBreak? rest with
      | some rest => lines fuel r rest
      | none => (r.assignment? rest).bind fun (r, rest) => lines fuel r rest

end Reading

/-- The table of a document; a byte order mark may stand before it. -/
def read? (text : String) : Option (List (String × Value)) :=
  let cs := match text.toList with
    | c :: rest => if c.toNat = 0xfeff then rest else c :: rest
    | [] => []
  (Reading.lines (2 * cs.length + 2) {} cs).map fun r => fieldValues r.root

end JobEngine.Toml
