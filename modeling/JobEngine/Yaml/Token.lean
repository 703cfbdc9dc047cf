import JobEngine.Yaml.Scalar

/-!
# Tokens

A YAML text is cut into tokens; indentation gives the tokens that open and
close block collections. That a text was a key shows only at the colon behind
it. Tokens are therefore only ever added at the end, and what belongs before a
key is noted with its position and put there when the text is at its end.
-/
namespace JobEngine.Yaml

open Text (hexValue?)

inductive Style
  | plain
  | literal
  | other
deriving DecidableEq, Repr

inductive Token
  | streamEnd
  | version (major minor : Nat)
  | tagDirective (handle start : String)
  | documentStart
  | documentEnd
  | blockSequence
  | blockMapping
  | blockEnd
  | openSequence
  | closeSequence
  | openMapping
  | closeMapping
  | blockEntry
  | flowEntry
  | key
  | value
  | alias (name : String)
  | anchor (name : String)
  | tag (handle suffix : String)
  | scalar (style : Style) (text : String)
deriving DecidableEq, Repr

/-- A place that may turn out to be the start of a key. -/
structure PossibleKey where
  /-- Nothing else may stand there. -/
  required : Bool
  /-- How many tokens stood before it. -/
  position : Nat
  index : Nat
  line : Nat
  column : Nat
deriving Repr

structure Scanner where
  cursor : Cursor
  /-- Newest first. -/
  tokens : List Token := []
  count : Nat := 0
  /-- Tokens that belong before the token of a position. -/
  insertions : List (Nat × List Token) := []
  keyAllowed : Bool := true
  /-- How many flow collections are open. -/
  flow : Nat := 0
  indent : Int := -1
  outerIndents : List Int := []
  /-- One for each open flow collection and one for the blocks, innermost first. -/
  keys : List (Option PossibleKey) := [none]
deriving Repr

namespace Scanner

def emit (s : Scanner) (t : Token) : Scanner :=
  { s with tokens := t :: s.tokens, count := s.count + 1 }

def move (s : Scanner) (c : Cursor) : Scanner := { s with cursor := c }

/-! ## Keys and indentation -/

/-- A key is on one line and has at most 1024 characters. -/
def isStale (c : Cursor) (k : PossibleKey) : Bool :=
  k.line < c.line || k.index + 1024 < c.index

/-- Gives up the keys that can not be keys any more. -/
def dropStale (s : Scanner) : Option Scanner := do
  let keys ← s.keys.mapM fun key => match key with
    | none => some none
    | some k =>
      if isStale s.cursor k then (if k.required then none else some none) else some (some k)
  return { s with keys }

def removeKey (s : Scanner) : Option Scanner :=
  match s.keys with
  | some k :: outer => if k.required then none else some { s with keys := none :: outer }
  | _ => some s

/-- The next token may be the start of a key. -/
def saveKey (s : Scanner) : Option Scanner :=
  if s.keyAllowed then
    s.removeKey.map fun s =>
      let c := s.cursor
      let required : Bool := s.flow = 0 && s.indent = (c.column : Int)
      { s with keys := some ⟨required, s.count, c.index, c.line, c.column⟩ :: s.keys.drop 1 }
  else some s

/-- Whether a column begins a deeper block; if so, it is the new indentation. -/
def deepen (s : Scanner) (column : Nat) : Bool × Scanner :=
  if s.flow = 0 ∧ s.indent < column then
    (true, { s with indent := column, outerIndents := s.indent :: s.outerIndents })
  else (false, s)

def closeBlocks (column : Int) : List Int → Scanner → Scanner
  | [], s => s
  | outer :: rest, s =>
    if column < s.indent then
      closeBlocks column rest { s.emit .blockEnd with indent := outer, outerIndents := rest }
    else s

/-- Closes the blocks that are indented deeper than a column. -/
def unroll (s : Scanner) (column : Int) : Scanner :=
  if s.flow = 0 then closeBlocks column s.outerIndents s else s

def forbidKey (s : Scanner) : Scanner := { s with keyAllowed := false }

def allowKey (s : Scanner) : Scanner := { s with keyAllowed := true }

/-! ## Between tokens -/

/-- Goes past blanks, comments and line breaks. A tab does not count where a key may start a line
of a block. -/
def skipToToken (inFlow : Bool) : Nat → Cursor → Bool → Cursor × Bool
  | 0, c, allowed => (c, allowed)
  | fuel + 1, c, allowed =>
    match c.rest with
    | [] => (c, allowed)
    | ch :: _ =>
      if (c.column = 0 ∧ ch.toNat = 0xfeff) ∨ ch = ' ' ∨ (ch = '\t' ∧ (inFlow ∨ !allowed)) then
        skipToToken inFlow fuel c.skip allowed
      else if ch = '#' then skipToToken inFlow fuel c.skipLine allowed
      else if isBreak ch then skipToToken inFlow fuel c.skipBreak (allowed || !inFlow)
      else (c, allowed)

/-! ## Words -/

def isWordChar (c : Char) : Bool :=
  Text.isDigit c || ('a' ≤ c && c ≤ 'z') || ('A' ≤ c && c ≤ 'Z') || c = '_' || c = '-'

def word (c : Cursor) : String × Cursor :=
  let chars := c.rest.takeWhile isWordChar
  (String.ofList chars, c.skipMany chars.length)

def mayFollowName (rest : List Char) : Bool :=
  atGap rest || match rest with
    | c :: _ => ['?', ':', ',', ']', '\x7d', '%', '@', '\x60'].contains c
    | [] => true

def isUriChar (verbatim : Bool) (c : Char) : Bool :=
  isWordChar c || [';', '/', '?', ':', '@', '&', '=', '+', '$', '.', '%', '!', '~', '*', '\'',
    '(', ')'].contains c || (verbatim && [',', '[', ']'].contains c)

/-- Each percent sign is followed by two hexadecimal digits. -/
def escapesValid : List Char → Bool
  | [] => true
  | '%' :: a :: b :: rest => (hexValue? a).isSome && (hexValue? b).isSome && escapesValid rest
  | '%' :: _ => false
  | _ :: rest => escapesValid rest

def uri? (verbatim : Bool) (c : Cursor) : Option (String × Cursor) :=
  let chars := c.rest.takeWhile (isUriChar verbatim)
  if escapesValid chars then some (String.ofList chars, c.skipMany chars.length) else none

/-- A tag: its handle and the rest of it. -/
def tag? (c : Cursor) : Option (String × String × Cursor) := do
  match c.rest with
  | '!' :: '<' :: _ =>
    let (suffix, c) ← uri? true (c.skipMany 2)
    match c.rest with
    | '>' :: _ => if suffix.isEmpty then none else return ("", suffix, c.skip)
    | _ => none
  | _ =>
    let (name, after) := word c.skip
    match after.rest with
    | '!' :: _ =>
      let (suffix, c) ← uri? false after.skip
      if suffix.isEmpty then none else return ("!" ++ name ++ "!", suffix, c)
    | _ =>
      let (more, c) ← uri? false after
      if (name ++ more).isEmpty then return ("", "!", c) else return ("!", name ++ more, c)

/-- A directive line without its percent sign. -/
def directive? (c : Cursor) : Option (Token × Cursor) := do
  let (name, c) := word c
  if !atGap c.rest then none
  else
    let c := c.skipGaps
    let (token, c) ← match name with
      | "YAML" =>
        let major := c.rest.takeWhile Text.isDigit
        let c := c.skipMany major.length
        match c.rest with
        | '.' :: rest =>
          let minor := rest.takeWhile Text.isDigit
          let number (ds : List Char) : Nat :=
            ds.foldl (fun value d => value * 10 + Text.digitValue d) 0
          if major.isEmpty ∨ minor.isEmpty ∨ 9 < major.length ∨ 9 < minor.length then none
          else some (Token.version (number major) (number minor), c.skipMany (minor.length + 1))
        | _ => none
      | "TAG" =>
        match c.rest with
        | '!' :: _ =>
          let (name, c) := word c.skip
          let (handle, c) ← match c.rest with
            | '!' :: _ => some ("!" ++ name ++ "!", c.skip)
            | _ => if name.isEmpty then some ("!", c) else none
          if c.rest.isEmpty ∨ !(c.rest.takeWhile isGap).isEmpty then
            let (start, c) ← uri? true c.skipGaps
            if start.isEmpty then none else some (Token.tagDirective handle start, c)
          else none
        | _ => none
      | _ => none
    if !atGap c.rest then none
    else
      let c := c.skipGaps
      let c := match c.rest with
        | '#' :: _ => c.skipLine
        | _ => c
      match c.rest with
      | [] => return (token, c)
      | ch :: _ => if isBreak ch then return (token, c.skipBreak) else none

/-! ## Tokens -/

def documentMark (s : Scanner) (t : Token) : Option Scanner :=
  (s.unroll (-1)).removeKey.map fun s =>
    (s.forbidKey.emit t).move (s.cursor.skipMany 3)

def openFlow (s : Scanner) (t : Token) : Option Scanner :=
  s.saveKey.map fun s =>
    { s.allowKey.emit t with
      flow := s.flow + 1
      keys := none :: s.keys
      cursor := s.cursor.skip }

def closeFlow (s : Scanner) (t : Token) : Option Scanner :=
  s.removeKey.map fun s =>
    { s.forbidKey.emit t with
      flow := s.flow - 1
      keys := if s.flow = 0 then s.keys else s.keys.drop 1
      cursor := s.cursor.skip }

def flowEntry (s : Scanner) : Option Scanner :=
  s.removeKey.map fun s => (s.allowKey.emit .flowEntry).move s.cursor.skip

/-- An entry or a key that an indicator announces; in a block it may begin a collection. -/
def announced (s : Scanner) (collection t : Token) (allow : Bool) : Option Scanner :=
  if s.flow = 0 ∧ !s.keyAllowed then none
  else
    let (deeper, s) := s.deepen s.cursor.column
    let s := if deeper then s.emit collection else s
    s.removeKey.map fun s =>
      { s.emit t with keyAllowed := allow, cursor := s.cursor.skip }

/-- A colon: what stood before it was a key if it may have been one. -/
def colon (s : Scanner) : Option Scanner :=
  match s.keys with
  | some k :: outer =>
    let (deeper, s) := s.deepen k.column
    let before := if deeper then [Token.blockMapping, .key] else [.key]
    some { s.emit .value with
      insertions := (k.position, before) :: s.insertions
      keys := none :: outer
      keyAllowed := false
      cursor := s.cursor.skip }
  | _ =>
    if s.flow = 0 ∧ !s.keyAllowed then none
    else
      let (deeper, s) := s.deepen s.cursor.column
      let s := if deeper then s.emit .blockMapping else s
      some { s.emit .value with keyAllowed := s.flow = 0, cursor := s.cursor.skip }

/-- An anchor or an alias. -/
def named (s : Scanner) (make : String → Token) : Option Scanner := do
  let s ← s.saveKey
  let (name, c) := word s.cursor.skip
  if name.isEmpty ∨ !mayFollowName c.rest then none
  else return (s.forbidKey.emit (make name)).move c

def tagToken (s : Scanner) : Option Scanner := do
  let s ← s.saveKey
  let (handle, suffix, c) ← tag? s.cursor
  let separated : Bool := atGap c.rest || (s.flow ≠ 0 && c.rest.head? = some ',')
  if separated then return (s.forbidKey.emit (.tag handle suffix)).move c else none

def blockScalar (s : Scanner) (literal : Bool) : Option Scanner := do
  let s ← s.removeKey
  let (text, c) ← block? literal s.indent s.cursor.skip
  return (s.allowKey.emit (.scalar (if literal then .literal else .other) text)).move c

def quotedScalar (s : Scanner) (quote : Char) : Option Scanner := do
  let s ← s.saveKey
  let c := s.cursor.skip
  let (text, c) ← quoted? quote (c.rest.length + 1) c {}
  return (s.forbidKey.emit (.scalar .other text)).move c

def plainScalar (s : Scanner) : Option Scanner := do
  let s ← s.saveKey
  let c := s.cursor
  let (text, c, onNewLine) ←
    plain? (s.flow ≠ 0) (s.indent + 1) (c.rest.length + 1) c {}
  return { s.emit (.scalar .plain text) with keyAllowed := onNewLine, cursor := c }

def isIndicator (c : Char) : Bool :=
  ['-', '?', ':', ',', '[', ']', '\x7b', '\x7d', '#', '&', '*', '!', '|', '>', '\'', '"', '%',
    '@', '\x60'].contains c

def startsPlain (inFlow : Bool) (rest : List Char) : Bool :=
  match rest with
  | [] => false
  | c :: after =>
    (!isGap c && !isBreak c && !isIndicator c) ||
      (c = '-' && !(match after with
        | a :: _ => isGap a
        | [] => false)) ||
      (!inFlow && (c = '?' || c = ':') && !atGap after)

/-- The token at the cursor, which is neither at a blank nor at the end. -/
def fetch (s : Scanner) : Option Scanner :=
  let c := s.cursor
  let inFlow : Bool := s.flow ≠ 0
  match c.rest with
  | [] => none
  | ch :: after =>
    if c.column = 0 ∧ ch = '%' then do
      let s ← (s.unroll (-1)).removeKey
      let (t, c) ← directive? c.skip
      return (s.forbidKey.emit t).move c
    else if c.atMarker '-' then s.documentMark .documentStart
    else if c.atMarker '.' then s.documentMark .documentEnd
    else if ch = '[' then s.openFlow .openSequence
    else if ch = '{' then s.openFlow .openMapping
    else if ch = ']' then s.closeFlow .closeSequence
    else if ch = '}' then s.closeFlow .closeMapping
    else if ch = ',' then s.flowEntry
    else if ch = '-' ∧ atGap after then s.announced .blockSequence .blockEntry true
    else if ch = '?' ∧ (inFlow ∨ atGap after) then s.announced .blockMapping .key (!inFlow)
    else if ch = ':' ∧ (inFlow ∨ atGap after) then s.colon
    else if ch = '*' then s.named .alias
    else if ch = '&' then s.named .anchor
    else if ch = '!' then s.tagToken
    else if ch = '|' ∧ !inFlow then s.blockScalar true
    else if ch = '>' ∧ !inFlow then s.blockScalar false
    else if ch = '\'' ∨ ch = '"' then s.quotedScalar ch
    else if startsPlain inFlow c.rest then s.plainScalar
    else none

def scan : Nat → Scanner → Option Scanner
  | 0, _ => none
  | fuel + 1, s =>
    let (c, allowed) :=
      skipToToken (s.flow ≠ 0) (2 * s.cursor.rest.length + 1) s.cursor s.keyAllowed
    match ({ s with cursor := c, keyAllowed := allowed }).dropStale with
    | none => none
    | some s =>
      let s := s.unroll s.cursor.column
      if s.cursor.rest.isEmpty then (s.unroll (-1)).removeKey.map (·.emit .streamEnd)
      else s.fetch.bind (scan fuel)

/-- Puts the noted tokens before those of their positions; both lists are in order. -/
def insertAll : Nat → List Token → List (Nat × List Token) → List Token
  | _, [], insertions => insertions.flatMap (·.2)
  | position, t :: tokens, insertions =>
    let (here, later) := insertions.span (·.1 ≤ position)
    here.flatMap (·.2) ++ t :: insertAll (position + 1) tokens later

end Scanner

/-- The tokens of a text. -/
def Token.scan? (text : String) : Option (List Token) :=
  let cs := text.toList
  if cs.all isAllowed then
    (Scanner.scan (cs.length + 2) { cursor := { rest := cs } }).map fun s =>
      Scanner.insertAll 0 s.tokens.reverse
        (s.insertions.mergeSort fun a b => a.1 ≤ b.1)
  else none

end JobEngine.Yaml
