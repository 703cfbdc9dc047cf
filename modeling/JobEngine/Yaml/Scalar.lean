import JobEngine.Yaml.Cursor

/-!
# Scalars

Plain scalars end before an indicator or a comment, quoted ones at their
quote, block scalars where the indentation ends. In plain and quoted scalars
blanks at the ends of a line go away, one line break is a blank, and each
further one is kept.
-/
namespace JobEngine.Yaml

open Text (hexValue?)

/-- Text that is being read, with the blanks that may still belong to it; newest first. -/
structure Folding where
  text : List Char := []
  gaps : List Char := []
  /-- Whether a line break came since the last character that is no blank. -/
  broken : Bool := false
  firstBreak : Option Char := none
  moreBreaks : List Char := []

namespace Folding

def isWaiting (f : Folding) : Bool := f.broken || !f.gaps.isEmpty

/-- A blank; at the start of a line it does not count. -/
def gap (f : Folding) (c : Char) : Folding :=
  if f.broken then f else { f with gaps := c :: f.gaps }

def lineBreak (f : Folding) (c : Char) : Folding :=
  if f.broken then { f with moreBreaks := Cursor.breakText c :: f.moreBreaks }
  else { f with gaps := [], broken := true, firstBreak := some (Cursor.breakText c) }

/-- A line break that leaves no trace. -/
def silentBreak (f : Folding) : Folding := { f with broken := true }

/-- What waited becomes part of the text. -/
def join (f : Folding) : Folding :=
  if f.broken then
    let breaks := match f.firstBreak with
      | none => f.moreBreaks
      | some '\n' => if f.moreBreaks.isEmpty then [' '] else f.moreBreaks
      | some c => f.moreBreaks ++ [c]
    { text := breaks ++ f.text }
  else { text := f.gaps ++ f.text }

def push (f : Folding) (c : Char) : Folding := { f.join with text := c :: f.join.text }

def result (f : Folding) : String := String.ofList f.text.reverse

end Folding

/-! ## Plain scalars -/

def isFlowMark (c : Char) : Bool :=
  c = ',' || c = '[' || c = ']' || c = '\x7b' || c = '\x7d'

/-- A colon that neither ends a plain scalar in a flow collection nor may stand in it. -/
def badColon (flow : Bool) (rest : List Char) : Bool :=
  match rest with
  | ':' :: c :: _ => flow && (isFlowMark c || c = '?')
  | _ => false

def endsPlain (flow : Bool) (rest : List Char) : Bool :=
  match rest with
  | ':' :: after => atGap after
  | c :: _ => flow && isFlowMark c
  | [] => true

/-- A plain scalar whose lines are indented to `indent` at least: its text, the place after it and
whether that is on a new line. -/
def plain? (flow : Bool) (indent : Int) : Nat → Cursor → Folding →
    Option (String × Cursor × Bool)
  | 0, _, _ => none
  | fuel + 1, c, f =>
    let done := some (f.result, c, f.broken)
    match c.rest with
    | [] => done
    | ch :: _ =>
      if isGap ch then
        if f.broken ∧ (c.column : Int) < indent ∧ ch = '\t' then none
        else plain? flow indent fuel c.skip (f.gap ch)
      else if isBreak ch then plain? flow indent fuel c.skipBreak (f.lineBreak ch)
      else if f.isWaiting ∧
          ((!flow ∧ (c.column : Int) < indent) ∨ c.atDocumentMark ∨ ch = '#') then done
      else if badColon flow c.rest then none
      else if endsPlain flow c.rest then done
      else plain? flow indent fuel c.skip (f.push ch)

/-! ## Quoted scalars -/

def namedEscapes : List (Char × Nat) := [
  ('0', 0x00), ('a', 0x07), ('b', 0x08), ('t', 0x09), ('\t', 0x09), ('n', 0x0a), ('v', 0x0b),
  ('f', 0x0c), ('r', 0x0d), ('e', 0x1b), (' ', 0x20), ('"', 0x22), ('/', 0x2f), ('\\', 0x5c),
  ('N', 0x85), ('_', 0xa0), ('L', 0x2028), ('P', 0x2029)]

/-- The character of an escape, and how many characters it takes. -/
def escape? (rest : List Char) : Option (Char × Nat) :=
  let hex (count : Nat) : Option (Char × Nat) :=
    let digits := (rest.drop 1).take count
    if digits.length = count ∧ digits.all fun c => (hexValue? c).isSome then
      let code := digits.foldl (fun value c => value * 16 + (hexValue? c).getD 0) 0
      if code.isValidChar then some (Char.ofNat code, count + 1) else none
    else none
  match rest with
  | 'x' :: _ => hex 2
  | 'u' :: _ => hex 4
  | 'U' :: _ => hex 8
  | c :: _ => (namedEscapes.find? (·.1 = c)).map fun e => (Char.ofNat e.2, 1)
  | [] => none

/-- The rest of a quoted scalar after its opening quote. -/
def quoted? (quote : Char) : Nat → Cursor → Folding → Option (String × Cursor)
  | 0, _, _ => none
  | fuel + 1, c, f =>
    match c.rest with
    | [] => none
    | ch :: rest =>
      if c.atDocumentMark then none
      else if isGap ch then quoted? quote fuel c.skip (f.gap ch)
      else if isBreak ch then quoted? quote fuel c.skipBreak (f.lineBreak ch)
      else if ch = quote then
        if quote = '\'' ∧ rest.head? = some '\'' then
          quoted? quote fuel (c.skipMany 2) (f.push '\'')
        else some (f.join.result, c.skip)
      else if ch = '\\' ∧ quote = '"' then
        match rest with
        | [] => none
        | next :: _ =>
          if isBreak next then quoted? quote fuel c.skip.skipBreak f.join.silentBreak
          else
            match escape? rest with
            | some (ch, taken) => quoted? quote fuel (c.skipMany (taken + 1)) (f.push ch)
            | none => none
      else quoted? quote fuel c.skip (f.push ch)

/-! ## Block scalars -/

inductive Chomping
  | clip
  | strip
  | keep
deriving DecidableEq, Repr

def chompingOf? : Char → Option Chomping
  | '+' => some .keep
  | '-' => some .strip
  | _ => none

def incrementOf? (c : Char) : Option Nat :=
  if '1' ≤ c ∧ c ≤ '9' then some (Text.digitValue c) else none

/-- The signs after the indicator, in either order: chomping and indentation. -/
def blockHeader? (c : Cursor) : Option (Chomping × Option Nat × Cursor) :=
  match c.rest with
  | '0' :: _ => none
  | x :: rest =>
    match chompingOf? x, incrementOf? x with
    | some chomping, _ =>
      match rest with
      | '0' :: _ => none
      | y :: _ => match incrementOf? y with
        | some n => some (chomping, some n, c.skipMany 2)
        | none => some (chomping, none, c.skip)
      | [] => some (chomping, none, c.skip)
    | none, some n =>
      match rest with
      | y :: _ => match chompingOf? y with
        | some chomping => some (chomping, some n, c.skipMany 2)
        | none => some (.clip, some n, c.skip)
      | [] => some (.clip, some n, c.skip)
    | none, none => some (.clip, none, c)
  | [] => some (.clip, none, c)

/-- Goes past empty lines. While the indentation is not known, `indent` is zero and the widest one
seen is kept. -/
def emptyLines? (indent : Nat) : Nat → Cursor → Nat → List Char →
    Option (List Char × Nat × Cursor)
  | 0, _, _, _ => none
  | fuel + 1, c, widest, breaks =>
    match c.rest with
    | [] => some (breaks, max widest c.column, c)
    | ch :: _ =>
      let inIndent : Bool := indent = 0 || c.column < indent
      if inIndent && ch = ' ' then emptyLines? indent fuel c.skip widest breaks
      else if inIndent && ch = '\t' then none
      else if isBreak ch then
        emptyLines? indent fuel c.skipBreak (max widest c.column) (Cursor.breakText ch :: breaks)
      else some (breaks, max widest c.column, c)

/-- Text of a block, newest first, the break that ended its last line, and the empty lines since. -/
structure Block where
  text : List Char := []
  lastBreak : List Char := []
  emptyLines : List Char := []
  /-- Whether the last line began with a blank. -/
  wasSpaced : Bool := false

/-- A further line, at the indentation of the block. -/
def Block.line (b : Block) (literal : Bool) (content : List Char) (lineBreak : List Char) :
    Block :=
  let spaced := match content with
    | ch :: _ => isGap ch
    | [] => false
  let folded := !literal && b.lastBreak = ['\n'] && !b.wasSpaced && !spaced
  let joint := if folded then (if b.emptyLines.isEmpty then [' '] else b.emptyLines)
    else b.emptyLines ++ b.lastBreak
  { text := content.reverse ++ joint ++ b.text, lastBreak := lineBreak, wasSpaced := spaced }

def Block.result (b : Block) (chomping : Chomping) : String :=
  let tail := match chomping with
    | .strip => []
    | .clip => b.lastBreak
    | .keep => b.emptyLines ++ b.lastBreak
  String.ofList (tail ++ b.text).reverse

def blockLines? (literal : Bool) (indent : Nat) : Nat → Cursor → Block → Option (Block × Cursor)
  | 0, _, _ => none
  | fuel + 1, c, b =>
    if c.column ≠ indent ∨ c.rest.isEmpty then some (b, c)
    else
      let content := c.rest.takeWhile fun ch => !isBreak ch
      let c := c.skipMany content.length
      let (lineBreak, c) := match c.rest with
        | ch :: _ => ([Cursor.breakText ch], c.skipBreak)
        | [] => ([], c)
      let b := b.line literal content lineBreak
      match emptyLines? indent (c.rest.length + 1) c 0 [] with
      | none => none
      | some (breaks, _, c) =>
        blockLines? literal indent fuel c { b with emptyLines := breaks }

/-- A block scalar after its indicator, inside a collection that is indented to `parent`. -/
def block? (literal : Bool) (parent : Int) (c : Cursor) : Option (String × Cursor) := do
  let (chomping, increment, c) ← blockHeader? c
  let c := c.skipGaps
  let c := match c.rest with
    | '#' :: _ => c.skipLine
    | _ => c
  let c ← match c.rest with
    | [] => some c
    | ch :: _ => if isBreak ch then some c.skipBreak else none
  let fixed : Nat := match increment with
    | some n => if 0 ≤ parent then parent.toNat + n else n
    | none => 0
  let (breaks, widest, c) ← emptyLines? fixed (c.rest.length + 1) c 0 []
  let indent := if fixed = 0 then max widest (max (parent + 1).toNat 1) else fixed
  let (b, c) ← blockLines? literal indent (c.rest.length + 2) c { emptyLines := breaks }
  return (b.result chomping, c)

end JobEngine.Yaml
