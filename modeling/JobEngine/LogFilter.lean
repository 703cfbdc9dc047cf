import JobEngine.Activity
import JobEngine.Text.Whole

/-!
# Which notices are shown

A filter is a list of directives between commas. A directive gives the least
grave level that is shown, for every notice or for those of the parts whose
names begin with its target. The longest target that fits decides, and of two
equal ones the later. A text that is no directive is left out; if nothing
remains, errors alone are shown.
-/
namespace JobEngine

structure Directive where
  /-- The empty target fits everything. -/
  target : String := ""
  /-- The least grave level shown; without one nothing is. -/
  least : Option Level
deriving DecidableEq, Repr

structure LogFilter where
  directives : List Directive
deriving DecidableEq, Repr

namespace Directive

/-- The levels by number, from silence to everything. -/
def byNumber : List (Option Level) :=
  [none, some .error, some .warn, some .info, some .debug, some .trace]

/-- The level a text names, in any case or by its number. -/
def level? (text : String) : Option (Option Level) :=
  match Text.readWhole (UInt64.size - 1) text with
  | .ok n => byNumber[n]?
  | .error _ =>
    let word := Text.lower text
    if word = "off" then some none
    else (Level.all.find? fun l => Text.lower l.text = word).map some

/-- A directive begins with a letter, a digit or one of a few signs. -/
def startsWell (c : Char) : Bool :=
  isLetter c || Text.isDigit c || ['-', ':', '_', '['].contains c
where
  isLetter (c : Char) : Bool :=
    ('a' ≤ c && c ≤ 'z') || ('A' ≤ c && c ≤ 'Z') || 127 < c.toNat

/-- A target without a level shows everything. A blank in front spoils a level. -/
def parse? (cs : List Char) : Option Directive :=
  match (Text.trimStart cs).head? with
  | none => none
  | some c =>
    if !startsWell c then none
    else
      match Text.splitFirst '=' cs with
      | none =>
        match level? (String.ofList cs) with
        | some least => some { least }
        | none => some ⟨String.ofList cs, some .trace⟩
      | some (target, level) =>
        if cs.head? ≠ some c then none
        else if level.isEmpty then some ⟨String.ofList target, some .trace⟩
        else (level? (String.ofList level)).map fun least => ⟨String.ofList target, least⟩

def covers (d : Directive) (target : String) : Bool :=
  d.target.toList.isPrefixOf target.toList

def shows (d : Directive) (level : Level) : Bool :=
  d.least.any fun least => least.rank ≤ level.rank

end Directive

namespace LogFilter

def ofText (text : String) : LogFilter :=
  match (Text.splitAll ',' text.toList).filterMap Directive.parse? with
  | [] => ⟨[{ least := some .error }]⟩
  | directives => ⟨directives⟩

/-- The directive that decides about a target. -/
def directive? (f : LogFilter) (target : String) : Option Directive :=
  (f.directives.filter (·.covers target)).foldl pick none
where
  pick (best : Option Directive) (d : Directive) : Option Directive :=
    match best with
    | none => some d
    | some b => if d.target.length < b.target.length then best else some d

/-- Whether a notice of a level from a target is shown. -/
def shows (f : LogFilter) (level : Level) (target : String) : Bool :=
  (f.directive? target).any (·.shows level)

end LogFilter

end JobEngine
