import JobEngine.Submission

/-!
# The command line

Arguments are read from left to right and the first problem ends the reading.
An option may have its value attached, after an equals sign or, in the short
form, directly; otherwise the next argument is its value, unless it begins
with a hyphen. An option that waits for its value is settled when the next
option is seen or the arguments end, so a problem with its value is reported
only then, and not at all if the next argument is unknown.
-/
namespace JobEngine.CommandLine

/-- Why there are no arguments to go on with. -/
inductive UsageError
  | unknownArgument
  /-- An option has no value, or an empty one where a path is needed. -/
  | missingValue
  /-- A flag was given a value. -/
  | unneededValue
  /-- An option was given twice that may be given once. -/
  | repeated
  | badValue (fault : SubmissionFault)
  | helpWanted
  | versionWanted
deriving DecidableEq, Repr

def usage : String :=
  "Usage: jobservice [-c PATH | --config-path PATH] [--submit TYPE[=JSON]]... " ++
    "[--schedule TYPE[=JSON]@CRON]..."

def version : String := "jobservice 0.1.0"

namespace UsageError

def message : UsageError → String
  | .unknownArgument => "error: unexpected argument"
  | .missingValue => "error: a value is required"
  | .unneededValue => "error: a flag takes no value"
  | .repeated => "error: the configuration file is given twice"
  | .badValue fault => "error: " ++ fault.message
  | .helpWanted => usage
  | .versionWanted => version

/-- Help and the version are what was asked for; everything else is a failure. -/
def exitCode : UsageError → Nat
  | .helpWanted | .versionWanted => 0
  | _ => 2

end UsageError

inductive Opt
  | configPath
  | submit
  | schedule
deriving DecidableEq, Repr

inductive Flag
  | help
  | version
deriving DecidableEq, Repr

def Flag.answer : Flag → UsageError
  | .help => .helpWanted
  | .version => .versionWanted

/-- What an argument can be called after. -/
inductive Name
  | opt (o : Opt)
  | flag (f : Flag)
deriving DecidableEq, Repr

namespace Name

def ofLong? (word : String) : Option Name :=
  match word with
  | "config-path" => some (.opt .configPath)
  | "submit" => some (.opt .submit)
  | "schedule" => some (.opt .schedule)
  | "help" => some (.flag .help)
  | "version" => some (.flag .version)
  | _ => none

def ofShort? (letter : Char) : Option Name :=
  match letter with
  | 'c' => some (.opt .configPath)
  | 'h' => some (.flag .help)
  | 'V' => some (.flag .version)
  | _ => none

end Name

/-- An argument by its form. -/
inductive Word
  /-- Two hyphens alone: what follows is no option. -/
  | escape
  | long (name : String) (value : Option String)
  | short (letter : Char) (rest : List Char)
  | plain (text : String)
deriving DecidableEq, Repr

def Word.ofText (text : String) : Word :=
  match text.toList with
  | ['-', '-'] => .escape
  | '-' :: '-' :: rest =>
    match Text.splitFirst '=' rest with
    | some (name, value) => .long (String.ofList name) (some (String.ofList value))
    | none => .long (String.ofList rest) none
  | '-' :: letter :: rest => .short letter rest
  | _ => .plain text

/-- The value attached to the letter of an option. -/
def attached? : List Char → Option String
  | [] => none
  | '=' :: rest => some (String.ofList rest)
  | rest => some (String.ofList rest)

structure Arguments where
  configPath : Option String := none
  submissions : List Submission := []
  schedules : List PeriodicSubmission := []
deriving DecidableEq, Repr

/-- An option that was seen, and its value once that was seen too. -/
structure Waiting where
  opt : Opt
  value : Option String := none
deriving DecidableEq, Repr

namespace Arguments

def setPath (a : Arguments) (path : String) : Except UsageError Arguments :=
  if path.isEmpty then .error .missingValue else .ok { a with configPath := some path }

/-- Takes the value of an option. -/
def take (a : Arguments) (o : Opt) (value : String) : Except UsageError Arguments :=
  match o with
  | .configPath => if a.configPath.isSome then .error .repeated else a.setPath value
  | .submit =>
    match Submission.parse value with
    | .ok s => .ok { a with submissions := a.submissions ++ [s] }
    | .error fault => .error (.badValue fault)
  | .schedule =>
    match PeriodicSubmission.parse value with
    | .ok s => .ok { a with schedules := a.schedules ++ [s] }
    | .error fault => .error (.badValue fault)

/-- Settles the option that waits, if there is one. -/
def settle (a : Arguments) : Option Waiting → Except UsageError Arguments
  | none => .ok a
  | some ⟨o, some value⟩ => a.take o value
  | some ⟨_, none⟩ => .error .missingValue

/-- A flag or an option is seen: the arguments so far, and the option that waits now. -/
def see (a : Arguments) (waiting : Option Waiting) (name : Name) (value : Option String) :
    Except UsageError (Arguments × Option Waiting) :=
  match name, value with
  | .flag _, some _ => .error .unneededValue
  | .flag f, none =>
    match a.settle waiting with
    | .ok _ => .error f.answer
    | .error e => .error e
  | .opt o, some value =>
    match a.settle waiting with
    | .ok a => (a.take o value).map fun a => (a, none)
    | .error e => .error e
  | .opt o, none => (a.settle waiting).map fun a => (a, some { opt := o })

/-- Reads one argument. -/
def step (a : Arguments) (waiting : Option Waiting) (text : String) :
    Except UsageError (Arguments × Option Waiting) :=
  match Word.ofText text with
  | .escape => .ok (a, waiting)
  | .long word value =>
    match Name.ofLong? word with
    | some name => a.see waiting name value
    | none => .error .unknownArgument
  | .short letter rest =>
    match Name.ofShort? letter with
    | some (.opt o) => a.see waiting (.opt o) (attached? rest)
    -- letters behind a flag are never looked at
    | some (.flag f) => a.see waiting (.flag f) none
    | none => .error .unknownArgument
  | .plain value =>
    match waiting with
    | some ⟨o, none⟩ => .ok (a, some ⟨o, some value⟩)
    | _ => .error .unknownArgument

def read (a : Arguments) (waiting : Option Waiting) : List String → Except UsageError Arguments
  | [] => a.settle waiting
  | text :: rest =>
    if Word.ofText text = .escape ∧ rest ≠ [] then .error .unknownArgument
    else
      match a.step waiting text with
      | .ok (a, waiting) => a.read waiting rest
      | .error e => .error e

/-- The arguments of a command line. The environment may name a configuration file; the command
line wins over it. -/
def parse (texts : List String) (pathVariable : Option String) : Except UsageError Arguments :=
  match read {} none texts with
  | .error e => .error e
  | .ok a =>
    match a.configPath, pathVariable with
    | none, some path => a.setPath path
    | _, _ => .ok a

end Arguments

/-- The variable that may name a configuration file. -/
def pathVariableName : String := "JOBSERVICE_CONFIG_PATH"

end JobEngine.CommandLine
