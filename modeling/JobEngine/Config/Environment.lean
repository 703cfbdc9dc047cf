import JobEngine.Config.Settings
import JobEngine.Text.Whole

/-!
# Settings from the environment

Each setting has a variable, which wins over every document. The variables are
looked at in a fixed order; the first one that is malformed ends the reading,
and those before it stay applied.
-/
namespace JobEngine.Config

abbrev Environment := String → Option String

/-- A variable and what its text does to the settings. -/
structure Variable where
  name : String
  set : String → Settings → Except ConfigError Settings

namespace Variable

def whole (name : String) (largest : Nat) (store : Nat → Settings → Settings) : Variable :=
  ⟨name, fun text s =>
    match Text.readWhole largest text with
    | .ok n => .ok (store n s)
    | .error fault => .error (.badVariable name (": " ++ fault.message))⟩

/-- One of `1`, `true`, `yes`, `y` or of `0`, `false`, `no`, `n`, in any case. -/
def flag? (text : String) : Option Bool :=
  let word := Text.lower text
  if ["1", "true", "yes", "y"].contains word then some true
  else if ["0", "false", "no", "n"].contains word then some false
  else none

def flag (name : String) (store : Bool → Settings → Settings) : Variable :=
  ⟨name, fun text s =>
    match flag? text with
    | some b => .ok (store b s)
    | none => .error (.badVariable name "")⟩

def text (name : String) (store : String → Settings → Settings) : Variable :=
  ⟨name, fun text s => .ok (store text s)⟩

end Variable

/-- All variables in the order in which they are looked at. -/
def Variable.all : List Variable := [
  .whole "JOBSERVICE_WORKERS" (UInt64.size - 1) fun n s => { s with workers := .ofNat n },
  .flag "JOBSERVICE_SHUTDOWN_DRAIN_DEAD_LETTERS" fun b s => { s with drain := b },
  .whole "JOBSERVICE_DEFAULT_MAX_FAILS" (UInt32.size - 1) fun n s =>
    { s with defaultMaxFails := .ofNat n },
  .whole "JOBSERVICE_DEAD_LETTER_GRACE_MS" (UInt64.size - 1) fun n s => { s with grace := .ofNat n },
  .text "JOBSERVICE_LOG_LEVEL" fun level s => { s with level },
  .flag "JOBSERVICE_LOG_JSON" fun b s => { s with json := b },
  .text "JOBSERVICE_JOB_LOG_DIR" fun path s =>
    { s with logDirectory := if path.isEmpty then none else some path }]

/-- The settings as far as the variables were read, and whether all of them were. -/
def Settings.override (env : Environment) :
    List Variable → Settings → Settings × Except ConfigError Unit
  | [], s => (s, .ok ())
  | v :: rest, s =>
    match env v.name with
    | none => s.override env rest
    | some text =>
      match v.set text s with
      | .ok s => s.override env rest
      | .error e => (s, .error e)

end JobEngine.Config
