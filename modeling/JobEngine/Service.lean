import JobEngine.CommandLine
import JobEngine.Config.Loading
import JobEngine.Config.Validation
import JobEngine.LogFilter
import JobEngine.Maintenance.Scan
import JobEngine.Notice
import JobEngine.Simulation.Control

/-!
# The service

A service loads its settings, starts the pool with the maintenance jobs, keeps
the periodic policies of the command line and submits its jobs; a job that is
refused does not stop it. It may be told to load its settings again, of which
only the log level takes effect, and to stop. What it says is kept as far as
the filter of the moment shows it.
-/
namespace JobEngine

open CommandLine (Arguments)
open Config (Environment Settings ConfigError)

/-- Why a service does not start. -/
inductive StartError
  | configuration (e : ConfigError)
  | invalid (e : ConfigError)
  | pool (e : QueueError)
  | policy (jobType cron : String) (e : QueueError)
  | timers (e : QueueError)
  /-- The check of a job crashed. -/
  | crashed (c : Crash)
deriving DecidableEq, Repr

namespace StartError

def message : StartError → String
  | .configuration _ => "failed to load configuration"
  | .invalid _ => "invalid configuration"
  | .pool _ => "failed to start worker pool"
  | .policy jobType cron _ => "failed to schedule " ++ jobType ++ " at '" ++ cron ++ "'"
  | .timers _ => "failed to start periodic scheduler"
  | .crashed c => (CheckFault.crashed c).text

/-- The cause in words, where the wording is the library's own. -/
def cause? : StartError → Option String
  | .configuration e | .invalid e => e.message?
  | .pool e | .timers e | .policy _ _ e => some e.message
  | .crashed _ => none

def exitCode : StartError → Nat
  | .crashed _ => 101
  | _ => 1

end StartError

structure Service where
  simulation : Simulation
  configPath : Option String
  environment : Environment
  /-- What it was started with. -/
  settings : Settings
  /-- The log level of the settings that were loaded last. -/
  level : String
  filter : LogFilter
  /-- What was said and shown, the latest first. -/
  shown : List Notice := []

namespace Service

/-- The variable whose filter wins over the log level of the settings. -/
def filterVariable : String := "RUST_LOG"

/-- All variables that a service looks at. -/
def variableNames : List String :=
  filterVariable :: CommandLine.pathVariableName :: Config.Variable.all.map (·.name)

def filterOf (env : Environment) (level : String) : LogFilter :=
  .ofText ((env filterVariable).getD level)

def poolSettings (s : Settings) : PoolSettings where
  workers := s.workers.toNat
  defaultMaxFails := s.defaultMaxFails
  grace := s.grace.toNat
  drain := s.drain
  logDirectory := s.logDirectory

def say (s : Service) (n : Notice) : Service :=
  if s.filter.shows n.level n.target then { s with shown := n :: s.shown } else s

def sayAll (s : Service) (notices : List Notice) : Service := notices.foldl say s

/-- What was shown, in order. -/
def notices (s : Service) : List Notice := s.shown.reverse

def files (s : Service) : Files := s.simulation.engine.logs.files

/-! ## Starting -/

def loadSettings (files : Files) (path : Option String) (env : Environment) :
    Except StartError Settings :=
  match Settings.load files path env with
  | .error e => .error (.configuration e)
  | .ok settings =>
    match settings.check files with
    | .error e => .error (.invalid e)
    | .ok () => .ok settings

/-- A service that has loaded its settings and knows its jobs. -/
def init (files : Files) (path : Option String) (env : Environment) (clock : Nat)
    (settings : Settings) : Service :=
  let s : Service := {
    simulation := {
      engine := { registry := ⟨Maintenance.jobs⟩, clock, logs := { files } }
      letters := { grace := settings.grace.toNat } }
    configPath := path
    environment := env
    settings
    level := settings.level
    filter := filterOf env settings.level }
  s.sayAll (.configured :: Maintenance.jobs.map fun job => .registered job.jobType)

def startPool (s : Service) : Except StartError Service :=
  match s.simulation.startPool (poolSettings s.settings) with
  | (.error e, _) => .error (.pool e)
  | (.ok (), simulation) =>
    .ok ({ s with simulation }.sayAll
      (.poolStarted :: List.replicate s.settings.workers.toNat .workerStarted))

/-- Keeps the policies in turn; the first that is not accepted ends the start. -/
def schedule (s : Service) : List PeriodicSubmission → Except StartError Service
  | [] => .ok s
  | p :: rest =>
    match s.simulation.schedule p.submission.toRequest p.cron with
    | (.error (.refused e), _) => .error (.policy p.submission.jobType p.cron e)
    | (.error (.crashed c), _) => .error (.crashed c)
    | (.ok _, simulation) =>
      ({ s with simulation }.say (.scheduled p.submission.jobType p.cron)).schedule rest

def startTimers (s : Service) : Except StartError Service :=
  match s.simulation.startPeriodic with
  | (.error e, _) => .error (.timers e)
  | (.ok (), simulation) => .ok ({ s with simulation }.say .timersStarted)

/-- A refusal is said and does not end the start. -/
def submit (s : Service) (submission : Submission) : Except StartError Service :=
  match s.simulation.enqueue submission.toRequest with
  | (.ok _, simulation) =>
    .ok ({ s with simulation }.sayAll [.enqueued, .submitted submission.jobType])
  | (.error (.refused e), simulation) =>
    .ok ({ s with simulation }.say (.refused submission.jobType e.message))
  | (.error (.crashed c), _) => .error (.crashed c)

def start (a : Arguments) (files : Files) (env : Environment) (clock : Nat) :
    Except StartError Service := do
  let settings ← loadSettings files a.configPath env
  let s ← (init files a.configPath env clock settings).startPool
  let s ← s.schedule a.schedules
  let s ← s.startTimers
  a.submissions.foldlM submit s

/-! ## Running -/

/-- The next thing that happens without time passing, and what is said about it. -/
def step (s : Simulation) : Option (List Notice × Simulation) :=
  match s.turn with
  | some next => some (s.notices, next)
  | none =>
    match s.confirm with
    | some next => some ([.confirmed], next)
    | none => s.event.map fun next => ([], next)

/-- Everything that can happen without time passing. -/
def run (s : Service) : Nat → Service
  | 0 => s
  | fuel + 1 =>
    match step s.simulation with
    | none => s
    | some (notices, simulation) => ({ s with simulation }.sayAll notices).run fuel

def settle (s : Service) : Service := s.run Simulation.patience

/-- Loads the settings again; a changed log level replaces the filter. -/
def reload (s : Service) : Service :=
  match loadSettings s.files s.configPath s.environment with
  | .error (.invalid _) => s.say .reloadRefused
  | .error _ => s.say .reloadFailed
  | .ok settings =>
    if settings.level = s.level then s.say .levelUnchanged
    else
      { s with level := settings.level, filter := .ofText settings.level }.say .levelReloaded

/-- Other files are found from now on. -/
def withFiles (s : Service) (files : Files) : Service :=
  let engine := s.simulation.engine
  { s with
    simulation := { s.simulation with engine := { engine with logs := { engine.logs with files } } } }

/-- What becomes of the confirmations that wait when the pool stops. -/
def lastWords (pool : Pool) : List Notice :=
  List.replicate pool.letters.pending (if pool.settings.drain then .confirmed else .abandoned)

def stop (s : Service) : Service :=
  let s := { s with simulation := s.simulation.stopPeriodic }.say .timersStopped
  match s.simulation.pool with
  | none => s
  | some pool =>
    let status := pool.status s.simulation.engine
    let farewell : List Notice :=
      List.replicate pool.workers.length .workerStopped ++ lastWords pool ++ [.poolStopped]
    { s with simulation := s.simulation.shutdownPool }.sayAll
      (.poolStatus status :: .poolStopping :: farewell)

end Service

end JobEngine
