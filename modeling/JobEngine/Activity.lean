import JobEngine.Artifact

/-!
# What a job does while it runs

An activity is the remaining behaviour of a run: what it does next and how it
goes on with the answer. Its only ways to the outside are its log, its
check-ins, the operator's command, the clock and the artifact store. Every
activity ends after finitely many steps, whatever it is answered.
-/
namespace JobEngine

inductive Level
  | trace
  | debug
  | info
  | warn
  | error
deriving DecidableEq, Repr

namespace Level

def text : Level → String
  | .trace => "TRACE"
  | .debug => "DEBUG"
  | .info => "INFO"
  | .warn => "WARN"
  | .error => "ERROR"

def all : List Level := [.trace, .debug, .info, .warn, .error]

/-- Higher is graver. -/
def rank : Level → Nat
  | .trace => 0
  | .debug => 1
  | .info => 2
  | .warn => 3
  | .error => 4

end Level

inductive Activity
  | done
  | fault (f : Fault)
  | log (level : Level) (message : String) (next : Activity)
  | checkIn (message : String) (next : Activity)
  /-- Asks for the operator's command. -/
  | poll (next : Option Command → Activity)
  | sleep (ms : Nat) (next : Activity)
  /-- Issues a command to its own job. -/
  | order (command : Command) (next : Except QueueError Unit → Activity)
  | repositories (next : Except StoreError (List String) → Activity)
  | list (repository : String) (next : Except StoreError (List Artifact) → Activity)
  | find (digest : String) (next : Except StoreError (Option Artifact) → Activity)
  | delete (repository digest : String) (next : Except StoreError UInt64 → Activity)

namespace Activity

def fail (e : JobError) : Activity := .fault (.error e)

/-- Ends the run if the operator asked for it, and says so in the log. -/
def checkpoint (next : Activity) : Activity :=
  .poll fun
    | none => next
    | some .stop => .log .info "stop command received" (fail .stopped)
    | some .cancel => .log .info "cancel command received" (fail .cancelled)

end Activity

/-! ## Jobs -/

/-- One run of a job, as its code sees it. -/
structure Invocation where
  id : JobId
  jobType : String
  parameters : Parameters
  /-- How often this job was run before, by any record. -/
  earlierRuns : Nat
deriving Repr

structure Job where
  jobType : String
  /-- The retry budget; zero selects the service's default. -/
  maxFails : UInt32 := 0
  shouldRetry : Bool
  validate : Parameters → Except Fault Unit := fun _ => .ok ()
  run : Invocation → Activity

/-- A job that succeeds at once. -/
def Job.idle (jobType : String) : Job where
  jobType := jobType
  shouldRetry := true
  run := fun _ => .done

/-- The job types a process knows, in the order of their registration. -/
structure Registry where
  jobs : List Job := []

namespace Registry

def find? (registry : Registry) (jobType : String) : Option Job :=
  registry.jobs.find? (·.jobType = jobType)

def register (registry : Registry) (job : Job) : Except QueueError Registry :=
  match registry.find? job.jobType with
  | some _ => .error (.duplicateJobType job.jobType)
  | none => .ok ⟨registry.jobs ++ [job]⟩

/-- Registers jobs in turn; those before the first refusal stay registered. -/
def registerAll (registry : Registry) : List Job → Registry × Except QueueError Unit
  | [] => (registry, .ok ())
  | job :: rest =>
    match registry.register job with
    | .ok grown => grown.registerAll rest
    | .error e => (registry, .error e)

end Registry

end JobEngine
