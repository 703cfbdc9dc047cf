import JobEngine.JobId

/-!
# Errors

`QueueError` is what the queue, the status tracker, the registry and the
client answer; `JobError` is how a run fails. A run may also crash instead of
returning, which is a `Fault`; a crash that is contained becomes a run-time
error of the job.
-/
namespace JobEngine

inductive QueueError
  | backend (reason : String)
  | notFound (id : JobId)
  | notRegistered (jobType : String)
  | duplicateJobType (jobType : String)
  | invalidParameters (reason : String)
  | invalidJobId (text : String)
  | logNotFound (id : JobId)
  | policyNotFound (id : JobId)
  | scheduler (reason : String)
  | io (reason : String)
deriving DecidableEq, Repr

namespace QueueError

def message : QueueError → String
  | .backend reason => "job queue backend error: " ++ reason
  | .notFound id => "job not found: " ++ id.text
  | .notRegistered jobType => "no job registered for type '" ++ jobType ++ "'"
  | .duplicateJobType jobType => "job type '" ++ jobType ++ "' is already registered"
  | .invalidParameters reason => "invalid job parameters: " ++ reason
  | .invalidJobId text => "invalid job id: " ++ text
  | .logNotFound id => "no log found for job " ++ id.text
  | .policyNotFound id => "periodic policy not found: " ++ id.text
  | .scheduler reason => "scheduler error: " ++ reason
  | .io reason => "io error: " ++ reason

end QueueError

inductive JobError
  | stopped
  | cancelled
  | contextBuild (reason : String)
  | runtime (reason : String)
  | invalidParameters (reason : String)
  | failed (reason : String)
deriving DecidableEq, Repr

inductive FailureKind
  | stopped
  | cancelled
  | contextBuild
  | runtime
  | ordinary
deriving DecidableEq, Repr

/-- How a run crashed: with a message or without one. -/
inductive Crash
  | message (text : String)
  | wordless
deriving DecidableEq, Repr

def Crash.text : Crash → String
  | .message text => text
  | .wordless => "unknown panic"

namespace JobError

def message : JobError → String
  | .stopped => "job stopped"
  | .cancelled => "job cancelled"
  | .contextBuild reason => "failed to build execution context: " ++ reason
  | .runtime reason => reason
  | .invalidParameters reason => "invalid parameters: " ++ reason
  | .failed reason => reason

def kind : JobError → FailureKind
  | .stopped => .stopped
  | .cancelled => .cancelled
  | .contextBuild _ => .contextBuild
  | .runtime _ => .runtime
  | .invalidParameters _ | .failed _ => .ordinary

/-- A crash that was contained. -/
def ofCrash (crash : Crash) : JobError := .runtime ("runtime error: " ++ crash.text)

/-- An error of the queue that ends a run. -/
def ofQueueError : QueueError → JobError
  | .invalidParameters reason => .invalidParameters reason
  | e => .failed e.message

end JobError

/-- How job code ends without success. -/
inductive Fault
  | error (e : JobError)
  | crash (c : Crash)
deriving DecidableEq, Repr

/-- What a caller sees that contains crashes. -/
def Fault.contained : Fault → JobError
  | .error e => e
  | .crash c => .ofCrash c

end JobEngine
