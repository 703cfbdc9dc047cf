import JobEngine.Engine

/-!
# One delivery of a record

A delivery marks the job as running, opens its log, checks the parameters and
runs the job. Crashes are contained. Then the log is closed, the final status
is written and the retry policy decides. What is left to the caller is to tell
the queue: success and a stop complete the record, everything else is a
failure of it. Each step is atomic; other tasks may act between two steps.
-/
namespace JobEngine

/-- How a run ended. -/
inductive Outcome
  | succeeded
  | stopped
  | cancelled (e : JobError)
  | failed (e : JobError)
  /-- The log or the parameters were refused; the job did not run. -/
  | buildFailed (e : JobError)
deriving DecidableEq, Repr

namespace Outcome

def ofFault (f : Fault) : Outcome :=
  match f.contained.kind with
  | .stopped => .stopped
  | .cancelled => .cancelled f.contained
  | _ => .failed f.contained

def status : Outcome → Status
  | .succeeded => .success
  | .stopped => .stopped
  | .cancelled _ => .cancelled
  | .failed _ | .buildFailed _ => .error

/-- What the queue is told. -/
def result : Outcome → Except JobError Unit
  | .succeeded | .stopped => .ok ()
  | .cancelled e | .failed e | .buildFailed e => .error e

/-- Whether the record must not be retried. -/
def deadLetters (policy : RetryPolicy) (job : Job) (record : Record) : Outcome → Bool
  | .succeeded | .stopped => false
  | .cancelled _ => policy.disablesRetry job record true
  | .failed _ => policy.disablesRetry job record false
  | .buildFailed _ => true

end Outcome

inductive Stage
  | fetched
  /-- The status Running was written. -/
  | announced
  | active (log : OpenLog) (rest : Activity)
  /-- The log, if there was one, is closed. -/
  | ended (outcome : Outcome)
  /-- The final status was written. -/
  | reported (outcome : Outcome)
  /-- The retry policy has decided; the queue is still to be told. -/
  | decided (result : Except JobError Unit)

structure Delivery where
  record : Record
  job : Job
  stage : Stage := .fetched

/-- What the deliveries of one pool have in common. -/
structure Terms where
  policy : RetryPolicy
  target : LogTarget
deriving DecidableEq, Repr

namespace Delivery

/-- Opens the log and checks the parameters. A log that was opened in vain is closed. -/
def prepare (target : LogTarget) (job : Job) (record : Record) (e : Engine) : Stage × Engine :=
  match e.logs.openLog target record with
  | .error err => (.ended (.buildFailed (.contextBuild err.message)), e)
  | .ok (log, logs) =>
    match job.validate record.parameters with
    | .error f =>
      (.ended (.buildFailed (.contextBuild f.contained.message)),
        { e with logs := logs.close log })
    | .ok () =>
      let invocation : Invocation :=
        ⟨record.id, record.jobType, record.parameters, e.runsOf job.jobType⟩
      (.active log (job.run invocation), { e with logs }.countRun job.jobType)

/-- One action of the job's code. -/
def act (record : Record) (e : Engine) (log : OpenLog) : Activity → Stage × Engine
  | .done => (.ended .succeeded, { e with logs := e.logs.close log })
  | .fault f => (.ended (.ofFault f), { e with logs := e.logs.close log })
  | .log level message next =>
    let (log, logs) := e.logs.log record e.now level message log
    (.active log next, { e with logs })
  | .checkIn message next => (.active log next, (e.checkIn record.id message).2)
  | .poll next =>
    -- a tracker that does not answer has no command
    let command := match e.command? record.id with
      | .ok c => c
      | .error _ => none
    (.active log (next command), e)
  | .sleep _ next => (.active log next, e)
  | .order command next =>
    let (answer, e) := e.sendCommand record.id command
    (.active log (next answer), e)
  | .repositories next => (.active log (next e.listRepositories), e)
  | .list repository next => (.active log (next (e.listArtifacts repository)), e)
  | .find digest next => (.active log (next (e.findArtifact digest)), e)
  | .delete repository digest next =>
    let (answer, e) := e.deleteArtifact repository digest
    (.active log (next answer), e)

/-- The next step of a delivery. Once decided it stays as it is. -/
def step (terms : Terms) (d : Delivery) (e : Engine) (letters : DeadLetters) :
    Delivery × Engine × DeadLetters :=
  match d.stage with
  | .fetched => ({ d with stage := .announced }, (e.setStatus d.record.id .running).2, letters)
  | .announced =>
    let (stage, e) := prepare terms.target d.job d.record e
    ({ d with stage }, e, letters)
  | .active log rest =>
    let (stage, e) := act d.record e log rest
    ({ d with stage }, e, letters)
  | .ended outcome =>
    ({ d with stage := .reported outcome }, (e.setStatus d.record.id outcome.status).2, letters)
  | .reported outcome =>
    if outcome.deadLetters terms.policy d.job d.record then
      ({ d with
          record := { d.record with fails := deadLetterFails }
          stage := .decided outcome.result },
        e, letters.schedule d.record.id e.now e.clock)
    else ({ d with stage := .decided outcome.result }, e, letters)
  | .decided _ => (d, e, letters)

/-- How long the next step waits. -/
def pause (d : Delivery) : Nat :=
  match d.stage with
  | .active _ (.sleep ms _) => ms
  | _ => 0

def result? (d : Delivery) : Option (Except JobError Unit) :=
  match d.stage with
  | .decided result => some result
  | _ => none

end Delivery

end JobEngine
