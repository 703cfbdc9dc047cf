import JobEngine.Json.Printer
import JobEngine.Simulation

/-!
# What a service says

A notice is one thing that a service says about itself while it runs. Each has
a level and comes from a part of the service, whose name filters go by. What a
worker says can be told from the step that it is about to take.
-/
namespace JobEngine

inductive Notice
  | configured
  | registered (jobType : String)
  | poolStarted
  | workerStarted
  | scheduled (jobType cron : String)
  | timersStarted
  | enqueued
  | submitted (jobType : String)
  | refused (jobType reason : String)
  | pickedUp
  | stray
  /-- A line of a job's own log. -/
  | logLine (level : Level)
  /-- What a maintenance job says at its end. -/
  | summary (jobType : String)
  | succeeded
  | stopped
  | cancelled
  | failed
  | retriesDisabled
  | completed
  | requeued
  | died (jobType : String)
  | confirmed
  | abandoned
  | reloadFailed
  | reloadRefused
  | levelUnchanged
  | levelReloaded
  | timersStopped
  | poolStatus (status : PoolStatus)
  | poolStopping
  | workerStopped
  | poolStopped
deriving DecidableEq, Repr

namespace Notice

def level : Notice → Level
  | .registered _ | .workerStarted | .workerStopped | .pickedUp | .completed
  | .levelUnchanged => .debug
  | .cancelled | .retriesDisabled | .died _ | .abandoned => .warn
  | .refused _ _ | .stray | .failed | .reloadFailed | .reloadRefused => .error
  | .logLine level => level
  | .configured | .poolStarted | .scheduled _ _ | .timersStarted | .enqueued | .submitted _
  | .summary _ | .succeeded | .stopped | .requeued | .confirmed | .levelReloaded
  | .timersStopped | .poolStatus _ | .poolStopping | .poolStopped => .info

/-- The part of the service that says it. -/
def target : Notice → String
  | .configured | .submitted _ | .refused _ _ | .poolStatus _ => "jobservice"
  | .reloadFailed | .reloadRefused | .levelUnchanged | .levelReloaded =>
    "jobservice::config_reloader"
  | .registered _ => "jobservice_queue::registry"
  | .poolStarted | .workerStarted | .workerStopped | .pickedUp | .stray | .poolStopping
  | .poolStopped => "jobservice_queue::pool"
  | .scheduled _ _ | .timersStarted | .timersStopped => "jobservice_queue::periodic"
  | .enqueued => "jobservice_queue::client"
  | .logLine _ => "jobservice_queue::logger"
  | .succeeded | .stopped | .cancelled | .failed | .retriesDisabled =>
    "jobservice_queue::adapter"
  | .completed | .requeued | .died _ => "jobservice_queue::queue"
  | .confirmed | .abandoned => "jobservice_queue::dead_letter"
  | .summary jobType =>
    if jobType = "gc" then "jobservice_jobs::gc" else "jobservice_jobs::retention"

/-- The wording. -/
def message : Notice → String
  | .configured => "configuration loaded"
  | .registered jobType => "registered job type " ++ jobType
  | .poolStarted => "worker pool started"
  | .workerStarted => "worker started"
  | .scheduled jobType cron => "periodic policy scheduled: " ++ jobType ++ " at " ++ cron
  | .timersStarted => "periodic scheduler started"
  | .enqueued => "job enqueued"
  | .submitted jobType => "submitted job " ++ jobType
  | .refused jobType reason => "failed to submit job " ++ jobType ++ ": " ++ reason
  | .pickedUp => "picked up job"
  | .stray => "no job registered for record type, dead-lettering"
  | .logLine _ => "job log"
  | .summary jobType => if jobType = "gc" then "garbage collection finished"
    else "retention sweep finished"
  | .succeeded => "job exit with success"
  | .stopped => "job stopped"
  | .cancelled => "job cancelled"
  | .failed => "job exit with error"
  | .retriesDisabled => "retries disabled, forcing job to dead-letter queue"
  | .completed => "job record completed"
  | .requeued => "requeueing failed job"
  | .died jobType => "retry budget exhausted, moving job to dead-letter queue: " ++ jobType
  | .confirmed => "job moved to dead-letter state"
  | .abandoned => "dead-letter confirmation abandoned"
  | .reloadFailed => "failed to reload config file"
  | .reloadRefused => "loaded config failed validation, ignoring"
  | .levelUnchanged => "log level unchanged"
  | .levelReloaded => "log level reloaded"
  | .timersStopped => "periodic scheduler stopped"
  | .poolStatus _ => "worker pool status at shutdown"
  | .poolStopping => "worker pool shutting down"
  | .workerStopped => "worker stopped"
  | .poolStopped => "worker pool stopped"

/-- Whether it tells how a reload of the settings ended. -/
def isReload : Notice → Bool
  | .reloadFailed | .reloadRefused | .levelUnchanged | .levelReloaded => true
  | _ => false

/-- A line of the service's own log. -/
def line (json : Bool) (n : Notice) : String :=
  if json then
    (Json.Value.object [
      ("fields", .object [("message", .string n.message)]),
      ("level", .string n.level.text),
      ("target", .string n.target)]).text
  else n.level.text ++ " " ++ n.target ++ ": " ++ n.message

def ofOutcome : Outcome → Notice
  | .succeeded => .succeeded
  | .stopped => .stopped
  | .cancelled _ => .cancelled
  | .failed _ | .buildFailed _ => .failed

end Notice

namespace Delivery

/-- What the next step of a delivery says. -/
def notices (d : Delivery) (terms : Terms) : List Notice :=
  match d.stage with
  | .active _ (.log level _ _) => [.logLine level]
  | .active _ (.checkIn _ _) =>
    if d.job.jobType = "gc" ∨ d.job.jobType = "retention.sweep" then [.summary d.job.jobType]
    else []
  | .ended outcome => [.ofOutcome outcome]
  | .reported outcome =>
    if outcome.deadLetters terms.policy d.job d.record then [.retriesDisabled] else []
  | _ => []

end Delivery

namespace Worker

/-- What the queue says when it is told how a delivery ended. -/
def settleNotices (record : Record) (result : Except JobError Unit) (q : Queue) : List Notice :=
  match result with
  | .ok () => [.completed]
  | .error e =>
    match (q.fail record e).2 with
    | .requeued => [.requeued]
    | .dead => [.died record.jobType]

/-- What the next step of a worker says. -/
def notices (w : Worker) (terms : Terms) (e : Engine) : List Notice :=
  match w with
  | .asking =>
    match e.take? with
    | some (record, _) => if (e.registry.find? record.jobType).isSome then [.pickedUp] else [.stray]
    | none => []
  | .carrying d =>
    match d.result? with
    | some result => settleNotices d.record result e.queue
    | none => d.notices terms
  | _ => []

end Worker

namespace Simulation

/-- What the next turn says. -/
def notices (s : Simulation) : List Notice :=
  match s.admitWoken.ready.head?, s.pool with
  | some (.taker (.worker index)), some pool =>
    match pool.workers[index]? with
    | some w => if pool.closing ∨ 0 < w.pause then [] else w.notices pool.terms s.engine
    | none => []
  | _, _ => []

end Simulation

end JobEngine
