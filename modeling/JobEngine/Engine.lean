import JobEngine.Bell
import JobEngine.DeadLetters
import JobEngine.JobLog
import JobEngine.Queue

/-!
# The shared state of a service

What workers, clients and timers act on: the queue with its wake-up calls, the
tracker, the artifact store, the logs and the clock. Each function here is one
atomic step. A call that is out of service is refused and changes nothing.
-/
namespace JobEngine

open Time (Timestamp)

/-- Who waits for records. -/
inductive Taker
  | worker (index : Nat)
  | waiter (name : String)
deriving DecidableEq, Repr

inductive TrackerCall
  | setStatus
  | ctlCommand
  | checkIn
  | markDeadAt
  | sendCommand
  | stats
deriving DecidableEq, Repr

def TrackerCall.name : TrackerCall → String
  | .setStatus => "set_status"
  | .ctlCommand => "ctl_command"
  | .checkIn => "check_in"
  | .markDeadAt => "mark_dead_at"
  | .sendCommand => "send_command"
  | .stats => "stats"

inductive StoreCall
  | repositories
  | list
  | find
  | delete (digest : String)
deriving DecidableEq, Repr

structure Engine where
  registry : Registry := {}
  /-- Milliseconds since 1970-01-01T00:00:00Z. -/
  clock : Nat
  queue : Queue := {}
  bell : Bell Taker := {}
  tracker : Tracker := {}
  store : ArtifactStore := {}
  logs : LogBook := {}
  /-- How often each job was run. -/
  runs : List (String × Nat) := []
  trackerOutage : List TrackerCall := []
  storeOutage : List StoreCall := []

namespace Engine

def now (e : Engine) : Timestamp := .ofMillis e.clock

/-! ## Tracker -/

def refused (call : TrackerCall) : QueueError := .backend ("tracker offline: " ++ call.name)

/-- A write to the tracker. -/
def write (e : Engine) (call : TrackerCall) (change : Tracker → Except QueueError Tracker) :
    Except QueueError Unit × Engine :=
  if call ∈ e.trackerOutage then (.error (refused call), e)
  else
    match change e.tracker with
    | .ok tracker => (.ok (), { e with tracker })
    | .error err => (.error err, e)

def setStatus (e : Engine) (id : JobId) (status : Status) : Except QueueError Unit × Engine :=
  e.write .setStatus fun t => .ok (t.setStatus id status e.now)

def checkIn (e : Engine) (id : JobId) (message : String) : Except QueueError Unit × Engine :=
  e.write .checkIn fun t => t.checkIn id message e.now

def markDeadAt (e : Engine) (id : JobId) (diedAt : Timestamp) :
    Except QueueError Unit × Engine :=
  e.write .markDeadAt fun t => t.markDeadAt id diedAt e.now

def sendCommand (e : Engine) (id : JobId) (command : Command) :
    Except QueueError Unit × Engine :=
  e.write .sendCommand fun t => t.sendCommand id command e.now

def command? (e : Engine) (id : JobId) : Except QueueError (Option Command) :=
  if .ctlCommand ∈ e.trackerOutage then .error (refused .ctlCommand)
  else .ok (e.tracker.command? id)

def stats? (e : Engine) (id : JobId) : Except QueueError (Option Stats) :=
  if .stats ∈ e.trackerOutage then .error (refused .stats) else .ok (e.tracker.find? id)

/-! ## Store -/

def listRepositories (e : Engine) : Except StoreError (List String) :=
  if .repositories ∈ e.storeOutage then .error (.repositoryNotFound "<all>")
  else .ok e.store.names

def listArtifacts (e : Engine) (repository : String) : Except StoreError (List Artifact) :=
  if .list ∈ e.storeOutage then .error (.repositoryNotFound repository)
  else e.store.list repository

def findArtifact (e : Engine) (digest : String) : Except StoreError (Option Artifact) :=
  if .find ∈ e.storeOutage then .error (.artifactNotFound digest)
  else .ok (e.store.find? digest)

def deleteArtifact (e : Engine) (repository digest : String) :
    Except StoreError UInt64 × Engine :=
  if .delete digest ∈ e.storeOutage then (.error (.artifactNotFound digest), e)
  else
    match e.store.delete repository digest with
    | .ok (bytes, store) => (.ok bytes, { e with store })
    | .error err => (.error err, e)

/-! ## Queue -/

def append (e : Engine) (record : Record) : Engine := { e with queue := e.queue.append record }

def ring (e : Engine) : Engine := { e with bell := e.bell.ring }

/-- Appends a record and rings. -/
def push (e : Engine) (record : Record) : Engine := (e.append record).ring

/-- Takes the first record; while others remain, the next taker is woken too. -/
def take? (e : Engine) : Option (Record × Engine) :=
  match e.queue.take? with
  | none => none
  | some (record, queue) =>
    let e := { e with queue }
    some (record, if queue.pending.isEmpty then e else e.ring)

/-! ## Runs -/

def runsOf (e : Engine) (jobType : String) : Nat :=
  ((e.runs.find? (·.1 = jobType)).map (·.2)).getD 0

def countRun (e : Engine) (jobType : String) : Engine :=
  { e with runs := (jobType, e.runsOf jobType + 1) :: e.runs.filter (·.1 ≠ jobType) }

end Engine

end JobEngine
