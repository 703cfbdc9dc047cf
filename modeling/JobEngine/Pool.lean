import JobEngine.Delivery

/-!
# The worker pool

A fixed number of workers take records from the queue and deliver them, one at
a time each. A record whose type is not registered goes to the archive of the
dead. A pool that shuts down takes no new records and waits for the running
ones; then the confirmations that wait are delivered or abandoned.
-/
namespace JobEngine

inductive Worker
  /-- About to look into the queue. -/
  | asking
  /-- Found the queue empty and is about to park. -/
  | emptyHanded
  | parked
  | carrying (d : Delivery)
  /-- Has a record of an unknown type. -/
  | stray (record : Record)
  /-- Has marked a record of an unknown type. -/
  | strayMarked (record : Record)
  /-- Appended a failed record and is about to ring. -/
  | ringing
  | stopped

namespace Worker

def isBusy : Worker → Bool
  | .carrying _ | .stray _ | .strayMarked _ | .ringing => true
  | _ => false

/-- The record in the worker's hand. -/
def record? : Worker → Option Record
  | .carrying d => some d.record
  | .stray record | .strayMarked record => some record
  | _ => none

def receive (registry : Registry) (record : Record) : Worker :=
  match registry.find? record.jobType with
  | some job => .carrying { record, job }
  | none => .stray record

/-- Tells the queue how a delivery ended. -/
def settle (record : Record) (result : Except JobError Unit) (e : Engine) : Worker × Engine :=
  match result with
  | .ok () => (.asking, { e with queue := e.queue.complete record })
  | .error err =>
    let (queue, disposition) := e.queue.fail record err
    (match disposition with
      | .requeued => .ringing
      | .dead => .asking, { e with queue })

/-- The next step of worker `index`. One that is parked or has stopped does not move by itself. -/
def step (terms : Terms) (index : Nat) (w : Worker) (e : Engine) (letters : DeadLetters) :
    Worker × Engine × DeadLetters :=
  match w with
  | .asking =>
    match e.take? with
    | some (record, e) => (receive e.registry record, e, letters)
    | none => (.emptyHanded, e, letters)
  | .emptyHanded =>
    let (bell, waits) := e.bell.park (.worker index)
    (if waits then .parked else .asking, { e with bell }, letters)
  | .parked => (.parked, e, letters)
  | .carrying d =>
    match d.result? with
    | some result =>
      let (w, e) := settle d.record result e
      (w, e, letters)
    | none =>
      let (d, e, letters) := d.step terms e letters
      (.carrying d, e, letters)
  | .stray record => (.strayMarked record, (e.setStatus record.id .error).2, letters)
  | .strayMarked record => (.asking, { e with queue := e.queue.bury record none }, letters)
  | .ringing => (.asking, e.ring, letters)
  | .stopped => (.stopped, e, letters)

def pause : Worker → Nat
  | .carrying d => d.pause
  | _ => 0

end Worker

structure PoolSettings where
  workers : Nat := 10
  defaultMaxFails : UInt32 := JobEngine.defaultMaxFails
  grace : Nat := 2000
  /-- Deliver the confirmations that wait when shutting down, instead of abandoning them. -/
  drain : Bool := true
  logDirectory : Option String := none
deriving DecidableEq, Repr

structure PoolStatus where
  workers : Nat
  busy : Nat
  queue : QueueCounts
deriving DecidableEq, Repr

structure Pool where
  settings : PoolSettings
  workers : List Worker
  letters : DeadLetters
  /-- Whether the pool takes no new records. -/
  closing : Bool := false

namespace Pool

def terms (p : Pool) : Terms where
  policy := ⟨p.settings.defaultMaxFails⟩
  target := match p.settings.logDirectory with
    | some path => .directory path
    | none => .journal

/-- Sets the budget of every registered job as its threshold in the queue. -/
def registerThresholds (policy : RetryPolicy) (e : Engine) : Engine :=
  let queue := e.registry.jobs.foldl
    (fun q job => q.setThreshold job.jobType (policy.budgetOf job)) e.queue
  { e with queue }

/-- Creates the log directory, registers the thresholds and starts the workers. -/
def start (settings : PoolSettings) (e : Engine) : Except QueueError (Pool × Engine) :=
  if settings.workers = 0 then .error (.backend "worker pool needs at least one worker")
  else
    let logs : Except FileError LogBook := match settings.logDirectory with
      | none => .ok e.logs
      | some path =>
        match e.logs.files.createDirectories path with
        | .ok files => .ok { e.logs with files }
        | .error err => .error err
    match logs with
    | .error err => .error (.io err.message)
    | .ok logs =>
      .ok (⟨settings, List.replicate settings.workers .asking, { grace := settings.grace }, false⟩,
        registerThresholds ⟨settings.defaultMaxFails⟩ { e with logs })

def status (p : Pool) (e : Engine) : PoolStatus :=
  ⟨p.workers.length, p.workers.countP (·.isBusy), e.queue.counts⟩

/-- Worker `index` takes its next step. -/
def stepWorker (p : Pool) (index : Nat) (e : Engine) : Pool × Engine :=
  match p.workers[index]? with
  | none => (p, e)
  | some w =>
    let (w, e, letters) := w.step p.terms index e p.letters
    ({ p with workers := p.workers.set index w, letters }, e)

end Pool

end JobEngine
