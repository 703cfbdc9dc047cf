import JobEngine.Simulation

/-!
# Acting on a service in virtual time

What one does from outside: start and shut down the pool, wait for records,
run a delivery by hand, wait for confirmations, and keep periodic policies.
-/
namespace JobEngine.Simulation

/-! ## Waiting for records -/

def addWaiter (s : Simulation) (name : String) : Simulation :=
  let s : Simulation := { s with
    waiters := s.waiters.filter (·.1 ≠ name) ++ [(name, .asking)]
    ready := s.ready ++ [.taker (.waiter name)] }
  s.settle

/-- A waiter gives up; a ring that it has heard is handed on. -/
def dropWaiter (s : Simulation) (name : String) : Simulation :=
  let s : Simulation := { s.leave (.waiter name) with
    waiters := s.waiters.filter (·.1 ≠ name)
    ready := s.ready.filter (· ≠ .taker (.waiter name)) }
  s.settle

/-- What each waiter has got; those who got something are let go. -/
def collectWaiters (s : Simulation) : List (String × Option JobId) × Simulation :=
  let s := s.settle
  let found := s.waiters.map fun (name, w) =>
    match w with
    | .served id => (name, some id)
    | _ => (name, none)
  (found, { s with waiters := s.waiters.filter fun (_, w) => match w with
    | .served _ => false
    | _ => true })

/-! ## The pool -/

def startPool (s : Simulation) (settings : PoolSettings) : Except QueueError Unit × Simulation :=
  match s.pool with
  | some _ => (.error (.backend "worker pool already started"), s)
  | none =>
    match Pool.start settings s.engine with
    | .error e => (.error e, s)
    | .ok (pool, engine) =>
      (.ok (), { s with
        pool := some pool
        engine
        ready := s.ready ++ (List.range settings.workers).map fun i => .taker (.worker i) })

def poolIdle (s : Simulation) : Bool :=
  match s.pool with
  | some pool => pool.workers.all fun w => match w with
    | .stopped => true
    | _ => false
  | none => true

def poolLettersEmpty (s : Simulation) : Bool :=
  match s.pool with
  | some pool => pool.letters.waiting.isEmpty
  | none => true

def isWorker : Task → Bool
  | .taker (.worker _) => true
  | _ => false

/-- The workers take no new records, and those that are parked are told. -/
def closePool (s : Simulation) : Simulation :=
  match s.pool with
  | none => s
  | some pool =>
    let tasks := (List.range pool.workers.length).map fun i => Task.taker (.worker i)
    let parked := tasks.filter fun t => !s.ready.contains t && !s.asleep.any (·.2 = t)
    { s with
      pool := some { pool with closing := true }
      ready := s.ready ++ parked }

/-- The workers stop when they have nothing in hand. -/
def joinWorkers (s : Simulation) : Simulation := s.wait poolIdle none

/-- The confirmations that wait are delivered or abandoned. -/
def settleConfirmations (s : Simulation) : Simulation :=
  let s : Simulation := { s with pool := s.pool.map fun (pool : Pool) =>
    if pool.settings.drain then pool else { pool with letters := pool.letters.abandon } }
  s.wait poolLettersEmpty none

def removePool (s : Simulation) : Simulation :=
  { s with
    pool := none
    ready := s.ready.filter fun t => !isWorker t
    asleep := s.asleep.filter fun entry => !isWorker entry.2 }

/-- The workers stop, and then the confirmations that wait are delivered or abandoned. -/
def shutdownPool (s : Simulation) : Simulation :=
  if s.pool.isNone then s else s.closePool.joinWorkers.settleConfirmations.removePool

/-! ## A delivery by hand -/

def runnerDone (s : Simulation) : Bool :=
  match s.runner with
  | some (_, d) => d.result?.isSome
  | none => true

/-- Delivers a record to a job and waits for the end: how it ended, and the record as the queue
would get it back. -/
def deliver (s : Simulation) (terms : Terms) (job : Job) (record : Record) :
    Except JobError Unit × Record × Simulation :=
  let s := { s with runner := some (terms, { record, job }), ready := .runner :: s.ready }
  let s := s.wait runnerDone none
  let rest := { s with runner := none, ready := s.ready.filter (· ≠ .runner) }
  match s.runner with
  | some (_, d) => (d.result?.getD (.ok ()), d.record, rest)
  | none => (.ok (), record, rest)

/-- Completes or fails a record, and rings if it waits again. -/
def settleRecord (s : Simulation) (record : Record) (result : Except JobError Unit) :
    Option Disposition × Simulation :=
  match result with
  | .ok () => (none, { s with engine := { s.engine with queue := s.engine.queue.complete record } })
  | .error e =>
    let (queue, disposition) := s.engine.queue.fail record e
    let engine := { s.engine with queue }
    (some disposition, { s with engine := match disposition with
      | .requeued => engine.ring
      | .dead => engine })

/-! ## Confirmations -/

def lettersEmpty (s : Simulation) : Bool := s.letters.waiting.isEmpty

def drainLetters (s : Simulation) : Simulation := s.wait lettersEmpty none

def abandonLetters (s : Simulation) : Simulation :=
  { s with letters := s.letters.abandon }.wait lettersEmpty none

/-! ## Clients and policies -/

/-- Submits a request under the next identifier, which is used up if the request is accepted. -/
def enqueue (s : Simulation) (request : Request) : Except CheckFault JobId × Simulation :=
  let (id, next) := s.issue
  match Client.enqueue request id s.engine with
  | (.ok (), engine) => (.ok id, { next with engine })
  | (.error f, engine) => (.error f, { next with engine })

def openPeriodic (s : Simulation) : Periodic := s.periodic.getD {}

def schedule (s : Simulation) (request : Request) (cron : String) :
    Except CheckFault JobId × Simulation :=
  let (id, s) := s.issue
  match s.openPeriodic.schedule s.engine.registry request cron id s.clock (.ok ()) with
  | .ok p => (.ok id, { s with periodic := some p })
  | .error f => (.error f, { s with periodic := some s.openPeriodic })

def unschedule (s : Simulation) (id : JobId) : Except QueueError Unit × Simulation :=
  let (answer, p) := s.openPeriodic.unschedule id (.ok ())
  (answer, { s with periodic := some p })

def startPeriodic (s : Simulation) : Except QueueError Unit × Simulation :=
  match s.openPeriodic.start s.clock with
  | .ok p => (.ok (), { s with periodic := some p })
  | .error e => (.error e, { s with periodic := some s.openPeriodic })

def stopPeriodic (s : Simulation) : Simulation := { s with periodic := none }

end JobEngine.Simulation
