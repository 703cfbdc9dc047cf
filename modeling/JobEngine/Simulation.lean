import JobEngine.Periodic
import JobEngine.Pool
import JobEngine.Script

/-!
# A service in virtual time

Tasks that can go on stand in line, and the first one goes on until it waits:
for a record, for a moment to pass, or for good. Only when the line is empty
do timers get their turn, and only when none of them is due does the clock
move, to the next timer. One waits for a condition or for a time.
-/
namespace JobEngine

open Time (Timestamp)

/-- One who waits for a record outside the pool. -/
inductive Waiter
  | asking
  | emptyHanded
  | parked
  | served (id : JobId)
deriving DecidableEq, Repr

inductive Task
  | taker (t : Taker)
  /-- The delivery that is run by hand. -/
  | runner
deriving DecidableEq, Repr

structure Simulation where
  engine : Engine
  /-- How many identifiers were issued. -/
  issued : Nat := 0
  /-- Who can go on, in order. -/
  ready : List Task := []
  /-- Who goes on at a later time. -/
  asleep : List (Nat × Task) := []
  waiters : List (String × Waiter) := []
  /-- Records that were taken and not given back. -/
  hand : List Record := []
  /-- A delivery run by hand, with its terms. -/
  runner : Option (Terms × Delivery) := none
  letters : DeadLetters
  pool : Option Pool := none
  periodic : Option Periodic := none

namespace Simulation

def clock (s : Simulation) : Nat := s.engine.clock

def now (s : Simulation) : Timestamp := s.engine.now

/-- 2024-01-01T00:00:00Z -/
def dawn : Nat := 1704067200000

/-- The `n`-th issued identifier: a random one by its version and variant bits. -/
def issuedId (n : Nat) : JobId := .ofNat (0xd0000000000040008000000000000000 + n)

def issue (s : Simulation) : JobId × Simulation :=
  (issuedId s.issued, { s with issued := s.issued + 1 })

/-! ## Records in hand -/

def hold (s : Simulation) (record : Record) : Simulation :=
  { s with hand := record :: s.hand.filter (·.id ≠ record.id) }

def held? (s : Simulation) (id : JobId) : Option Record := s.hand.find? (·.id = id)

def release (s : Simulation) (id : JobId) : Simulation :=
  { s with hand := s.hand.filter (·.id ≠ id) }

/-- Looks into the queue once. A ring that was remembered is used up in vain. -/
def dequeue (s : Simulation) : Option Record × Simulation :=
  match s.engine.take? with
  | some (record, engine) => (some record, { s with engine }.hold record)
  | none =>
    (none, { s with
      engine := { s.engine with bell := { s.engine.bell with pending := false } } })

/-! ## Tasks -/

def setWaiter (s : Simulation) (name : String) (w : Waiter) : Simulation :=
  { s with waiters := s.waiters.map fun (n, old) => if n = name then (n, w) else (n, old) }

def isWoken (s : Simulation) (t : Taker) : Bool := s.engine.bell.woken.contains t

def resume (s : Simulation) (t : Taker) : Simulation :=
  { s with engine := { s.engine with bell := s.engine.bell.resume t } }

def leave (s : Simulation) (t : Taker) : Simulation :=
  { s with engine := { s.engine with bell := s.engine.bell.leave t } }

/-- Whom the bell woke stands in line. -/
def admitWoken (s : Simulation) : Simulation :=
  let woken := (s.engine.bell.woken.map Task.taker).filter fun t => !s.ready.contains t
  { s with ready := s.ready ++ woken }

def stepWaiter (s : Simulation) (name : String) (w : Waiter) : Option Simulation :=
  match w with
  | .asking =>
    match s.engine.take? with
    | some (record, engine) =>
      some (({ s with engine }.hold record).setWaiter name (.served record.id))
    | none => some (s.setWaiter name .emptyHanded)
  | .emptyHanded =>
    let (bell, waits) := s.engine.bell.park (.waiter name)
    some ({ s with engine := { s.engine with bell } }.setWaiter name
      (if waits then .parked else .asking))
  | .parked =>
    if s.isWoken (.waiter name) then some ((s.resume (.waiter name)).setWaiter name .asking)
    else none
  | .served _ => none

def setWorker (s : Simulation) (pool : Pool) (index : Nat) (w : Worker) : Simulation :=
  { s with pool := some { pool with workers := pool.workers.set index w } }

def stepWorker (s : Simulation) (pool : Pool) (index : Nat) : Option Simulation :=
  match pool.workers[index]? with
  | none | some .stopped => none
  | some .parked =>
    if pool.closing then some ((s.leave (.worker index)).setWorker pool index .stopped)
    else if s.isWoken (.worker index) then
      some ((s.resume (.worker index)).setWorker pool index .asking)
    else none
  | some .asking =>
    if pool.closing then some (s.setWorker pool index .stopped)
    else
      let (pool, engine) := pool.stepWorker index s.engine
      some { s with pool := some pool, engine }
  | some _ =>
    let (pool, engine) := pool.stepWorker index s.engine
    some { s with pool := some pool, engine }

/-- The next step of a task, unless it waits. -/
def stepTask (s : Simulation) : Task → Option Simulation
  | .taker (.worker index) =>
    match s.pool with
    | some pool => s.stepWorker pool index
    | none => none
  | .taker (.waiter name) =>
    match s.waiters.find? (·.1 = name) with
    | some (_, w) => s.stepWaiter name w
    | none => none
  | .runner =>
    match s.runner with
    | none => none
    | some (terms, d) =>
      if d.result?.isSome then none
      else
        let (d, engine, letters) := d.step terms s.engine s.letters
        some { s with engine, letters, runner := some (terms, d) }

/-- How long the task waits before its next step. -/
def pause (s : Simulation) : Task → Nat
  | .taker (.worker index) =>
    match s.pool.bind (·.workers[index]?) with
    | some w => w.pause
    | none => 0
  | .taker (.waiter _) => 0
  | .runner =>
    match s.runner with
    | some (_, d) => d.pause
    | none => 0

/-- The first task in line takes a step, or leaves the line because it waits. -/
def turn (s : Simulation) : Option Simulation :=
  let s := s.admitWoken
  match s.ready with
  | [] => none
  | t :: rest =>
    let ms := s.pause t
    if 0 < ms then some { s with ready := rest, asleep := s.asleep ++ [(s.clock + ms, t)] }
    else
      match s.stepTask t with
      | some s => some s
      | none => some { s with ready := rest }

/-! ## Timers -/

/-- Delivers the first confirmation that is due, of the pool or outside it. -/
def confirm (s : Simulation) : Option Simulation :=
  match s.letters.takeDue? s.clock with
  | some (c, letters) =>
    some { s with letters, engine := (s.engine.markDeadAt c.id c.diedAt).2 }
  | none =>
    match s.pool with
    | none => none
    | some pool =>
      (pool.letters.takeDue? s.clock).map fun (c, letters) =>
        { s with
          pool := some { pool with letters }
          engine := (s.engine.markDeadAt c.id c.diedAt).2 }

/-- Submits the requests of policies, each under an identifier of its own. -/
def fire (s : Simulation) : List Request → Simulation
  | [] => s
  | request :: rest =>
    let (id, s) := s.issue
    { s with engine := (Client.enqueue request id s.engine).2 }.fire rest

/-- Looks at the periodic policies if it is time to. Timers without a next time are dropped. -/
def look (s : Simulation) : Option Simulation :=
  match s.periodic with
  | none => none
  | some p =>
    match p.nextLook with
    | none => none
    | some time =>
      if time ≤ s.clock then
        let (requests, p) := p.look s.clock fun _ => true
        some ({ s with periodic := some p }.fire requests)
      else none

/-- A sleeper whose time has come takes its step and stands in line. -/
def wake (s : Simulation) : Option Simulation :=
  match s.asleep.find? (·.1 ≤ s.clock) with
  | none => none
  | some (time, t) =>
    let s := { s with asleep := s.asleep.erase (time, t) }
    match s.stepTask t with
    | some s => some { s with ready := s.ready ++ [t] }
    | none => some s

def dropAbandoned (s : Simulation) : Simulation :=
  { s with
    letters := s.letters.dropAbandoned
    pool := s.pool.map fun pool => { pool with letters := pool.letters.dropAbandoned } }

/-- What is due now. -/
def event (s : Simulation) : Option Simulation :=
  s.confirm <|> s.look <|> s.wake

/-- When something is due. -/
def timers (s : Simulation) : List Nat :=
  s.letters.dues ++ s.pool.elim [] (·.letters.dues) ++ (s.periodic.bind (·.nextLook)).toList ++
    s.asleep.map (·.1)

/-- When something is due next. -/
def nextTime? (s : Simulation) : Option Nat := s.timers.min?

def setClock (s : Simulation) (time : Nat) : Simulation :=
  { s with engine := { s.engine with clock := max s.engine.clock time } }

/-! ## Waiting -/

/-- A task goes on, or a timer gets its turn, or the clock moves to the next timer, but not beyond
a time limit; and whether there may be more to come. -/
def round (s : Simulation) (limit : Option Nat) : Simulation × Bool :=
  match s.turn with
  | some s => (s, true)
  | none =>
    let s := s.dropAbandoned
    match s.event with
    | some s => (s, true)
    | none =>
      match s.nextTime?, limit with
      | none, none => (s, false)
      | none, some last => (s.setClock last, false)
      | some time, none => (s.setClock time, true)
      | some time, some last =>
        if last < time then (s.setClock last, false) else (s.setClock time, true)

/-- Goes on until a condition holds or, at the latest, until the time limit has come and nothing
can go on. -/
def goOn (done : Simulation → Bool) (limit : Option Nat) : Nat → Simulation → Simulation
  | 0, s => s
  | fuel + 1, s =>
    if done s then s
    else if (s.round limit).2 then goOn done limit fuel (s.round limit).1
    else (s.round limit).1

/-- Rounds after which a wait is given up even if little was waiting at its start. -/
def patience : Nat := 1000000000

/-- Rounds after which a wait is given up: one for each task in line and two for each timer, which
the clock has to reach, are always left. -/
def allowance (s : Simulation) : Nat := patience + s.ready.length + 2 * s.timers.length

def wait (s : Simulation) (done : Simulation → Bool) (limit : Option Nat) : Simulation :=
  s.goOn done limit s.allowance

/-- Everyone who can goes on; no time passes. -/
def settle (s : Simulation) : Simulation := s.wait (fun _ => false) (some s.clock)

/-- Time passes until a moment has come. -/
def sleepUntil (s : Simulation) (time : Nat) : Simulation :=
  s.wait (fun s => time ≤ s.clock) (some time)

def sleep (s : Simulation) (ms : Nat) : Simulation := s.sleepUntil (s.clock + ms)

end Simulation

end JobEngine
