import JobEngine.Client
import JobEngine.Proofs.Thresholds

/-!
# The world and its interleavings

A pool, those who submit and steer from outside, the confirmations that wait
and the clock, all acting on one engine. A move is one atomic step of one of
them; a run is any list of moves. A move that is not possible changes nothing.
What happens to the jobs is written down in a history, which no step reads.
-/
namespace JobEngine

/-- One who submits or steers, between two of its calls. -/
inductive Caller
  /-- Has announced a record and is about to append it. -/
  | appending (record : Record)
  | ringing
  /-- Has found the job unfinished and is about to send the command. -/
  | ordering (id : JobId) (command : Command)
  | done

inductive Event
  | created (record : Record)
  /-- The status Pending was written. -/
  | announced (id : JobId)
  /-- The record was handed to the queue. -/
  | handed (record : Record)
  | taken (record : Record)
  /-- The status Running was written. -/
  | began (id : JobId)
  /-- The final status of a delivery was written. -/
  | ended (id : JobId) (outcome : Outcome)
  /-- The record was marked as one of an unknown type. -/
  | strayed (id : JobId)
  | commanded (id : JobId) (command : Command)
  /-- Retries were disabled and the confirmation was scheduled. -/
  | doomed (c : Confirmation)
  | completed (record : Record)
  | requeued (record : Record)
  | buried (record : Record)
  | confirmed (c : Confirmation)
  | dropped (c : Confirmation)
deriving DecidableEq

namespace Event

/-- The job it is about. -/
def job : Event → JobId
  | created record | handed record | taken record | completed record | requeued record
  | buried record => record.id
  | announced id | began id | ended id _ | strayed id | commanded id _ => id
  | doomed c | confirmed c | dropped c => c.id

def created? : Event → Option Record
  | created record => some record
  | _ => none

/-- The status that was written. -/
def status? : Event → Option Status
  | announced _ => some .pending
  | began _ => some .running
  | ended _ outcome => some outcome.status
  | strayed _ => some .error
  | _ => none

end Event

structure World where
  engine : Engine
  pool : Pool
  callers : List Caller := []
  history : List Event := []

/-! ## What a step tells -/

/-- A command that reaches the tracker. -/
def Engine.commandEvents (e : Engine) (id : JobId) (command : Command) : List Event :=
  match (e.sendCommand id command).1 with
  | .ok () => [.commanded id command]
  | .error _ => []

def Delivery.events (d : Delivery) (terms : Terms) (e : Engine) (letters : DeadLetters) :
    List Event :=
  match d.stage with
  | .fetched => [.began d.record.id]
  | .active _ (.order command _) => e.commandEvents d.record.id command
  | .ended outcome => [.ended d.record.id outcome]
  | .reported outcome =>
    if outcome.deadLetters terms.policy d.job d.record then
      [.doomed ⟨d.record.id, e.now, e.clock + letters.grace⟩]
    else []
  | _ => []

namespace Worker

def settleEvents (record : Record) (result : Except JobError Unit) (q : Queue) : List Event :=
  match result with
  | .ok () => [.completed record]
  | .error e =>
    let counted := { record with fails := countFailure record.fails }
    match (q.fail record e).2 with
    | .requeued => [.requeued counted]
    | .dead => [.buried counted]

def events (w : Worker) (terms : Terms) (e : Engine) (letters : DeadLetters) : List Event :=
  match w with
  | .asking =>
    match e.take? with
    | some (record, _) => [.taken record]
    | none => []
  | .carrying d =>
    match d.result? with
    | some result => settleEvents d.record result e.queue
    | none => d.events terms e letters
  | .stray record => [.strayed record.id]
  | .strayMarked record => [.buried record]
  | _ => []

/-- Until it has decided, a delivery tells for its worker. -/
theorem events_carrying {d : Delivery} (undecided : d.result? = none) (terms : Terms) (e : Engine)
    (letters : DeadLetters) :
    (carrying d).events terms e letters = d.events terms e letters := by
  simp only [events, undecided]

end Worker

namespace Caller

def step (c : Caller) (e : Engine) : Caller × Engine :=
  match c with
  | .appending record => (.ringing, e.append record)
  | .ringing => (.done, e.ring)
  | .ordering id command => (.done, (e.sendCommand id command).2)
  | .done => (.done, e)

def events (c : Caller) (e : Engine) : List Event :=
  match c with
  | .appending record => [.handed record]
  | .ordering id command => e.commandEvents id command
  | _ => []

end Caller

/-! ## Moves -/

inductive Move
  /-- A worker takes its next step. -/
  | work (index : Nat)
  /-- A worker that was woken goes on. -/
  | wake (index : Nat)
  /-- A worker of a closing pool stops. -/
  | retire (index : Nat)
  /-- A client checks a request and announces the record. -/
  | submit (request : Request) (id : JobId)
  /-- A record comes into the queue as it is. -/
  | hand (record : Record)
  /-- A client looks at a job and means to send a command. -/
  | order (id : JobId) (command : Command)
  /-- A caller takes its next step. -/
  | proceed (index : Nat)
  /-- A confirmation that is due is delivered. -/
  | confirm (c : Confirmation)
  | pass (ms : Nat)
  | close
  | abandon
  /-- Confirmations that were abandoned go away. -/
  | drop
  /-- The artifacts change. -/
  | stock (store : ArtifactStore)

namespace World

/-- The jobs there have been. -/
def issued (s : World) : List JobId := (s.history.filterMap Event.created?).map (·.id)

def setWorker (s : World) (index : Nat) (w : Worker) (bell : Bell Taker) : World :=
  { s with
    engine := { s.engine with bell }
    pool := { s.pool with workers := s.pool.workers.set index w } }

/-- A new caller has come. -/
def joined (s : World) (c : Caller) (engine : Engine) (events : List Event) : World :=
  { s with engine, callers := s.callers ++ [c], history := s.history ++ events }

def work (s : World) (index : Nat) : World :=
  match s.pool.workers[index]? with
  | none => s
  | some w =>
    let (pool, engine) := s.pool.stepWorker index s.engine
    { s with
      pool
      engine
      history := s.history ++ w.events s.pool.terms s.engine s.pool.letters }

def wake (s : World) (index : Nat) : World :=
  match s.pool.workers[index]? with
  | some .parked =>
    if .worker index ∈ s.engine.bell.woken then
      s.setWorker index .asking (s.engine.bell.resume (.worker index))
    else s
  | _ => s

def retire (s : World) (index : Nat) : World :=
  if s.pool.closing then
    match s.pool.workers[index]? with
    | some .asking => s.setWorker index .stopped s.engine.bell
    | some .parked => s.setWorker index .stopped (s.engine.bell.leave (.worker index))
    | _ => s
  else s

def submit (s : World) (request : Request) (id : JobId) : World :=
  let record := Record.ofRequest request id s.engine.now
  if id ∈ s.issued then s
  else
    match Client.check s.engine.registry request, s.engine.setStatus id .pending with
    | .ok (), (.ok (), engine) =>
      s.joined (.appending record) engine [.created record, .announced id]
    | _, _ => s

def hand (s : World) (record : Record) : World :=
  if record.id ∈ s.issued then s
  else s.joined .ringing (s.engine.append record) [.created record, .handed record]

def order (s : World) (id : JobId) (command : Command) : World :=
  match Client.checkOpen s.engine id with
  | .ok () => s.joined (.ordering id command) s.engine []
  | .error _ => s

def proceed (s : World) (index : Nat) : World :=
  match s.callers[index]? with
  | none => s
  | some c =>
    let (next, engine) := c.step s.engine
    { s with
      engine
      callers := s.callers.set index next
      history := s.history ++ c.events s.engine }

def confirm (s : World) (c : Confirmation) : World :=
  if c ∈ s.pool.letters.waiting ∧ c.due ≤ s.engine.clock then
    let letters := { s.pool.letters with waiting := s.pool.letters.waiting.erase c }
    { s with
      engine := (s.engine.markDeadAt c.id c.diedAt).2
      pool := { s.pool with letters }
      history := s.history ++ [.confirmed c] }
  else s

def drop (s : World) : World :=
  let letters := s.pool.letters
  { s with
    pool := { s.pool with letters := letters.dropAbandoned }
    history := s.history ++ if letters.abandoned then letters.waiting.map .dropped else [] }

def apply (s : World) : Move → World
  | .work index => s.work index
  | .wake index => s.wake index
  | .retire index => s.retire index
  | .submit request id => s.submit request id
  | .hand record => s.hand record
  | .order id command => s.order id command
  | .proceed index => s.proceed index
  | .confirm c => s.confirm c
  | .pass ms => { s with engine := { s.engine with clock := s.engine.clock + ms } }
  | .close => { s with pool := { s.pool with closing := true } }
  | .abandon => { s with pool := { s.pool with letters := s.pool.letters.abandon } }
  | .drop => s.drop
  | .stock store => { s with engine := { s.engine with store } }

def run (s : World) (moves : List Move) : World := moves.foldl apply s

theorem run_append (s : World) (first second : List Move) :
    s.run (first ++ second) = (s.run first).run second := List.foldl_append

/-- A pool is started over an engine. -/
def launch (settings : PoolSettings) (e : Engine) : Except QueueError World :=
  match Pool.start settings e with
  | .ok (pool, engine) => .ok { engine, pool }
  | .error err => .error err

end World

/-- Nothing was submitted yet, and the tracker answers. -/
structure Engine.Fresh (e : Engine) : Prop where
  pending : e.queue.pending = []
  completed : e.queue.completed = []
  dead : e.queue.dead = []
  untracked : e.tracker.entries = []
  online : e.trackerOutage = []
  built : e.registry.Built

/-- The start of a run. -/
def World.Launched (s : World) : Prop :=
  ∃ settings e, e.Fresh ∧ World.launch settings e = .ok s

end JobEngine
