import JobEngine.Retry

/-!
# The work queue

Records wait in the order in which they were appended. A record that failed is
appended again until its failures reach a threshold; then it goes to the
archive of dead records. Both archives are bounded and forget their oldest
records. Beside the archive of the dead stands an index of their identifiers.
-/
namespace JobEngine

/-- Completed records kept. -/
def completedLimit : Nat := 1000

/-- Dead records kept. -/
def deadLimit : Nat := 1000

structure DeadRecord where
  record : Record
  lastError : Option String
deriving DecidableEq, Repr

inductive Disposition
  | requeued
  | dead
deriving DecidableEq, Repr

structure QueueCounts where
  pending : Nat
  completed : Nat
  dead : Nat
deriving DecidableEq, Repr

structure Queue where
  pending : List Record := []
  /-- Oldest first. -/
  completed : List Record := []
  /-- Oldest first. -/
  dead : List DeadRecord := []
  deadIds : List JobId := []
  /-- The budgets that were set for job types, the latest first. -/
  thresholds : List (String × UInt32) := []
deriving DecidableEq, Repr

namespace Queue

def setThreshold (q : Queue) (jobType : String) (maxFails : UInt32) : Queue :=
  { q with thresholds := (jobType, maxFails) :: q.thresholds.filter (·.1 ≠ jobType) }

def typeThreshold (q : Queue) (jobType : String) : UInt32 :=
  ((q.thresholds.find? (·.1 = jobType)).map (·.2)).getD defaultMaxFails

/-- The number of failures at which the record dies. -/
def threshold (q : Queue) (record : Record) : UInt32 :=
  record.override?.getD (q.typeThreshold record.jobType)

/-- The newest `limit` items. -/
def newest {α : Type} (limit : Nat) (items : List α) : List α :=
  items.drop (items.length - limit)

def append (q : Queue) (record : Record) : Queue :=
  { q with pending := q.pending ++ [record] }

/-- Appends many records at once. -/
def appendAll (q : Queue) (records : List Record) : Queue :=
  { q with pending := q.pending ++ records }

def take? (q : Queue) : Option (Record × Queue) :=
  match q.pending with
  | [] => none
  | record :: rest => some (record, { q with pending := rest })

def complete (q : Queue) (record : Record) : Queue :=
  { q with completed := newest completedLimit (q.completed ++ [record]) }

/-- Adds a dead record and its identifier; the records that are forgotten take their identifiers
out of the index. -/
def bury (q : Queue) (record : Record) (lastError : Option String) : Queue :=
  let dead := q.dead ++ [⟨record, lastError⟩]
  let forgotten := dead.take (dead.length - deadLimit)
  let ids := if record.id ∈ q.deadIds then q.deadIds else record.id :: q.deadIds
  { q with
    dead := newest deadLimit dead
    deadIds := ids.filter fun id => !forgotten.any (·.record.id = id) }

/-- Counts a failure, then appends the record again or lets it die. -/
def fail (q : Queue) (record : Record) (e : JobError) : Queue × Disposition :=
  let record := { record with fails := countFailure record.fails }
  if (q.threshold record).toNat ≤ record.fails.toNat then (q.bury record (some e.message), .dead)
  else (q.append record, .requeued)

def isDead (q : Queue) (id : JobId) : Bool := id ∈ q.deadIds

def counts (q : Queue) : QueueCounts := ⟨q.pending.length, q.completed.length, q.dead.length⟩

end Queue

end JobEngine
