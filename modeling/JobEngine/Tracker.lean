import JobEngine.Record

/-!
# The status tracker

One entry per job; the job that was first seen last stands in front. A status
creates the entry of a job that is not known; every other write asks for an
entry that is there. When there are too many entries, a new one pushes out the
oldest ones that are settled; a job that may still be written to stays.
-/
namespace JobEngine

open Time (Timestamp)

/-- Entries kept when enough of them are settled. -/
def trackedLimit : Nat := 10000

/-- Nothing will be written to the entry any more but by an operator. -/
def Stats.isSettled (s : Stats) : Bool :=
  match s.status with
  | .success | .stopped => true
  | .error | .cancelled => s.dieAt.isSome
  | .pending | .running => false

structure Tracker where
  /-- The latest first. -/
  entries : List Stats := []
deriving DecidableEq, Repr

namespace Tracker

def find? (t : Tracker) (id : JobId) : Option Stats := t.entries.find? (·.jobId = id)

/-- Drops the first settled entries, at most `surplus` of them. -/
def dropSettled : Nat → List Stats → List Stats
  | 0, entries => entries
  | _, [] => []
  | surplus + 1, s :: rest =>
    if s.isSettled then dropSettled surplus rest else s :: dropSettled (surplus + 1) rest

/-- Without the oldest settled entries, as far as there are too many. -/
def evict (entries : List Stats) : List Stats :=
  if trackedLimit < entries.length then
    (dropSettled (entries.length - trackedLimit) entries.reverse).reverse
  else entries

/-- Changes the entry of a job. -/
def alter (f : Stats → Stats) (id : JobId) : List Stats → List Stats
  | [] => []
  | s :: rest => if s.jobId = id then f s :: rest else s :: alter f id rest

/-- The entry of the job is there, as a pending one if it is new. -/
def enroll (t : Tracker) (id : JobId) (now : Timestamp) : Tracker :=
  match t.find? id with
  | some _ => t
  | none => ⟨evict ({ jobId := id, status := .pending, updatedAt := now } :: t.entries)⟩

/-- A run that ended has used or outlived its command. -/
def setStatus (t : Tracker) (id : JobId) (status : Status) (now : Timestamp) : Tracker :=
  ⟨alter (fun s => { s with
      status := status
      updatedAt := now
      command := if status.isOpen then s.command else none }) id (t.enroll id now).entries⟩

def command? (t : Tracker) (id : JobId) : Option Command := (t.find? id).bind (·.command)

/-- Changes an entry that must be there. -/
def update (t : Tracker) (id : JobId) (f : Stats → Stats) : Except QueueError Tracker :=
  match t.find? id with
  | some _ => .ok ⟨alter f id t.entries⟩
  | none => .error (.notFound id)

def checkIn (t : Tracker) (id : JobId) (message : String) (now : Timestamp) :
    Except QueueError Tracker :=
  t.update id fun s =>
    { s with checkIn := some message, checkInAt := some now, updatedAt := now }

/-- The job reached the dead-letter state at `at`. -/
def markDeadAt (t : Tracker) (id : JobId) (diedAt now : Timestamp) : Except QueueError Tracker :=
  t.update id fun s => { s with dieAt := some diedAt, updatedAt := now }

def sendCommand (t : Tracker) (id : JobId) (command : Command) (now : Timestamp) :
    Except QueueError Tracker :=
  t.update id fun s => { s with command := some command, updatedAt := now }

def size (t : Tracker) : Nat := t.entries.length

end Tracker

end JobEngine
