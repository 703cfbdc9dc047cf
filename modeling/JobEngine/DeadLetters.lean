import JobEngine.Tracker

/-!
# Deferred dead-letter confirmations

When retries of a job were disabled, its death is confirmed to the tracker
only after a grace delay, so that the record has reached the archive by then.
Confirmations that wait may be abandoned all at once, and then none that is
scheduled later is delivered either.
-/
namespace JobEngine

open Time (Timestamp)

structure Confirmation where
  id : JobId
  diedAt : Timestamp
  /-- The time at which it is delivered, in milliseconds. -/
  due : Nat
deriving DecidableEq, Repr

structure DeadLetters where
  grace : Nat
  waiting : List Confirmation := []
  abandoned : Bool := false
deriving DecidableEq, Repr

namespace DeadLetters

def schedule (d : DeadLetters) (id : JobId) (diedAt : Timestamp) (now : Nat) : DeadLetters :=
  { d with waiting := d.waiting ++ [⟨id, diedAt, now + d.grace⟩] }

def pending (d : DeadLetters) : Nat := d.waiting.length

def abandon (d : DeadLetters) : DeadLetters := { d with abandoned := true }

/-- What is abandoned goes away the next time the confirmations get their turn. -/
def dropAbandoned (d : DeadLetters) : DeadLetters :=
  if d.abandoned then { d with waiting := [] } else d

/-- The first confirmation that is due, and the others. -/
def takeDue? (d : DeadLetters) (now : Nat) : Option (Confirmation × DeadLetters) :=
  (d.waiting.find? (·.due ≤ now)).map fun c => (c, { d with waiting := d.waiting.erase c })

/-- When the confirmations are due. -/
def dues (d : DeadLetters) : List Nat := d.waiting.map (·.due)

end DeadLetters

end JobEngine
