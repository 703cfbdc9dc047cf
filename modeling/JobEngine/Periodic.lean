import JobEngine.Client
import JobEngine.Time.Cron

/-!
# Periodic policies

A policy asks for a job again and again at the times of a cron expression. The
list of policies answers what was asked for; a table of timers, which may
refuse a change, holds what fires. Running timers are looked at every half
second; one that is due fires once, and its next time is the first match
strictly after that look. A timer that has no next time will not fire any more,
and the table may drop it.
-/
namespace JobEngine

open Time (Cron)

structure Policy where
  id : JobId
  jobType : String
  cron : String
  parameters : Parameters
deriving DecidableEq, Repr

structure Timer where
  id : JobId
  request : Request
  schedule : Cron
  /-- The second at which it fires next. -/
  next : Option Int
deriving DecidableEq, Repr

structure Periodic where
  policies : List Policy := []
  timers : List Timer := []
  /-- The time of the next look, once started, in milliseconds. -/
  nextLook : Option Nat := none
deriving DecidableEq, Repr

namespace Periodic

/-- Milliseconds between two looks. -/
def period : Nat := 500

def badCron (cron : String) : QueueError :=
  .scheduler ("invalid cron expression '" ++ cron ++ "': ParseSchedule")

/-- The first match after a time in milliseconds. -/
def nextAfter (schedule : Cron) (now : Nat) : Option Int := schedule.nextAfter? (now / 1000 : Nat)

def start (p : Periodic) (now : Nat) : Except QueueError Periodic :=
  match p.nextLook with
  | some _ => .error (.scheduler "StartScheduler")
  | none => .ok { p with nextLook := some (now + period) }

/-- Adds a policy whose requests would be accepted. `answer` is what the table of timers says to
the addition. -/
def schedule (registry : Registry) (request : Request) (cron : String) (id : JobId) (now : Nat)
    (answer : Except String Unit) (p : Periodic) : Except CheckFault Periodic :=
  match Client.check registry request with
  | .error f => .error f
  | .ok () =>
    match Cron.parse? cron with
    | none => .error (.refused (badCron cron))
    | some pattern =>
      match answer with
      | .error reason => .error (.refused (.scheduler reason))
      | .ok () => .ok { p with
          policies := p.policies ++ [⟨id, request.jobType, cron, request.parameters⟩]
          timers := p.timers ++ [⟨id, request, pattern, nextAfter pattern now⟩] }

/-- Removes a policy, then its timer. `answer` is what the table of timers says to the removal. -/
def unschedule (id : JobId) (answer : Except String Unit) (p : Periodic) :
    Except QueueError Unit × Periodic :=
  if p.policies.all (·.id ≠ id) then (.error (.policyNotFound id), p)
  else
    let p := { p with policies := p.policies.filter (·.id ≠ id) }
    match answer with
    | .error reason => (.error (.scheduler reason), p)
    | .ok () => (.ok (), { p with timers := p.timers.filter (·.id ≠ id) })

def policy? (p : Periodic) (id : JobId) : Option Policy := p.policies.find? (·.id = id)

/-- By job type, then by identifier. -/
def sortedPolicies (p : Periodic) : List Policy :=
  p.policies.mergeSort fun a b =>
    a.jobType < b.jobType ||
      (a.jobType = b.jobType && a.id.value.toNat ≤ b.id.value.toNat)

def Timer.isDue (t : Timer) (now : Nat) : Bool :=
  match t.next with
  | some second => second * 1000 ≤ now
  | none => false

/-- A look at the timers: the requests that are due, and the timers set to their next times. Of
those that have none, `drops` says which the table of timers lets go. -/
def look (p : Periodic) (now : Nat) (drops : Timer → Bool) : List Request × Periodic :=
  ((p.timers.filter (Timer.isDue · now)).map (·.request),
    { p with
      timers := (p.timers.filter fun t => t.next.isSome || !drops t).map fun t =>
        if Timer.isDue t now then { t with next := nextAfter t.schedule now } else t
      nextLook := p.nextLook.map (· + period) })

end Periodic

end JobEngine
