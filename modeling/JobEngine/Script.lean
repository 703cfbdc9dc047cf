import JobEngine.Activity

/-!
# Scripted jobs

A job whose runs are written down as lists of actions. Each run takes the next
list, and the last one again and again; a list that comes to its end succeeds.
-/
namespace JobEngine

inductive Action
  | log (level : Level) (message : String)
  | checkIn (message : String)
  | checkpoint
  | sleep (ms : Nat)
  /-- Logs the operator's command. -/
  | showCommand
  /-- Logs the job's type and identifier. -/
  | showSelf
  /-- Logs a parameter as JSON. -/
  | showParameter (name : String)
  /-- Issues a command to the job itself; a refusal ends the run. -/
  | order (command : Command)
  | succeed
  | fault (f : Fault)
  /-- Ends the run with an error of the queue about this job. -/
  | queueError (e : JobId → QueueError)

namespace Action

def commandName : Option Command → String
  | some c => c.text
  | none => "none"

/-- What a list of actions does. -/
def activity (invocation : Invocation) : List Action → Activity
  | [] => .done
  | .log level message :: rest => .log level message (activity invocation rest)
  | .checkIn message :: rest => .checkIn message (activity invocation rest)
  | .checkpoint :: rest => .checkpoint (activity invocation rest)
  | .sleep ms :: rest => .sleep ms (activity invocation rest)
  | .showCommand :: rest =>
    .poll fun c => .log .info ("command " ++ commandName c) (activity invocation rest)
  | .showSelf :: rest =>
    .log .info (invocation.jobType ++ " " ++ invocation.id.text) (activity invocation rest)
  | .showParameter name :: rest =>
    .log .info ((Json.field? name invocation.parameters).getD .null).text
      (activity invocation rest)
  | .order command :: rest =>
    .order command fun
      | .ok () => activity invocation rest
      | .error e => .fail (.ofQueueError e)
  | .succeed :: _ => .done
  | .fault f :: _ => .fault f
  | .queueError e :: _ => .fail (.ofQueueError (e invocation.id))

end Action

/-- How a scripted job checks its parameters. -/
inductive ScriptCheck
  | accept
  | require (name : String)
  | fault (f : Fault)
deriving DecidableEq, Repr

def ScriptCheck.run (c : ScriptCheck) (parameters : Parameters) : Except Fault Unit :=
  match c with
  | .accept => .ok ()
  | .require name =>
    match Json.field? name parameters with
    | some _ => .ok ()
    | none => .error (.error (.invalidParameters ("missing '" ++ name ++ "'")))
  | .fault f => .error f

structure Script where
  jobType : String
  maxFails : UInt32 := 0
  shouldRetry : Bool := true
  check : ScriptCheck := .accept
  runs : List (List Action) := []

namespace Script

/-- The actions of the run that follows `earlier` others. -/
def actions (script : Script) (earlier : Nat) : List Action :=
  (script.runs[min earlier (script.runs.length - 1)]?).getD []

def job (script : Script) : Job where
  jobType := script.jobType
  maxFails := script.maxFails
  shouldRetry := script.shouldRetry
  validate := script.check.run
  run := fun invocation => Action.activity invocation (script.actions invocation.earlierRuns)

end Script

end JobEngine
