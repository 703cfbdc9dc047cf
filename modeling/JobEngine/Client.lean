import JobEngine.Engine

/-!
# Submitting and steering jobs

The client checks a request against the registry before it hands a record to
the queue, and passes an operator's command on to a job that is not finished.
It also serves job logs; an identifier that comes as text is read as an
identifier and nothing else, so it can not name another file.
-/
namespace JobEngine

/-- Why a check did not accept a request. A refusal is an answer to the caller. A crash of the
job's own check is not; it ends the caller, and whoever called that. -/
inductive CheckFault
  | refused (e : QueueError)
  | crashed (c : Crash)
deriving DecidableEq, Repr

def CheckFault.text : CheckFault → String
  | .refused e => e.message
  | .crashed c => (JobError.ofCrash c).message

namespace Client

/-- The type is registered and the job accepts the parameters. -/
def check (registry : Registry) (request : Request) : Except CheckFault Unit :=
  match registry.find? request.jobType with
  | none => .error (.refused (.notRegistered request.jobType))
  | some job =>
    match job.validate request.parameters with
    | .ok () => .ok ()
    | .error (.error e) => .error (.refused (.invalidParameters e.message))
    | .error (.crash c) => .error (.crashed c)

/-- Announces a checked record to the tracker, then appends it and rings. -/
def submit (record : Record) (e : Engine) : Except QueueError Unit × Engine :=
  match e.setStatus record.id .pending with
  | (.error err, e) => (.error err, e)
  | (.ok (), e) => (.ok (), e.push record)

/-- Submits a request under a fresh identifier. -/
def enqueue (request : Request) (id : JobId) (e : Engine) : Except CheckFault Unit × Engine :=
  match check e.registry request with
  | .error f => (.error f, e)
  | .ok () =>
    match submit (.ofRequest request id e.now) e with
    | (.ok (), e) => (.ok (), e)
    | (.error err, e) => (.error (.refused err), e)

def stats (e : Engine) (id : JobId) : Except QueueError Stats :=
  match e.stats? id with
  | .error err => .error err
  | .ok none => .error (.notFound id)
  | .ok (some s) => .ok s

def finished (s : Stats) : QueueError :=
  .backend ("job " ++ s.jobId.text ++ " already finished with status " ++ s.status.text)

/-- Whether a command may be sent to the job. -/
def checkOpen (e : Engine) (id : JobId) : Except QueueError Unit :=
  match stats e id with
  | .error err => .error err
  | .ok s => if s.status.isTerminal then .error (finished s) else .ok ()

/-- Looks the job up, then sends the command; the job may go on in between. -/
def send (id : JobId) (command : Command) (e : Engine) : Except QueueError Unit × Engine :=
  match checkOpen e id with
  | .error err => (.error err, e)
  | .ok () => e.sendCommand id command

/-- Whether a text could be read as a path. -/
def looksLikePath (text : String) : Bool :=
  let cs := text.toList
  cs.any (fun c => c = '/' || c = '\\') ||
    (cs.zip cs.tail).any fun (a, b) => a = '.' && b = '.'

/-- The log of the job that a text identifies. -/
def jobLog (directory : Option String) (files : Files) (text : String) :
    Except QueueError String :=
  if looksLikePath text then .error (.invalidJobId text)
  else
    match JobId.parse? text with
    | none => .error (.invalidJobId text)
    | some id =>
      match directory with
      | none => .error (.backend "job logs are not written to files")
      | some directory =>
        match files.read (LogBook.logPath directory id) with
        | .ok content => .ok content
        | .error .notFound => .error (.logNotFound id)
        | .error err => .error (.io err.message)

end Client

end JobEngine
