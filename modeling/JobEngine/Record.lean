import JobEngine.Error
import JobEngine.Json.Decode
import JobEngine.Time.Timestamp

/-!
# Jobs as the queue and the tracker see them

A request names a job type and its parameters; the record made from it waits
in the queue and counts its failures; the statistics are what the tracker
knows about the job. Each of them has a JSON form.
-/
namespace JobEngine

open Json (Value Decoder DecodeError Shape Slot required orElse)
open Time (Timestamp)

abbrev Parameters := List (String × Value)

/-! ## Status and commands -/

inductive Status
  | pending
  | running
  | success
  | error
  | stopped
  | cancelled
deriving DecidableEq, Repr, Inhabited

namespace Status

def text : Status → String
  | .pending => "pending"
  | .running => "running"
  | .success => "success"
  | .error => "error"
  | .stopped => "stopped"
  | .cancelled => "cancelled"

/-- No further run follows. A job with an error or a cancelled one may be delivered again. -/
def isTerminal : Status → Bool
  | .success | .stopped => true
  | _ => false

/-- The job waits or runs. -/
def isOpen : Status → Bool
  | .pending | .running => true
  | _ => false

def all : List Status := [.pending, .running, .success, .error, .stopped, .cancelled]

def encode (s : Status) : Value := .string s.text

def decode : Decoder Status := Json.Decode.variant (all.map fun s => (s.text, s))

end Status

/-- What an operator may ask of a job. -/
inductive Command
  | stop
  | cancel
deriving DecidableEq, Repr

namespace Command

def text : Command → String
  | .stop => "stop"
  | .cancel => "cancel"

def all : List Command := [.stop, .cancel]

/-- The command a text names, in any case and with blanks around it; otherwise the reason. -/
def parse (s : String) : Except String Command :=
  let word := Text.lower (Text.trim s)
  match all.find? (·.text = word) with
  | some c => .ok c
  | none => .error ("unknown control command: " ++ word)

def encode (c : Command) : Value := .string c.text

def decode : Decoder Command := Json.Decode.variant (all.map fun c => (c.text, c))

end Command

/-! ## Requests and records -/

structure Request where
  jobType : String
  parameters : Parameters := []
  /-- A retry budget for this submission alone. -/
  maxFails : Option UInt32 := none
deriving DecidableEq, Repr

structure Receipt where
  jobId : JobId
deriving DecidableEq, Repr

structure Record where
  id : JobId
  jobType : String
  parameters : Parameters
  fails : UInt64
  maxFails : Option UInt32
  enqueuedAt : Timestamp
deriving DecidableEq, Repr

/-- The failure count that exhausts every budget at once. -/
def deadLetterFails : UInt64 := 10000000000

namespace Record

def ofRequest (request : Request) (id : JobId) (now : Timestamp) : Record :=
  ⟨id, request.jobType, request.parameters, 0, request.maxFails, now⟩

def isDeadLettered (r : Record) : Bool := deadLetterFails ≤ r.fails

/-- The budget of this record alone, if it has one. -/
def override? (r : Record) : Option UInt32 := r.maxFails.filter (0 < ·)

end Record

/-- One more failure; the count stays at its largest value. -/
def countFailure (fails : UInt64) : UInt64 :=
  if fails.toNat < UInt64.size - 1 then fails + 1 else fails

theorem toNat_countFailure (fails : UInt64) :
    (countFailure fails).toNat = min (fails.toNat + 1) (UInt64.size - 1) := by
  have h := fails.toNat_lt_size
  have one : (fails + 1).toNat = (fails.toNat + 1) % UInt64.size := UInt64.toNat_add fails 1
  unfold countFailure
  split
  · rw [one, Nat.mod_eq_of_lt (by omega)]
    omega
  · omega

/-! ## Statistics -/

structure Stats where
  jobId : JobId
  status : Status
  checkIn : Option String := none
  checkInAt : Option Timestamp := none
  command : Option Command := none
  dieAt : Option Timestamp := none
  updatedAt : Timestamp
deriving DecidableEq, Repr

/-! ## JSON forms -/

def JobId.encode (id : JobId) : Value := .string id.text

def JobId.decode : Decoder JobId
  | .string s => match JobId.parse? s with
    | some id => .ok id
    | none => .error .malformed
  | v => .error (.wrongType v.found "a formatted UUID string")

def encodeTime (t : Timestamp) : Value := .string t.text

def decodeTime : Decoder Timestamp
  | .string s => match Timestamp.parse? s with
    | some t => .ok t
    | none => .error .malformed
  | v => .error (.wrongType v.found "an RFC 3339 formatted date and time string")

namespace Request

def encode (r : Request) : Value := .object [
  ("job_type", .string r.jobType),
  ("max_fails", .ofOption (fun n => .ofNat n.toNat) r.maxFails),
  ("parameters", .object r.parameters)]

def shape : Shape where
  title := "struct JobRequest"
  slots := [
    .of "job_type" Json.Decode.text,
    .of "parameters" Json.Decode.fields .defaulted,
    .of "max_fails" (Json.Decode.optional Json.Decode.word32) .defaulted]

def decode : Decoder Request := fun v => do
  let fields ← shape.fields v
  return {
    jobType := ← required "job_type" Json.Decode.text fields
    parameters := ← orElse "parameters" Json.Decode.fields [] fields
    maxFails := ← orElse "max_fails" (Json.Decode.optional Json.Decode.word32) none fields }

end Request

namespace Receipt

def encode (r : Receipt) : Value := .object [("job_id", r.jobId.encode)]

def shape : Shape where
  title := "struct EnqueueResult"
  slots := [.of "job_id" JobId.decode]

def decode : Decoder Receipt := fun v => do
  return ⟨← required "job_id" JobId.decode (← shape.fields v)⟩

end Receipt

namespace Record

def encode (r : Record) : Value := .object [
  ("enqueued_at", encodeTime r.enqueuedAt),
  ("fails", .ofNat r.fails.toNat),
  ("id", r.id.encode),
  ("job_type", .string r.jobType),
  ("max_fails", .ofOption (fun n => .ofNat n.toNat) r.maxFails),
  ("parameters", .object r.parameters)]

def shape : Shape where
  title := "struct JobRecord"
  slots := [
    .of "id" JobId.decode,
    .of "job_type" Json.Decode.text,
    .of "parameters" Json.Decode.fields,
    .of "fails" Json.Decode.word64,
    .of "max_fails" (Json.Decode.optional Json.Decode.word32) .optional,
    .of "enqueued_at" decodeTime]

def decode : Decoder Record := fun v => do
  let fields ← shape.fields v
  return {
    id := ← required "id" JobId.decode fields
    jobType := ← required "job_type" Json.Decode.text fields
    parameters := ← required "parameters" Json.Decode.fields fields
    fails := ← required "fails" Json.Decode.word64 fields
    maxFails := ← orElse "max_fails" (Json.Decode.optional Json.Decode.word32) none fields
    enqueuedAt := ← required "enqueued_at" decodeTime fields }

end Record

namespace Stats

def encode (s : Stats) : Value := .object [
  ("check_in", .ofOption .string s.checkIn),
  ("check_in_at", .ofOption encodeTime s.checkInAt),
  ("command", .ofOption Command.encode s.command),
  ("die_at", .ofOption encodeTime s.dieAt),
  ("job_id", s.jobId.encode),
  ("status", s.status.encode),
  ("updated_at", encodeTime s.updatedAt)]

def shape : Shape where
  title := "struct JobStats"
  slots := [
    .of "job_id" JobId.decode,
    .of "status" Status.decode,
    .of "check_in" (Json.Decode.optional Json.Decode.text) .optional,
    .of "check_in_at" (Json.Decode.optional decodeTime) .optional,
    .of "command" (Json.Decode.optional Command.decode) .optional,
    .of "die_at" (Json.Decode.optional decodeTime) .optional,
    .of "updated_at" decodeTime]

def decode : Decoder Stats := fun v => do
  let fields ← shape.fields v
  return {
    jobId := ← required "job_id" JobId.decode fields
    status := ← required "status" Status.decode fields
    checkIn := ← orElse "check_in" (Json.Decode.optional Json.Decode.text) none fields
    checkInAt := ← orElse "check_in_at" (Json.Decode.optional decodeTime) none fields
    command := ← orElse "command" (Json.Decode.optional Command.decode) none fields
    dieAt := ← orElse "die_at" (Json.Decode.optional decodeTime) none fields
    updatedAt := ← required "updated_at" decodeTime fields }

end Stats

end JobEngine
