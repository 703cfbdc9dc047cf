import JobEngine.Json.Reader
import JobEngine.Record

/-!
# Submissions

A submission is written as a job type, with the parameters after an equals
sign as a JSON object. A periodic one has a cron expression after an at sign.
The type ends at the first equals sign and the cron expression begins after
the last at sign, so the parameters may hold both.
-/
namespace JobEngine

structure Submission where
  jobType : String
  parameters : Parameters := []
deriving DecidableEq, Repr

structure PeriodicSubmission where
  cron : String
  submission : Submission
deriving DecidableEq, Repr

/-- Why a text is no submission. -/
inductive SubmissionFault
  | emptyJobType
  | badParameters
  | parametersNoObject
  | noCron
  | emptyCron
deriving DecidableEq, Repr

namespace SubmissionFault

def message : SubmissionFault → String
  | .emptyJobType => "job type must not be empty"
  | .badParameters => "invalid job parameters"
  | .parametersNoObject => "job parameters must be a JSON object"
  | .noCron => "expected TYPE[=JSON]@CRON"
  | .emptyCron => "cron expression must not be empty"

end SubmissionFault

namespace Submission

def toRequest (s : Submission) : Request where
  jobType := s.jobType
  parameters := s.parameters

def readParameters (text : String) : Except SubmissionFault Parameters :=
  match Json.Value.read? text with
  | some (.object fields) => .ok fields
  | some _ => .error .parametersNoObject
  | none => .error .badParameters

/-- A submission of a type, whose parameters, if it has any, are still text. -/
def ofParts (jobType : String) (parameters : Option String) :
    Except SubmissionFault Submission :=
  let jobType := Text.trim jobType
  if jobType.isEmpty then .error .emptyJobType
  else
    match parameters with
    | none => .ok { jobType }
    | some text => (readParameters text).map fun parameters => { jobType, parameters }

def parse (s : String) : Except SubmissionFault Submission :=
  match Text.splitFirst '=' s.toList with
  | some (jobType, text) => ofParts (String.ofList jobType) (some (String.ofList text))
  | none => ofParts s none

end Submission

namespace PeriodicSubmission

def parse (s : String) : Except SubmissionFault PeriodicSubmission :=
  match Text.splitLast '@' s.toList with
  | none => .error .noCron
  | some (submission, cron) =>
    let cron := Text.trim (String.ofList cron)
    if cron.isEmpty then .error .emptyCron
    else
      (Submission.parse (String.ofList submission)).map fun submission => { cron, submission }

end PeriodicSubmission

end JobEngine
