import JobEngine.Maintenance.Retention

/-!
# Image scan

Finds an artifact by its digest and reports it. An artifact that is not there
yet may still arrive, so the job is retried within the service's budget.
-/
namespace JobEngine.Maintenance

open Json (Value DecodeError Shape Slot required)

namespace Scan

structure Params where
  digest : String
deriving DecidableEq, Repr

def Params.shape : Shape where
  title := "struct ScanParams"
  slots := [.of "digest" Json.Decode.text]

def Params.decode (parameters : Parameters) : Except DecodeError Params := do
  return ⟨← required "digest" Json.Decode.text (← shape.fields (.object parameters))⟩

def algorithm : String := "sha256:"

/-- The name of the algorithm, then hexadecimal digits, at least one. -/
def checkDigest (digest : String) : Except JobError Unit :=
  let cs := digest.toList
  let mark := algorithm.toList
  if cs.take mark.length ≠ mark then
    .error (.invalidParameters ("digest must start with " ++ algorithm))
  else
    let hex := cs.drop mark.length
    if hex.isEmpty || !hex.all fun c => (Text.hexValue? c).isSome then
      .error (.invalidParameters ("malformed digest: " ++ digest))
    else .ok ()

def report (a : Artifact) : Value := .object [
  ("digest", .string a.digest),
  ("repository", .string a.repository),
  ("tags", .array (a.tags.map .string)),
  ("size", .ofNat a.size.toNat)]

def run (params : Params) : Activity :=
  .checkpoint <|
  .find params.digest fun
    | .error e => .fail e.toJobError
    | .ok none => .fail (.failed ("artifact " ++ params.digest ++ " not found"))
    | .ok (some a) =>
      .log .info ("scanning " ++ a.repository ++ "@" ++ a.digest ++ " (" ++
        toString a.size.toNat ++ " bytes)")
        (.checkIn (report a).text .done)

def job : Job where
  jobType := "image.scan"
  shouldRetry := true
  validate := fun parameters =>
    match Params.decode parameters with
    | .error e => .error (.error (refuse e))
    | .ok params =>
      match checkDigest params.digest with
      | .ok () => .ok ()
      | .error e => .error (.error e)
  run := fun invocation =>
    match Params.decode invocation.parameters with
    | .ok params => run params
    | .error e => .fail (refuse e)

end Scan

/-- The jobs every service knows. -/
def jobs : List Job := [Collection.job, Retention.job, Scan.job]

end JobEngine.Maintenance
