import JobEngine.Activity

/-!
# Garbage collection

Removes the untagged artifacts of every repository, in the order of names. A
collection is never retried: the next one finds what this one left. The bytes
freed are added up in 64 bits; a sum that does not fit crashes the collection.
-/
namespace JobEngine.Maintenance

open Json (Value DecodeError Shape Slot orElse)

/-- Parameters that do not decode are refused with the wording of the first misfit. -/
def refuse (e : DecodeError) : JobError := .invalidParameters (e.message?.getD "")

namespace Collection

structure Params where
  dryRun : Bool := false
  deleteUntagged : Bool := true
deriving DecidableEq, Repr

def Params.shape : Shape where
  title := "struct GcParams"
  slots := [.of "dry_run" Json.Decode.bool .defaulted,
    .of "delete_untagged" Json.Decode.bool .defaulted]
  closed := true

def Params.decode (parameters : Parameters) : Except DecodeError Params := do
  let fields ← shape.fields (.object parameters)
  return {
    dryRun := ← orElse "dry_run" Json.Decode.bool false fields
    deleteUntagged := ← orElse "delete_untagged" Json.Decode.bool true fields }

structure Report where
  repositories : Nat := 0
  deleted : Nat := 0
  freedBytes : UInt64 := 0
  dryRun : Bool
deriving DecidableEq, Repr

def Report.encode (r : Report) : Value := .object [
  ("repositories", .ofNat r.repositories),
  ("deleted", .ofNat r.deleted),
  ("freed_bytes", .ofNat r.freedBytes.toNat),
  ("dry_run", .bool r.dryRun)]

/-- The crash of an addition whose result does not fit. -/
def overflow : Crash := .message "attempt to add with overflow"

def Report.add (r : Report) (bytes : UInt64) : Report :=
  { r with deleted := r.deleted + 1, freedBytes := r.freedBytes + bytes }

/-- Goes on with one more artifact counted, if its bytes can be added. -/
def Report.countArtifact (r : Report) (bytes : UInt64) (next : Report → Activity) : Activity :=
  if r.freedBytes.toNat + bytes.toNat < UInt64.size then next (r.add bytes)
  else .fault (.crash overflow)

def Report.countRepository (r : Report) : Report :=
  { r with repositories := r.repositories + 1 }

/-- Goes through the artifacts a repository listed. Each is gone before its bytes are added. -/
def sweep (repository : String) (next : Report → Activity) : List Artifact → Report → Activity
  | [], report => next report
  | a :: rest, report =>
    if !a.isUntagged then sweep repository next rest report
    else if report.dryRun then
      .log .info ("would delete " ++ repository ++ "@" ++ a.digest)
        (report.countArtifact a.size (sweep repository next rest))
    else
      .delete repository a.digest fun
        | .error e => .fail e.toJobError
        | .ok bytes =>
          report.countArtifact bytes fun report =>
            .log .info ("deleted " ++ repository ++ "@" ++ a.digest)
              (sweep repository next rest report)

def collect (deleteUntagged : Bool) : List String → Report → Activity
  | [], report => .checkIn report.encode.text .done
  | repository :: rest, report =>
    .checkpoint <|
      let report := report.countRepository
      if deleteUntagged then
        .list repository fun
          | .error e => .fail e.toJobError
          | .ok artifacts => sweep repository (collect deleteUntagged rest) artifacts report
      else collect deleteUntagged rest report

def run (params : Params) : Activity :=
  .repositories fun
    | .error e => .fail e.toJobError
    | .ok names => collect params.deleteUntagged names { dryRun := params.dryRun }

def job : Job where
  jobType := "gc"
  maxFails := 1
  shouldRetry := false
  validate := fun parameters =>
    match Params.decode parameters with
    | .ok _ => .ok ()
    | .error e => .error (.error (refuse e))
  run := fun invocation =>
    match Params.decode invocation.parameters with
    | .ok params => run params
    | .error e => .fail (refuse e)

end Collection

end JobEngine.Maintenance
