import JobEngine.Maintenance.Collection

/-!
# Retention sweep

Keeps the most recently pushed artifacts of one repository and removes the
others. Artifacts pushed at the same time keep the order in which they are
stored. A removal that fails is noted and the sweep goes on.
-/
namespace JobEngine.Maintenance.Retention

open Json (Value DecodeError Shape Slot required orElse)

structure Params where
  repository : String
  retain : UInt64
  dryRun : Bool := false
deriving DecidableEq, Repr

def Params.shape : Shape where
  title := "struct RetentionParams"
  slots := [.of "repository" Json.Decode.text, .of "retain" Json.Decode.size,
    .of "dry_run" Json.Decode.bool .defaulted]
  closed := true

def Params.decode (parameters : Parameters) : Except DecodeError Params := do
  let fields ← shape.fields (.object parameters)
  return {
    repository := ← required "repository" Json.Decode.text fields
    retain := ← required "retain" Json.Decode.size fields
    dryRun := ← orElse "dry_run" Json.Decode.bool false fields }

/-- What was decided for one artifact. -/
structure Decision where
  digest : String
  tags : List String
  retained : Bool
  error : Option String
deriving DecidableEq, Repr

def Decision.encode (d : Decision) : Value := .object <|
  [("digest", .string d.digest), ("tags", .array (d.tags.map .string)),
    ("retained", .bool d.retained)] ++
  match d.error with
  | some e => [("error", .string e)]
  | none => []

/-- Latest first; the sort is stable. -/
def ranked (artifacts : List Artifact) : List Artifact :=
  artifacts.mergeSort fun a b => !a.pushedAt.before b.pushedAt

def verdict (retained : Bool) : String := if retained then "retained" else "removed"

/-- Decides on the candidates from one rank on, with the decisions taken before. -/
def decide (params : Params) : List Artifact → Nat → List Decision → Activity
  | [], _, decisions =>
    .checkIn (Value.array (decisions.reverse.map Decision.encode)).text .done
  | a :: rest, rank, decisions =>
    .checkpoint <|
      let retained := rank < params.retain.toNat
      let name := a.name params.repository
      let settle (error : Option String) : Activity :=
        .log .info (name ++ " " ++ verdict retained)
          (decide params rest (rank + 1) (⟨a.digest, a.tags, retained, error⟩ :: decisions))
      if !retained && !params.dryRun then
        .delete params.repository a.digest fun
          | .ok _ => settle none
          | .error e =>
            .log .error ("failed to remove " ++ name ++ ": " ++ e.message) (settle e.message)
      else settle none

def run (params : Params) : Activity :=
  .log .info ("retention sweep of " ++ params.repository ++ " keeping " ++
    toString params.retain.toNat ++ " most recent") <|
  .checkpoint <|
  .list params.repository fun
    | .error e => .fail e.toJobError
    | .ok artifacts =>
      .log .info ("loaded " ++ toString artifacts.length ++ " candidates from " ++
        params.repository)
        (decide params (ranked artifacts) 0 [])

def job : Job where
  jobType := "retention.sweep"
  maxFails := 3
  shouldRetry := true
  validate := fun parameters =>
    match Params.decode parameters with
    | .error e => .error (.error (refuse e))
    | .ok params =>
      if (Text.trim params.repository).isEmpty then
        .error (.error (.invalidParameters "repository must not be empty"))
      else .ok ()
  run := fun invocation =>
    match Params.decode invocation.parameters with
    | .ok params => run params
    | .error e => .fail (refuse e)

end JobEngine.Maintenance.Retention
