import JobEngine.Record

/-!
# Artifacts and the store that holds them

Each repository lists its artifacts in the order of their latest insertion. A
repository stays once it was named. The store answers from its content alone;
`Outage` describes calls that are refused for other reasons.
-/
namespace JobEngine

open Json (Value Decoder Shape Slot required orElse)
open Time (Timestamp)

structure Artifact where
  repository : String
  digest : String
  tags : List String := []
  pushedAt : Timestamp
  size : UInt64
deriving DecidableEq, Repr

namespace Artifact

def isUntagged (a : Artifact) : Bool := a.tags.isEmpty

/-- The first tag names the artifact, else its digest. -/
def name (repository : String) (a : Artifact) : String :=
  match a.tags with
  | tag :: _ => repository ++ ":" ++ tag
  | [] => repository ++ "@" ++ a.digest

def encode (a : Artifact) : Value := .object [
  ("digest", .string a.digest),
  ("pushed_at", encodeTime a.pushedAt),
  ("repository", .string a.repository),
  ("size", .ofNat a.size.toNat),
  ("tags", .array (a.tags.map .string))]

def shape : Shape where
  title := "struct Artifact"
  slots := [
    .of "repository" Json.Decode.text,
    .of "digest" Json.Decode.text,
    .of "tags" (Json.Decode.listOf Json.Decode.text) .defaulted,
    .of "pushed_at" decodeTime,
    .of "size" Json.Decode.word64]

def decode : Decoder Artifact := fun v => do
  let fields ← shape.fields v
  return {
    repository := ← required "repository" Json.Decode.text fields
    digest := ← required "digest" Json.Decode.text fields
    tags := ← orElse "tags" (Json.Decode.listOf Json.Decode.text) [] fields
    pushedAt := ← required "pushed_at" decodeTime fields
    size := ← required "size" Json.Decode.word64 fields }

end Artifact

inductive StoreError
  | repositoryNotFound (name : String)
  | artifactNotFound (digest : String)
deriving DecidableEq, Repr

namespace StoreError

def message : StoreError → String
  | .repositoryNotFound name => "repository not found: " ++ name
  | .artifactNotFound digest => "artifact not found: " ++ digest

/-- A store error that ends a run is an ordinary failure. -/
def toJobError (e : StoreError) : JobError := .failed e.message

end StoreError

/-- The artifacts of each repository, sorted by the repository's name. -/
structure ArtifactStore where
  repositories : List (String × List Artifact) := []
deriving DecidableEq, Repr

namespace ArtifactStore

def artifacts? (store : ArtifactStore) (repository : String) : Option (List Artifact) :=
  (store.repositories.find? (·.1 = repository)).map (·.2)

/-- Replaces the artifacts of a repository, which is added at its place if it is new. -/
def setArtifacts (repository : String) (artifacts : List Artifact) :
    List (String × List Artifact) → List (String × List Artifact)
  | [] => [(repository, artifacts)]
  | (name, old) :: rest =>
    if repository = name then (name, artifacts) :: rest
    else if repository < name then (repository, artifacts) :: (name, old) :: rest
    else (name, old) :: setArtifacts repository artifacts rest

/-- An artifact with the same digest in the same repository is replaced and moves to the end. -/
def insert (store : ArtifactStore) (a : Artifact) : ArtifactStore :=
  let others := ((store.artifacts? a.repository).getD []).filter (·.digest ≠ a.digest)
  ⟨setArtifacts a.repository (others ++ [a]) store.repositories⟩

def names (store : ArtifactStore) : List String := store.repositories.map (·.1)

def list (store : ArtifactStore) (repository : String) : Except StoreError (List Artifact) :=
  match store.artifacts? repository with
  | some artifacts => .ok artifacts
  | none => .error (.repositoryNotFound repository)

/-- The artifact with a digest, from the first repository in name order that has one. -/
def find? (store : ArtifactStore) (digest : String) : Option Artifact :=
  (store.repositories.flatMap (·.2)).find? (·.digest = digest)

/-- Removes an artifact and answers its size. -/
def delete (store : ArtifactStore) (repository digest : String) :
    Except StoreError (UInt64 × ArtifactStore) :=
  match store.artifacts? repository with
  | none => .error (.repositoryNotFound repository)
  | some artifacts =>
    match artifacts.find? (·.digest = digest) with
    | none => .error (.artifactNotFound digest)
    | some a =>
      .ok (a.size,
        ⟨setArtifacts repository (artifacts.eraseP (·.digest = digest)) store.repositories⟩)

def size (store : ArtifactStore) : Nat :=
  store.repositories.foldr (fun repository total => repository.2.length + total) 0

end ArtifactStore

end JobEngine
