import JobEngine.Config.Settings

/-!
# Reading a configuration document

The document has the same sections in every format; what a format calls
absent, a number, a flag, a text or a record is its dialect. Fields that are
not known are not looked at.
-/
namespace JobEngine.Config

/-- How a format reads the values of a document. -/
structure Dialect (α : Type) where
  /-- Whether the value stands for a missing one; none if it is malformed as such. -/
  absent? : α → Option Bool
  whole? : Nat → α → Option Nat
  flag? : α → Option Bool
  text? : α → Option String
  /-- The values of a record whose fields have the given names. -/
  record? : List String → α → Option (List (String × α))

namespace Dialect

variable {α : Type} (d : Dialect α)

/-- A field that may be missing: none if its value does not fit. -/
def field {β : Type} (read : α → Option β) (name : String) (fields : List (String × α)) :
    Option (Option β) :=
  match fields.find? (·.1 = name) with
  | none => some none
  | some (_, v) => do
    if ← d.absent? v then return none
    else return some (← read v)

def pool? (v : α) : Option PoolSection := do
  let fields ← d.record? ["workers", "shutdown_drain_dead_letters"] v
  return {
    workers := (← d.field (d.whole? (UInt64.size - 1)) "workers" fields).map .ofNat
    drain := ← d.field d.flag? "shutdown_drain_dead_letters" fields }

def retry? (v : α) : Option RetrySection := do
  let fields ← d.record? ["default_max_fails", "dead_letter_grace_ms"] v
  return {
    defaultMaxFails := (← d.field (d.whole? (UInt32.size - 1)) "default_max_fails" fields).map .ofNat
    grace := (← d.field (d.whole? (UInt64.size - 1)) "dead_letter_grace_ms" fields).map .ofNat }

def logging? (v : α) : Option LoggingSection := do
  let fields ← d.record? ["level", "json", "job_log_dir"] v
  return {
    level := ← d.field d.text? "level" fields
    json := ← d.field d.flag? "json" fields
    logDirectory := ← d.field d.text? "job_log_dir" fields }

def document? (v : α) : Option Document := do
  let fields ← d.record? ["worker_pool", "retry", "logging"] v
  return {
    pool := ← d.field d.pool? "worker_pool" fields
    retry := ← d.field d.retry? "retry" fields
    logging := ← d.field d.logging? "logging" fields }

end Dialect

/-- The entries with one of the given names, unless a name comes twice. -/
def knownOnce? {α : Type} (names : List String) (entries : List (String × α)) :
    Option (List (String × α)) :=
  let known := entries.filter fun entry => names.contains entry.1
  if (known.map (·.1)).Nodup then some known else none

end JobEngine.Config
