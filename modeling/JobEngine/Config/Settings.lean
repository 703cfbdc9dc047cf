import JobEngine.Json.Value

/-!
# Settings

The seven settings of a service with their defaults, and a document that gives
some of them, in three sections. A setting that a document leaves out keeps
its value.
-/
namespace JobEngine.Config

open Json (Value)

structure Settings where
  workers : UInt64 := 10
  /-- Deliver the confirmations that wait before the service ends. -/
  drain : Bool := true
  defaultMaxFails : UInt32 := 4
  /-- The delay of a dead-letter confirmation in milliseconds. -/
  grace : UInt64 := 2000
  level : String := "info"
  json : Bool := false
  /-- Where each delivery writes a log of its own. -/
  logDirectory : Option String := none
deriving DecidableEq, Repr

structure PoolSection where
  workers : Option UInt64 := none
  drain : Option Bool := none
deriving DecidableEq, Repr

structure RetrySection where
  defaultMaxFails : Option UInt32 := none
  grace : Option UInt64 := none
deriving DecidableEq, Repr

structure LoggingSection where
  level : Option String := none
  json : Option Bool := none
  logDirectory : Option String := none
deriving DecidableEq, Repr

structure Document where
  pool : Option PoolSection := none
  retry : Option RetrySection := none
  logging : Option LoggingSection := none
deriving DecidableEq, Repr

namespace Settings

/-- The settings with what a document gives put over them. -/
def apply (s : Settings) (d : Document) : Settings where
  workers := (d.pool.bind (·.workers)).getD s.workers
  drain := (d.pool.bind (·.drain)).getD s.drain
  defaultMaxFails := (d.retry.bind (·.defaultMaxFails)).getD s.defaultMaxFails
  grace := (d.retry.bind (·.grace)).getD s.grace
  level := (d.logging.bind (·.level)).getD s.level
  json := (d.logging.bind (·.json)).getD s.json
  logDirectory := (d.logging.bind (·.logDirectory)).or s.logDirectory

def encode (s : Settings) : Value := .object [
  ("logging", .object [
    ("job_log_dir", .ofOption .string s.logDirectory),
    ("json", .bool s.json),
    ("level", .string s.level)]),
  ("retry", .object [
    ("dead_letter_grace_ms", .ofNat s.grace.toNat),
    ("default_max_fails", .ofNat s.defaultMaxFails.toNat)]),
  ("worker_pool", .object [
    ("shutdown_drain_dead_letters", .bool s.drain),
    ("workers", .ofNat s.workers.toNat)])]

end Settings

inductive ConfigError
  | io
  /-- The text does not give a configuration. -/
  | unreadable
  /-- No format reads the text. -/
  | unknownFormat
  | badVariable (name reason : String)
  | invalid (reason : String)
deriving DecidableEq, Repr

/-- The wording, where it is the library's own. -/
def ConfigError.message? : ConfigError → Option String
  | .io | .unreadable => none
  | .unknownFormat => some "Parse error: failed to parse config as any supported format"
  | .badVariable name reason => some ("Parse error: invalid " ++ name ++ reason)
  | .invalid reason => some ("Validation error: " ++ reason)

end JobEngine.Config
