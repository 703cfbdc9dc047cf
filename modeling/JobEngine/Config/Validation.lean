import JobEngine.Config.Settings
import JobEngine.Files

/-!
# What settings must satisfy

The first rule that fails is reported.
-/
namespace JobEngine.Config

def levels : List String := ["trace", "debug", "info", "warn", "error"]

def Settings.check (files : Files) (s : Settings) : Except ConfigError Unit :=
  if s.workers = 0 then .error (.invalid "worker_pool.workers must be > 0")
  else if s.defaultMaxFails = 0 then .error (.invalid "retry.default_max_fails must be > 0")
  else if Text.lower s.level ∉ levels then
    .error (.invalid ("invalid logging.level: " ++ s.level ++ " (expected one of " ++
      String.intercalate ", " levels ++ ")"))
  else
    match s.logDirectory with
    | none => .ok ()
    | some path =>
      if files.isFile path then .error (.invalid ("logging.job_log_dir is a file: " ++ path))
      else .ok ()

end JobEngine.Config
