import JobEngine.Config.Detection
import JobEngine.Config.Environment

/-!
# The settings a service starts with

Defaults, then a document if there is one, then the environment.
-/
namespace JobEngine.Config

def Settings.load (files : Files) (path : Option String) (env : Environment) :
    Except ConfigError Settings :=
  let document : Except ConfigError Document :=
    match path with
    | none => .ok {}
    | some path => Document.load files path
  match document with
  | .error e => .error e
  | .ok d =>
    match ((Settings.apply {} d).override env Variable.all) with
    | (s, .ok ()) => .ok s
    | (_, .error e) => .error e

end JobEngine.Config
