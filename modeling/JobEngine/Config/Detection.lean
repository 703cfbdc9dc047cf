import JobEngine.Config.FromJson
import JobEngine.Config.FromToml
import JobEngine.Config.FromYaml
import JobEngine.Files

/-!
# Which format a document is in

The extension of the file's name tells the format. A file without a known
extension is tried as TOML, then as JSON, then as YAML, which reads almost
anything.
-/
namespace JobEngine.Config

inductive Format
  | toml
  | json
  | yaml
deriving DecidableEq, Repr

def Format.ofExtension? (extension : String) : Option Format :=
  match Text.lower extension with
  | "toml" => some .toml
  | "yaml" | "yml" => some .yaml
  | "json" => some .json
  | _ => none

/-- What follows the last point of the last name; a point at its start does not count. -/
def extension? (path : String) : Option String :=
  match (Path.parse path).names.getLast? with
  | none | some ".." => none
  | some name =>
    match Text.splitLast '.' name.toList with
    | some (before, after) => if before.isEmpty then none else some (String.ofList after)
    | none => none

def Document.read? (format : Format) (text : String) : Option Document :=
  match format with
  | .toml => ofToml? text
  | .json => ofJson? text
  | .yaml => ofYaml? text

/-- The document in the first format that reads it. -/
def Document.detect? (text : String) : Option Document :=
  (ofToml? text).or ((ofJson? text).or (ofYaml? text))

/-- The document in a file. -/
def Document.load (files : Files) (path : String) : Except ConfigError Document :=
  match files.read path with
  | .error _ => .error .io
  | .ok text =>
    match (extension? path).bind Format.ofExtension? with
    | some format =>
      match read? format text with
      | some d => .ok d
      | none => .error .unreadable
    | none =>
      match detect? text with
      | some d => .ok d
      | none => .error .unknownFormat

end JobEngine.Config
