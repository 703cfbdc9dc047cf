import JobEngine.Service

/-!
# The command

Reads the arguments, the environment and the configuration file, runs the
service until nothing is left to do at once, and prints what it says. Job logs
are written when it ends.
-/
namespace JobEngine.Command

open CommandLine (Arguments)

def environment : IO Config.Environment := do
  let values ← Service.variableNames.mapM fun name => do return (name, ← IO.getEnv name)
  return fun name => (values.find? (·.1 = name)).bind (·.2)

/-- Takes a file over, if there is one. -/
def takeFile (path : String) (files : Files) : IO Files := do
  try
    let bytes ← IO.FS.readBinFile path
    match String.fromUTF8? bytes with
    | some content => return files.write path content
    | none => return files.place path .binary
  catch _ => return files

/-- The files that a service looks at before it starts. -/
def findFiles (a : Arguments) (env : Config.Environment) : IO Files := do
  let files ← match a.configPath with
    | some path => takeFile path {}
    | none => pure {}
  match Config.Settings.load files a.configPath env with
  | .ok { logDirectory := some path, .. } => takeFile path files
  | _ => return files

/-- Writes the job logs. -/
def writeLogs (s : Service) : IO Unit := do
  match s.settings.logDirectory with
  | none => return
  | some directory =>
    IO.FS.createDirAll directory
    let queue := s.simulation.engine.queue
    for record in queue.completed ++ queue.dead.map (·.record) do
      let path := LogBook.logPath directory record.id
      match s.files.read path with
      | .ok content => IO.FS.writeFile path content
      | .error _ => pure ()

def start (a : Arguments) (env : Config.Environment) : IO UInt32 := do
  match Service.start a (← findFiles a env) env Simulation.dawn with
  | .error e =>
    if let .crashed _ := e then IO.eprintln e.message
    else
      IO.eprintln ("Error: " ++ e.message)
      IO.eprintln ("\nCaused by:\n    " ++ e.cause?.getD "the configuration can not be read")
    return .ofNat e.exitCode
  | .ok s =>
    let s := s.settle.stop
    for n in s.notices do
      IO.println (n.line s.settings.json)
    writeLogs s
    return 0

end JobEngine.Command

def main (args : List String) : IO UInt32 := do
  let env ← JobEngine.Command.environment
  match JobEngine.CommandLine.Arguments.parse args
      (env JobEngine.CommandLine.pathVariableName) with
  | .error e =>
    if e.exitCode = 0 then IO.println e.message else IO.eprintln e.message
    return .ofNat e.exitCode
  | .ok a => JobEngine.Command.start a env
