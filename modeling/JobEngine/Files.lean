import JobEngine.Text.Blank

/-!
# Files and directories

A directory tree, as far as logs and configuration need it: files and
directories below a working directory or below the root. A path is a sequence
of names; one dot stands for the directory itself, two dots for the one around
it, and a slash at the end asks for a directory.
-/
namespace JobEngine

inductive FileError
  | notFound
  | notDirectory
  | isDirectory
  | alreadyExists
  /-- The bytes of the file are no text. -/
  | notText
deriving DecidableEq, Repr

namespace FileError

def message : FileError → String
  | .notFound => "No such file or directory (os error 2)"
  | .notDirectory => "Not a directory (os error 20)"
  | .isDirectory => "Is a directory (os error 21)"
  | .alreadyExists => "File exists (os error 17)"
  | .notText => "stream did not contain valid UTF-8"

end FileError

inductive Node
  | file (content : String)
  /-- A file whose bytes are no text. -/
  | binary
  | directory
deriving DecidableEq, Repr

/-- The names from the working directory down, or from the root, which is called by a slash, and
whether the path asks for a directory. -/
structure Path where
  names : List String
  wantsDirectory : Bool
deriving DecidableEq, Repr

namespace Path

def parse (s : String) : Path :=
  let pieces := (Text.splitAll '/' s.toList).map String.ofList
  let names := pieces.filter fun p => p ≠ "" ∧ p ≠ "."
  { names := if s.toList.head? = some '/' then "/" :: names else names
    wantsDirectory := pieces.getLast? = some "" ∨ pieces.getLast? = some "." }

/-- The path of a file inside a directory. -/
def inside (directory file : String) : String :=
  if directory.isEmpty then file
  else if directory.toList.getLast? = some '/' then directory ++ file
  else directory ++ "/" ++ file

end Path

structure Files where
  nodes : List (List String × Node) := []
deriving DecidableEq, Repr

namespace Files

def node? (files : Files) (names : List String) : Option Node :=
  if names.isEmpty ∨ names = ["/"] then some .directory
  else (files.nodes.find? (·.1 = names)).map (·.2)

def setNode (files : Files) (names : List String) (node : Node) : Files :=
  match files.node? names with
  | some _ => ⟨files.nodes.map fun entry => if entry.1 = names then (names, node) else entry⟩
  | none => ⟨files.nodes ++ [(names, node)]⟩

/-- Where a path leads: every directory above its last name is there. -/
def resolve (files : Files) : List String → List String → Except FileError (List String)
  | above, [] => .ok above
  | above, name :: rest =>
    if name = ".." then
      if above.isEmpty then .error .notFound else files.resolve above.dropLast rest
    else if rest.isEmpty then .ok (above ++ [name])
    else
      match files.node? (above ++ [name]) with
      | some .directory => files.resolve (above ++ [name]) rest
      | some _ => .error .notDirectory
      | none => .error .notFound

/-- The place a path leads to; nothing is there yet, or what the path asks for. -/
def locate (files : Files) (path : String) : Except FileError (List String × Option Node) :=
  let p := Path.parse path
  if path.isEmpty then .error .notFound
  else
    match files.resolve [] p.names with
    | .error e => .error e
    | .ok names =>
      match files.node? names with
      | none => .ok (names, none)
      | some .directory => .ok (names, some .directory)
      | some node => if p.wantsDirectory then .error .notDirectory else .ok (names, some node)

/-- The node a path names. -/
def lookup (files : Files) (path : String) : Except FileError Node :=
  match files.locate path with
  | .error e => .error e
  | .ok (_, none) => .error .notFound
  | .ok (_, some node) => .ok node

def isFile (files : Files) (path : String) : Bool :=
  match files.lookup path with
  | .ok .directory | .error _ => false
  | .ok _ => true

def read (files : Files) (path : String) : Except FileError String :=
  match files.lookup path with
  | .ok (.file content) => .ok content
  | .ok .binary => .error .notText
  | .ok .directory => .error .isDirectory
  | .error e => .error e

/-- Makes sure that a file is there to be appended to. -/
def openAppend (files : Files) (path : String) : Except FileError Files :=
  match files.locate path with
  | .error e => .error e
  | .ok (_, some .directory) => .error .isDirectory
  | .ok (_, some _) => .ok files
  | .ok (names, none) =>
    if (Path.parse path).wantsDirectory then .error .isDirectory
    else .ok (files.setNode names (.file ""))

/-- Adds text at the end of a file; what is no file is left alone. -/
def append (files : Files) (path text : String) : Files :=
  match files.locate path with
  | .ok (names, some (.file content)) => files.setNode names (.file (content ++ text))
  | _ => files

def addDirectories (files : Files) (above : List String) : List String → Except FileError Files
  | [] => .ok files
  | name :: rest =>
    if name = ".." then files.addDirectories above.dropLast rest
    else
      match files.node? (above ++ [name]) with
      | some .directory => files.addDirectories (above ++ [name]) rest
      | some _ => .error (if rest.isEmpty then .alreadyExists else .notDirectory)
      | none =>
        (files.setNode (above ++ [name]) .directory).addDirectories (above ++ [name]) rest

/-- Creates a directory and those above it; the ones that are there stay. -/
def createDirectories (files : Files) (path : String) : Except FileError Files :=
  files.addDirectories [] (Path.parse path).names

/-- Puts a node in place, with the directories above it. -/
def place (files : Files) (path : String) (node : Node) : Files :=
  let names := (Path.parse path).names
  match files.addDirectories [] names.dropLast with
  | .ok grown =>
    match grown.resolve [] names with
    | .ok names => grown.setNode names node
    | .error _ => files
  | .error _ => files

/-- Puts a file in place, with the directories above it. -/
def write (files : Files) (path content : String) : Files := files.place path (.file content)

end Files

end JobEngine
