import JobEngine.Activity
import JobEngine.Files

/-!
# Job logs

A delivery writes its log to the process journal, to a file of its own and the
journal, or to a recorder. The lines of a file go through a buffer of 8 KiB: a
line that does not fit flushes the buffer first, a line as long as the buffer
goes straight to the file, and closing the log flushes what is left.
-/
namespace JobEngine

open Time (Timestamp)

/-- A line of the process journal. -/
structure JournalLine where
  level : Level
  id : JobId
  jobType : String
  message : String
deriving DecidableEq, Repr

/-- Where the logs of new deliveries go. -/
inductive LogTarget
  | journal
  | directory (path : String)
  | recorder
  /-- No log can be opened. -/
  | broken (reason : String)
deriving DecidableEq, Repr

/-- The log of one delivery while it is open. -/
inductive OpenLog
  | journal
  | file (path : String) (buffer : List String)
  | recorder
deriving DecidableEq, Repr

def bufferCapacity : Nat := 8192

def bufferedBytes (buffer : List String) : Nat :=
  buffer.foldr (fun line total => line.utf8ByteSize + total) 0

/-- What the logs have written so far. -/
structure LogBook where
  files : Files := {}
  /-- Oldest first. -/
  journal : List JournalLine := []
  /-- What the recorder took down, oldest first. -/
  recorded : List String := []
deriving DecidableEq, Repr

namespace LogBook

def logFileName (id : JobId) : String := id.text ++ ".log"

def logPath (directory : String) (id : JobId) : String := Path.inside directory (logFileName id)

/-- Opens the log of a delivery. -/
def openLog (book : LogBook) (target : LogTarget) (record : Record) :
    Except QueueError (OpenLog × LogBook) :=
  match target with
  | .journal => .ok (.journal, book)
  | .directory path =>
    match book.files.openAppend (logPath path record.id) with
    | .ok files => .ok (.file (logPath path record.id) [], { book with files })
    | .error e => .error (.io e.message)
  | .recorder =>
    .ok (.recorder, { book with recorded := book.recorded ++ ["open " ++ record.jobType] })
  | .broken reason => .error (.io reason)

def entry (now : Timestamp) (level : Level) (message : String) : String :=
  now.offsetText ++ " [" ++ level.text ++ "] " ++ message ++ "\n"

def flush (book : LogBook) (path : String) (buffer : List String) : LogBook :=
  { book with files := book.files.append path (String.join buffer) }

/-- Writes a line through the buffer of a file. -/
def writeBuffered (book : LogBook) (path : String) (buffer : List String) (line : String) :
    List String × LogBook :=
  let spare := bufferCapacity - bufferedBytes buffer
  let (buffer, book) :=
    if spare < line.utf8ByteSize then ([], book.flush path buffer) else (buffer, book)
  if bufferCapacity ≤ line.utf8ByteSize then (buffer, book.flush path [line])
  else (buffer ++ [line], book)

def note (book : LogBook) (record : Record) (level : Level) (message : String) : LogBook :=
  { book with journal := book.journal ++ [⟨level, record.id, record.jobType, message⟩] }

def log (book : LogBook) (record : Record) (now : Timestamp) (level : Level) (message : String) :
    OpenLog → OpenLog × LogBook
  | .journal => (.journal, book.note record level message)
  | .file path buffer =>
    let (buffer, book) :=
      (book.note record level message).writeBuffered path buffer (entry now level message)
    (.file path buffer, book)
  | .recorder =>
    (.recorder, { book with
      recorded := book.recorded ++ ["[" ++ level.text ++ "] " ++ message] })

/-- Ends the log of a delivery. -/
def close (book : LogBook) : OpenLog → LogBook
  | .journal => book
  | .file path buffer => book.flush path buffer
  | .recorder => { book with recorded := book.recorded ++ ["closed"] }

end LogBook

end JobEngine
