import JobEngine.Proofs.IdentifierSpellings
import JobEngine.Proofs.LogFiles

/-!
# What a reader of logs can reach

A text that identifies a job leads to the log file of that job, which lies in
the directory of the logs, and to no other; all spellings of an identifier lead
to the same file, the one that the deliveries of the job write to. With any
other text no file is looked at.
-/
namespace JobEngine

/-! ## Files of a directory -/

namespace Path

variable {name : String}

/-- A slash at the end changes no name. -/
theorem names_slash {front : List Char} (some : front ≠ []) :
    (parse (String.ofList (front ++ ['/']))).names = (parse (String.ofList front)).names := by
  have head : (front ++ ['/']).head? = front.head? := by
    cases front with
    | nil => exact absurd rfl some
    | cons c rest => rfl
  have last : (Text.splitAll '/' ([] : List Char)).map String.ofList = [""] := rfl
  have empty : [""].filter (fun p => p ≠ "" ∧ p ≠ ".") = [] := by decide
  simp only [parse, String.toList_ofList, Text.splitAll_append, List.map_append, last,
    List.filter_append, empty, List.append_nil, head]

theorem names_append {front : List Char} (unbroken : '/' ∉ name.toList)
    (plain : name ≠ "" ∧ name ≠ ".") :
    (parse (String.ofList (front ++ '/' :: name.toList))).names =
      (parse (String.ofList (front ++ ['/']))).names ++ [name] := by
  have kept : [name].filter (fun p => p ≠ "" ∧ p ≠ ".") = [name] := by simp [plain]
  have head : (front ++ '/' :: name.toList).head? = (front ++ ['/']).head? := by
    cases front <;> rfl
  have last : (Text.splitAll '/' ([] : List Char)).map String.ofList = [""] := rfl
  have empty : [""].filter (fun p => p ≠ "" ∧ p ≠ ".") = [] := by decide
  simp only [parse, String.toList_ofList, Text.splitAll_append, Text.splitAll_unbroken unbroken,
    List.map_append, List.map_cons, List.map_nil, String.ofList_toList, List.filter_append, kept,
    last, empty, List.append_nil, head]
  split <;> simp

/-- A file inside a directory has one more name than the directory. -/
theorem names_inside (directory : String) (unbroken : '/' ∉ name.toList)
    (plain : name ≠ "" ∧ name ≠ ".") :
    (parse (inside directory name)).names = (parse directory).names ++ [name] := by
  rw [inside]
  split
  · rename_i none
    obtain rfl := String.isEmpty_iff.mp none
    have head : name.toList.head? ≠ some '/' := fun same => unbroken (List.mem_of_head? same)
    have above : (parse "").names = [] := by decide
    rw [above]
    simp [parse, Text.splitAll_unbroken unbroken, plain, head]
  · rename_i given
    split
    · rename_i slash
      have shape := List.dropLast_append_getLast? _ slash
      have joined : directory ++ name =
          String.ofList (directory.toList.dropLast ++ '/' :: name.toList) := by
        rw [← String.toList_inj, String.toList_ofList, String.toList_append]
        nth_rewrite 1 [← shape]
        rw [List.append_assoc]
        rfl
      rw [joined, names_append unbroken plain, shape, String.ofList_toList]
    · have joined : directory ++ "/" ++ name =
          String.ofList (directory.toList ++ '/' :: name.toList) := by
        rw [← String.toList_inj]
        simp
      have some : directory.toList ≠ [] := by simpa using given
      rw [joined, names_append unbroken plain, names_slash some, String.ofList_toList]

end Path

namespace Files

/-- The path leads to this directory. -/
def Leads (files : Files) (directory : String) (home : List String) : Prop :=
  files.resolve [] (Path.parse directory).names = .ok home ∧ files.node? home = some .directory

theorem resolve_concat {files : Files} {above front home : List String} {last : String}
    (leads : files.resolve above front = .ok home) (there : files.node? home = some .directory)
    (plain : last ≠ "..") : files.resolve above (front ++ [last]) = .ok (home ++ [last]) := by
  induction front generalizing above with
  | nil =>
    obtain rfl := Except.ok.inj leads
    simp [resolve, plain]
  | cons name front ih =>
    have more : (front ++ [last]).isEmpty = false := by simp
    simp only [List.cons_append, resolve, more, Bool.false_eq_true, if_false] at leads ⊢
    by_cases up : name = ".."
    · rw [if_pos up] at leads ⊢
      by_cases top : above.isEmpty = true
      · rw [if_pos top] at leads
        cases leads
      · rw [if_neg top] at leads ⊢
        exact ih leads
    · rw [if_neg up] at leads ⊢
      by_cases final : front.isEmpty = true
      · rw [if_pos final] at leads
        obtain rfl := Except.ok.inj leads
        obtain rfl := List.isEmpty_iff.mp final
        rw [there]
        exact ih rfl
      · rw [if_neg final] at leads
        cases found : files.node? (above ++ [name]) with
        | none =>
          rw [found] at leads
          cases leads
        | some node =>
          rw [found] at leads
          cases node with
          | directory => exact ih leads
          | file | binary => cases leads

/-- What is found at the path of a log is the node of that name in its directory. -/
theorem locate_log {files : Files} {directory : String} {home : List String}
    (leads : files.Leads directory home) (id : JobId) :
    files.locate (LogBook.logPath directory id) =
      .ok (home ++ [LogBook.logFileName id], files.node? (home ++ [LogBook.logFileName id])) := by
  have ends := LogBook.ends_logPath directory id
  have plain : LogBook.logFileName id ≠ "" ∧ LogBook.logFileName id ≠ "." := by
    have long := congrArg List.length (LogBook.toList_logFileName id)
    rw [List.length_append, id.length_text] at long
    refine ⟨fun same => ?_, fun same => ?_⟩ <;> simp [same] at long
  have names : (Path.parse (LogBook.logPath directory id)).names =
      (Path.parse directory).names ++ [LogBook.logFileName id] :=
    Path.names_inside directory (LogBook.slash_not_mem_logFileName id) plain
  rw [locate_eq ends, names, resolve_concat leads.1 leads.2 ends.plain.1]
  rfl

end Files

/-! ## Readers -/

namespace Client

/-- What a reader is told of what is found at the path of the log. -/
def logAnswer (id : JobId) : Except FileError Node → Except QueueError String
  | .ok (.file content) => .ok content
  | .ok .binary => .error (.io FileError.notText.message)
  | .ok .directory => .error (.io FileError.isDirectory.message)
  | .error .notFound => .error (.logNotFound id)
  | .error e => .error (.io e.message)

variable {text : String}

theorem jobLog_unread (unread : JobId.parse? text = none) (directory : Option String)
    (files : Files) : jobLog directory files text = .error (.invalidJobId text) := by
  simp only [jobLog, unread, ite_self]

theorem jobLog_read {id : JobId} (read : JobId.parse? text = some id) (directory : Option String)
    (files : Files) : jobLog directory files text =
      match directory with
      | none => .error (.backend "job logs are not written to files")
      | some directory => logAnswer id (files.lookup (LogBook.logPath directory id)) := by
  simp only [jobLog, JobId.looksLikePath_of_parse? read, read, Files.read, Bool.false_eq_true,
    if_false]
  cases directory with
  | none => rfl
  | some directory =>
    dsimp only
    cases files.lookup (LogBook.logPath directory id) with
    | error e => cases e <;> rfl
    | ok node => cases node <;> rfl

/-- A text that spells no identifier is refused, and no file is looked at. One that spells an
identifier, in whichever way, gives what is found at the path of that job's log, which is the path
that a delivery of the job opens. Two trees of files give the same answer if they agree on what is
found there, so in particular if the directory of the logs has the same log of the job in both. -/
theorem jobLog_confined (text : String) :
    ((∀ id, ¬JobId.Spells id text) ∧
        ∀ directory files, jobLog directory files text = .error (.invalidJobId text)) ∨
      ∃ id, JobId.Spells id text ∧
        (∀ other, JobId.Spells id other → ∀ directory files,
          jobLog directory files other = jobLog directory files text) ∧
        (∀ files, jobLog none files text =
          .error (.backend "job logs are not written to files")) ∧
        ∀ directory, let path := Path.inside directory (id.text ++ ".log")
          (∀ (book opened : LogBook) (record : Record) (log : OpenLog), record.id = id →
            book.openLog (.directory directory) record = .ok (log, opened) →
              log = .file path []) ∧
          (∀ files, jobLog (some directory) files text = logAnswer id (files.lookup path)) ∧
          (∀ files files' : Files, files.lookup path = files'.lookup path →
            jobLog (some directory) files text = jobLog (some directory) files' text) ∧
          ∀ (files files' : Files) (home : List String), files.Leads directory home →
            files'.Leads directory home →
            files.node? (home ++ [id.text ++ ".log"]) = files'.node? (home ++ [id.text ++ ".log"]) →
              jobLog (some directory) files text = jobLog (some directory) files' text := by
  cases read : JobId.parse? text with
  | none =>
    refine Or.inl ⟨fun id spells => ?_, jobLog_unread read⟩
    rw [JobId.parse?_eq_some.mpr spells] at read
    cases read
  | some id =>
    refine Or.inr ⟨id, JobId.parse?_eq_some.mp read, fun other spells directory files => ?_,
      jobLog_read read none, fun directory => ⟨fun book opened record log own opens => ?_,
        jobLog_read read (some directory), fun files files' same => ?_,
        fun files files' home leads leads' same => ?_⟩⟩
    · rw [jobLog_read read, jobLog_read (JobId.parse?_eq_some.mpr spells)]
    · subst own
      simp only [LogBook.openLog] at opens
      split at opens
      · exact (Prod.mk.inj (Except.ok.inj opens)).1.symm
      · cases opens
    · rw [jobLog_read read, jobLog_read read]
      exact congrArg (logAnswer id) same
    · have found : files.lookup (LogBook.logPath directory id) =
          files'.lookup (LogBook.logPath directory id) := by
        have nodes : files.node? (home ++ [LogBook.logFileName id]) =
            files'.node? (home ++ [LogBook.logFileName id]) := same
        simp only [Files.lookup, Files.locate_log leads, Files.locate_log leads', nodes]
      rw [jobLog_read read, jobLog_read read]
      exact congrArg (logAnswer id) found

end Client

end JobEngine
