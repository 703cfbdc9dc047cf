import JobEngine.Proofs.LogFiles
import JobEngine.Proofs.SharedRuns

/-!
# What a job's log shows

A delivery opens the log of its job, writes lines through the buffer, and closes
the log when the job's code has come to its end, whatever the end is. The next
delivery of the job goes on where this one stopped. So whoever reads the log at
any time finds a part of all lines up to then that lacks at most some at the
end, and all of them as soon as no delivery of the job has the log open.
-/
namespace JobEngine

/-! ## One step -/

theorem Stage.log?_of_isOver {stage : Stage} (past : stage.isOver = true) : stage.log? = none := by
  cases stage with
  | active => cases past
  | _ => rfl

def Activity.line? (now : Time.Timestamp) : Activity → Option String
  | .log level message _ => some (LogBook.entry now level message)
  | _ => none

/-- The line that the next step adds to the log. -/
def Delivery.line? (d : Delivery) (now : Time.Timestamp) : Option String :=
  match d.stage with
  | .active _ rest => rest.line? now
  | _ => none

/-- The next step is to open the log. -/
def Stage.opens : Stage → Bool
  | .announced => true
  | _ => false

/-- What a step can do to the log of its delivery: whether it is to open it, the log before, the
line that is added, the log afterwards, and all logs. -/
inductive LogStep (path : String) (book : LogBook) :
    Bool → Option OpenLog → Option String → Option OpenLog → LogBook → Prop
  | idle (log : Option OpenLog) : LogStep path book false log none log book
  | refused {e : FileError} (fails : book.files.openAppend path = .error e) :
      LogStep path book true none none none book
  /-- The parameters are refused, so the log is closed again. -/
  | tries {files : Files} (opened : book.files.openAppend path = .ok files) :
      LogStep path book true none none none ({ book with files }.flush path [])
  | opens {files : Files} (opened : book.files.openAppend path = .ok files) :
      LogStep path book true none none (some (.file path [])) { book with files }
  | writes (record : Record) (level : Level) (message line : String) {buffer kept : List String}
      {later : LogBook}
      (written : (book.note record level message).writeBuffered path buffer line = (kept, later)) :
      LogStep path book false (some (.file path buffer)) (some line) (some (.file path kept)) later
  | closes (buffer : List String) :
      LogStep path book false (some (.file path buffer)) none none (book.flush path buffer)

theorem Engine.write_logs (e : Engine) (call : TrackerCall)
    (change : Tracker → Except QueueError Tracker) : (e.write call change).2.logs = e.logs := by
  obtain ⟨tracker, written⟩ := write_tracker e call change
  rw [written]

theorem Engine.deleteArtifact_logs (e : Engine) (repository digest : String) :
    (e.deleteArtifact repository digest).2.logs = e.logs := by
  simp only [deleteArtifact]
  split
  · rfl
  · split <;> rfl

namespace Delivery

theorem act_line {record : Record} {e : Engine} {log after : OpenLog} {level : Level}
    {message : String} {logs : LogBook}
    (logged : e.logs.log record e.now level message log = (after, logs)) (next : Activity) :
    act record e log (.log level message next) = (.active after next, { e with logs }) := by
  rw [act, logged]

variable {directory : String}

theorem act_logs (record : Record) (e : Engine) (path : String) (buffer : List String)
    (rest : Activity) :
    LogStep path e.logs false (some (.file path buffer)) (rest.line? e.now)
      (act record e (.file path buffer) rest).1.log?
      (act record e (.file path buffer) rest).2.logs := by
  cases rest with
  | done | fault => exact .closes buffer
  | log level message next =>
    rcases written : (e.logs.note record level message).writeBuffered path buffer
      (LogBook.entry e.now level message) with ⟨kept, logs⟩
    rw [act_line (LogBook.log_file written)]
    exact .writes record level message _ written
  | checkIn message next =>
    have same : (e.checkIn record.id message).2.logs = e.logs := e.write_logs _ _
    simp only [act, same]
    exact .idle _
  | order command next =>
    have same : (e.sendCommand record.id command).2.logs = e.logs := e.write_logs _ _
    simp only [act, same]
    exact .idle _
  | delete repository digest next =>
    simp only [act, e.deleteArtifact_logs]
    exact .idle _
  | _ => exact .idle _

theorem prepare_logs {target : LogTarget} (into : target = .directory directory) (job : Job)
    (record : Record) (e : Engine) :
    LogStep (LogBook.logPath directory record.id) e.logs true none none
      (prepare target job record e).1.log? (prepare target job record e).2.logs := by
  subst into
  simp only [prepare, LogBook.openLog]
  cases opened : e.logs.files.openAppend (LogBook.logPath directory record.id) with
  | error err => exact .refused opened
  | ok files =>
    dsimp only
    cases job.validate record.parameters with
    | error f => exact .tries opened
    | ok => exact .opens opened

/-- A step does one of these things to the log. -/
theorem step_logs {terms : Terms} (target : terms.target = .directory directory) (d : Delivery)
    (filed : ∀ log, d.stage.log? = some log →
      ∃ buffer, log = .file (LogBook.logPath directory d.record.id) buffer)
    (e : Engine) (letters : DeadLetters) :
    LogStep (LogBook.logPath directory d.record.id) e.logs d.stage.opens d.stage.log?
      (d.line? e.now) (d.step terms e letters).1.stage.log?
      (d.step terms e letters).2.1.logs := by
  obtain ⟨record, job, stage⟩ := d
  cases stage with
  | fetched =>
    have same : (step terms ⟨record, job, .fetched⟩ e letters).2.1.logs = e.logs :=
      e.write_logs _ _
    rw [same]
    exact .idle none
  | announced =>
    exact prepare_logs target job record e
  | active log rest =>
    obtain ⟨buffer, same⟩ : ∃ buffer, log = .file (LogBook.logPath directory record.id) buffer :=
      filed log rfl
    have logs := act_logs record e (LogBook.logPath directory record.id) buffer rest
    rw [← same] at logs
    rcases acted : act record e log rest with ⟨stage, after⟩
    rw [acted] at logs
    have next : step terms ⟨record, job, .active log rest⟩ e letters =
        (⟨record, job, stage⟩, after, letters) := by
      simp only [step, acted]
    rw [next]
    exact logs
  | ended outcome =>
    have same : (step terms ⟨record, job, .ended outcome⟩ e letters).2.1.logs = e.logs :=
      e.write_logs _ _
    rw [same]
    exact .idle none
  | reported outcome =>
    simp only [step]
    split <;> exact .idle none
  | decided result => exact .idle none

end Delivery

namespace LogStep

variable {path : String} {book later : LogBook} {opening : Bool} {log after : Option OpenLog}
  {line : Option String}

theorem filed (step : LogStep path book opening log line after later)
    (filed : ∀ l, log = some l → ∃ buffer, l = .file path buffer) :
    ∀ l, after = some l → ∃ buffer, l = .file path buffer := by
  cases step with
  | idle => exact filed
  | refused | tries | closes => simp
  | opens => exact fun l same => ⟨[], (Option.some.inj same).symm⟩
  | writes => exact fun l same => ⟨_, (Option.some.inj same).symm⟩

/-- The logs of other jobs stay as they are. -/
theorem other {path' name name' : String} {place : List String} {found : Option Node}
    (step : LogStep path' book opening log line after later) (ends : Path.Ends path name)
    (ends' : Path.Ends path' name') (differs : name' ≠ name)
    (located : book.files.locate path = .ok (place, found)) :
    later.files.locate path = .ok (place, found) := by
  cases step with
  | idle | refused => exact located
  | tries opened =>
    exact LogBook.locate_flush_other ends ends' differs
      (Files.locate_openAppend_other ends located ends' differs opened) []
  | opens opened => exact Files.locate_openAppend_other ends located ends' differs opened
  | @writes record level message line buffer kept later written =>
    have noted : (book.note record level message).files.locate path = .ok (place, found) := located
    have same : ((book.note record level message).writeBuffered path' buffer line).2 = later := by
      rw [written]
    rw [← same]
    exact LogBook.locate_writeBuffered_other ends ends' differs noted line
  | closes buffer => exact LogBook.locate_flush_other ends ends' differs located buffer

end LogStep

/-! ## Runs -/

namespace SharedRun

open LogBook

variable {ι : Type} [DecidableEq ι] (run : SharedRun ι) (directory : String) (id : JobId)

/-- The line that turn `n` adds to the log of the job. -/
def line? (n : Nat) : Option String :=
  match run.turns n with
  | .step i =>
    if (run.start i).record.id = id then (run.hand n i).line? (run.met n).1.now else none
  | .change _ => none

/-- What was logged for the job in the first `n` turns. -/
def logged : Nat → List String
  | 0 => []
  | n + 1 => logged n ++ (run.line? id n).toList

/-- In turn `n` a delivery of the job opens its log. -/
def Opens (n : Nat) : Prop :=
  ∃ i, run.turns n = .step i ∧ (run.start i).record.id = id ∧ (run.hand n i).stage.opens = true

/-- No delivery of the job has its log open. -/
def Closed (n : Nat) : Prop :=
  ∀ i, (run.start i).record.id = id → (run.hand n i).stage.log? = none

/-- All deliveries are logged to the directory. Of the job no two have the log open at once. Others
leave its log as it is, and at the start this is found there. -/
structure LogsTo (found : Option String) : Prop where
  target : run.terms.target = .directory directory
  fetched : ∀ i, (run.start i).stage = .fetched
  sole : ∀ n i j, (run.start i).record.id = id → (run.start j).record.id = id →
    (run.hand n i).stage.log? ≠ none → (run.hand n j).stage.log? ≠ none → i = j
  there : ∃ place, (run.met 0).1.logs.files.locate (logPath directory id) =
    .ok (place, found.map .file)
  kept : ∀ n, (run.met (n + 1)).1.logs.files.locate (logPath directory id) =
    (run.leaves n).logs.files.locate (logPath directory id)

/-- How the log of the job stands before turn `n`. -/
inductive LogStands (found : Option String) (place : List String) (n : Nat) : Prop
  | awaits (absent : found = none)
      (located : (run.met n).1.logs.files.locate (logPath directory id) = .ok (place, none))
      (closed : run.Closed id n) (unlogged : run.logged id n = [])
      (unopened : ∀ k < n, ¬run.Opens id k) : LogStands found place n
  | keeps (written held : List String)
      (holds : (run.met n).1.logs.Holds (logPath directory id) place
        (found.getD "" ++ String.join written))
      (all : written ++ held = run.logged id n)
      (opened : ∀ i log, (run.start i).record.id = id → (run.hand n i).stage.log? = some log →
        log = .file (logPath directory id) held)
      (closed : run.Closed id n → held = []) : LogStands found place n

section Stands

variable {run directory id} {found : Option String} {place : List String} {n : Nat} {i : ι}

theorem full_logged (n : Nat) : ∀ line ∈ run.logged id n, line ≠ "" := by
  have full (now : Time.Timestamp) (rest : Activity) (line : String)
      (told : rest.line? now = some line) : line ≠ "" := by
    cases rest with
    | log level message next =>
      obtain rfl := Option.some.inj told
      exact entry_ne_empty _ _ _
    | _ => cases told
  induction n with
  | zero => simp [logged]
  | succ n ih =>
    intro line mem
    rcases List.mem_append.mp mem with early | last
    · exact ih line early
    · have told : run.line? id n = some line := Option.mem_toList.mp last
      rw [line?] at told
      split at told
      · split at told
        · rw [Delivery.line?] at told
          split at told
          · exact full _ _ line told
          · cases told
        · cases told
      · cases told

/-- What a turn of a delivery does to its log. -/
theorem turn_logs (target : run.terms.target = .directory directory)
    (turn : run.turns n = .step i) (filed : ∀ log, (run.hand n i).stage.log? = some log →
      ∃ buffer, log = .file (logPath directory (run.start i).record.id) buffer) :
    LogStep (logPath directory (run.start i).record.id) (run.met n).1.logs
      (run.hand n i).stage.opens (run.hand n i).stage.log?
      ((run.hand n i).line? (run.met n).1.now) (run.hand (n + 1) i).stage.log?
      (run.leaves n).logs := by
  rw [hand_step turn, leaves, turn]
  rw [← hand_id] at filed ⊢
  exact Delivery.step_logs target _ filed _ _

theorem filed (logs : run.LogsTo directory id found) (n : Nat) (i : ι) :
    ∀ log, (run.hand n i).stage.log? = some log →
      ∃ buffer, log = .file (logPath directory (run.start i).record.id) buffer := by
  induction n with
  | zero =>
    intro log opened
    rw [hand, logs.fetched i] at opened
    cases opened
  | succ n ih =>
    rcases run.hand_cases i n with ⟨turn, -⟩ | ⟨-, same⟩
    · exact (turn_logs logs.target turn ih).filed ih
    · rw [same]
      exact ih

theorem LogStands.located (stands : run.LogStands directory id found place n) :
    ∃ node, (run.met n).1.logs.files.locate (logPath directory id) = .ok (place, node) := by
  cases stands with
  | awaits absent located => exact ⟨none, located⟩
  | keeps written held holds => exact ⟨_, holds⟩

/-- In a turn that does nothing to the log it stays as it is. -/
theorem LogStands.still (stands : run.LogStands directory id found place n)
    (kept : (run.met (n + 1)).1.logs.files.locate (logPath directory id) =
      (run.met n).1.logs.files.locate (logPath directory id))
    (same : ∀ i, (run.start i).record.id = id →
      (run.hand (n + 1) i).stage.log? = (run.hand n i).stage.log?)
    (silent : run.line? id n = none) (unopened : ¬run.Opens id n) :
    run.LogStands directory id found place (n + 1) := by
  have logged : run.logged id (n + 1) = run.logged id n := by
    rw [SharedRun.logged, silent, Option.toList_none, List.append_nil]
  have closed : run.Closed id (n + 1) ↔ run.Closed id n :=
    forall₂_congr fun i own => by rw [same i own]
  cases stands with
  | awaits absent located closed' unlogged none =>
    refine .awaits absent (kept.trans located) (closed.mpr closed') (logged.trans unlogged) ?_
    intro k before
    rcases Nat.lt_succ_iff_lt_or_eq.mp before with early | rfl
    · exact none k early
    · exact unopened
  | keeps written held holds all opened closed' =>
    refine .keeps written held (kept.trans holds) (all.trans logged.symm) ?_
      (closed'.comp closed.mp)
    intro i log own there
    exact opened i log own (same i own ▸ there)

/-- The log can be opened, and then it stands there. -/
theorem LogStands.openAppend (stands : run.LogStands directory id found place n) :
    ∃ files written held,
      (run.met n).1.logs.files.openAppend (logPath directory id) = .ok files ∧
      files.locate (logPath directory id) =
        .ok (place, some (.file (found.getD "" ++ String.join written))) ∧
      written ++ held = run.logged id n ∧
      (∀ i log, (run.start i).record.id = id → (run.hand n i).stage.log? = some log →
        log = .file (logPath directory id) held) ∧
      (run.Closed id n → held = []) := by
  cases stands with
  | awaits absent located closed unlogged =>
    obtain ⟨files, opened, fresh⟩ := Files.openAppend_new (ends_logPath directory id) located
    subst absent
    refine ⟨files, [], [], opened, fresh, unlogged.symm, fun i log own there => ?_, fun _ => rfl⟩
    rw [closed i own] at there
    cases there
  | keeps written held holds all opened closed =>
    exact ⟨_, written, held, Files.openAppend_file holds, holds, all, opened, closed⟩

/-- A delivery of the job that has the log open holds what is not written yet. -/
theorem LogStands.of_open (stands : run.LogStands directory id found place n)
    (own : (run.start i).record.id = id) {log : OpenLog}
    (there : (run.hand n i).stage.log? = some log) :
    ∃ written held, log = .file (logPath directory id) held ∧
      (run.met n).1.logs.Holds (logPath directory id) place
        (found.getD "" ++ String.join written) ∧ written ++ held = run.logged id n := by
  cases stands with
  | awaits absent located closed =>
    rw [closed i own] at there
    cases there
  | keeps written held holds all opened => exact ⟨written, held, opened i log own there, holds, all⟩

/-- While a delivery of the job has the log open no other one has. -/
theorem LogsTo.alone (logs : run.LogsTo directory id found) {i j : ι} (differs : i ≠ j)
    (own : (run.start i).record.id = id) (own' : (run.start j).record.id = id)
    (there : (run.hand n j).stage.log? ≠ none) : (run.hand n i).stage.log? = none := by
  by_contra also
  exact differs (logs.sole n i j own own' also there)

section OwnTurn

/-- Turn `n` is one of this delivery of the job: the line it adds, its log afterwards, and what it
leaves of all logs. -/
structure OwnTurn (run : SharedRun ι) (id : JobId) (j : ι) (n : Nat) (line : Option String)
    (after : Option OpenLog) (later : LogBook) : Prop where
  own : (run.start j).record.id = id
  turn : run.turns n = .step j
  told : run.line? id n = line
  next : (run.hand (n + 1) j).stage.log? = after
  left : (run.leaves n).logs = later

variable {j : ι} {log after : Option OpenLog} {line : Option String} {later : LogBook}

theorem OwnTurn.others (turn : run.OwnTurn id j n line after later) (differs : i ≠ j) :
    run.hand (n + 1) i = run.hand n i :=
  hand_other (by simp [turn.turn, Ne.symm differs])

/-- What makes the log stand after such a turn. -/
theorem OwnTurn.stands (turn : run.OwnTurn id j n line after later)
    (logs : run.LogsTo directory id found) (written held : List String)
    (holds : later.Holds (logPath directory id) place (found.getD "" ++ String.join written))
    (all : written ++ held = run.logged id n ++ line.toList)
    (mine : ∀ log, after = some log → log = .file (logPath directory id) held)
    (theirs : ∀ i log, i ≠ j → (run.start i).record.id = id →
      (run.hand n i).stage.log? = some log → log = .file (logPath directory id) held)
    (closed : after = none → (∀ i, i ≠ j → (run.start i).record.id = id →
      (run.hand n i).stage.log? = none) → held = []) :
    run.LogStands directory id found place (n + 1) := by
  refine .keeps written held ?_ ?_ (fun i log own there => ?_) fun shut => ?_
  · rw [Holds, logs.kept, turn.left]
    exact holds
  · rw [SharedRun.logged, turn.told]
    exact all
  · by_cases same : i = j
    · subst same
      exact mine log (turn.next.symm.trans there)
    · exact theirs i log same own (turn.others same ▸ there)
  · exact closed (turn.next.symm.trans (shut j turn.own)) fun i differs own =>
      turn.others differs ▸ shut i own

/-- The same if no other delivery of the job has the log open. -/
theorem OwnTurn.stands_alone (turn : run.OwnTurn id j n line after later)
    (logs : run.LogsTo directory id found)
    (alone : ∀ i, i ≠ j → (run.start i).record.id = id → (run.hand n i).stage.log? = none)
    (written held : List String)
    (holds : later.Holds (logPath directory id) place (found.getD "" ++ String.join written))
    (all : written ++ held = run.logged id n ++ line.toList)
    (mine : ∀ log, after = some log → log = .file (logPath directory id) held)
    (closed : after = none → held = []) : run.LogStands directory id found place (n + 1) := by
  refine turn.stands logs written held holds all mine (fun i log differs own there => ?_)
    fun shut _ => closed shut
  rw [alone i differs own] at there
  cases there

variable (stands : run.LogStands directory id found place n)
  (logs : run.LogsTo directory id found)

include stands logs

theorem OwnTurn.stands_idle (turn : run.OwnTurn id j n none log (run.met n).1.logs)
    (shut : (run.hand n j).stage.opens = false) (before : (run.hand n j).stage.log? = log) :
    run.LogStands directory id found place (n + 1) := by
  refine stands.still ?_ (fun i own => ?_) turn.told ?_
  · rw [logs.kept, turn.left]
  · by_cases same : i = j
    · rw [same, turn.next, before]
    · rw [turn.others same]
  · rintro ⟨i, also, -, opening⟩
    obtain rfl := Turn.step.inj (turn.turn.symm.trans also)
    rw [shut] at opening
    cases opening

/-- The log is opened and closed again. -/
theorem OwnTurn.stands_tries {files : Files}
    (opened : (run.met n).1.logs.files.openAppend (logPath directory id) = .ok files)
    (turn : run.OwnTurn id j n none none
      ({ (run.met n).1.logs with files }.flush (logPath directory id) []))
    (before : (run.hand n j).stage.log? = none) :
    run.LogStands directory id found place (n + 1) := by
  obtain ⟨_, written, held, same, holds, all, there, closed⟩ := stands.openAppend
  obtain rfl := Except.ok.inj (opened.symm.trans same)
  have book : LogBook.Holds { (run.met n).1.logs with files } _ place _ := holds
  refine turn.stands logs written held ?_ ?_ (by simp) ?_ fun _ shut => ?_
  · have flushed := book.flush (ends_logPath directory id) []
    rwa [String.join_nil, String.append_empty] at flushed
  · rw [all, Option.toList_none, List.append_nil]
  · exact fun i log _ own open_ => there i log own open_
  · refine closed fun i own => ?_
    by_cases mine : i = j
    · rw [mine, before]
    · exact shut i mine own

theorem OwnTurn.stands_opens {files : Files}
    (opened : (run.met n).1.logs.files.openAppend (logPath directory id) = .ok files)
    (turn : run.OwnTurn id j n none (some (.file (logPath directory id) []))
      { (run.met n).1.logs with files })
    (before : (run.hand n j).stage.log? = none) :
    run.LogStands directory id found place (n + 1) := by
  obtain ⟨_, written, held, same, holds, all, -, closed⟩ := stands.openAppend
  obtain rfl := Except.ok.inj (opened.symm.trans same)
  have alone (i : ι) (differs : i ≠ j) (own : (run.start i).record.id = id) :
      (run.hand n i).stage.log? = none := by
    rw [← turn.others differs]
    exact logs.alone differs own turn.own (by simp [turn.next])
  -- so far no delivery of the job has it open, so nothing is held back
  obtain rfl : held = [] := closed fun i own => by
    by_cases mine : i = j
    · rw [mine, before]
    · exact alone i mine own
  refine turn.stands_alone logs alone written [] holds ?_ ?_ (by simp)
  · rw [all, Option.toList_none, List.append_nil]
  · exact fun log same => (Option.some.inj same).symm

variable {buffer kept : List String}

theorem OwnTurn.stands_writes {record : Record} {level : Level} {message line : String}
    (wrote : ((run.met n).1.logs.note record level message).writeBuffered (logPath directory id)
      buffer line = (kept, later))
    (turn : run.OwnTurn id j n (some line) (some (.file (logPath directory id) kept)) later)
    (before : (run.hand n j).stage.log? = some (.file (logPath directory id) buffer)) :
    run.LogStands directory id found place (n + 1) := by
  obtain ⟨written, held, same, holds, all⟩ := stands.of_open turn.own before
  obtain rfl := (OpenLog.file.inj same).2
  have full (line : String) (mem : line ∈ buffer) : line ≠ "" :=
    full_logged n line (all ▸ List.mem_append_right _ mem)
  have noted : ((run.met n).1.logs.note record level message).Holds (logPath directory id) place
    (found.getD "" ++ String.join written) := holds
  obtain ⟨flushed, holds', whole⟩ := noted.writeBuffered (ends_logPath directory id) full line
  rw [wrote] at holds' whole
  have alone (i : ι) (differs : i ≠ j) (own : (run.start i).record.id = id) :
      (run.hand n i).stage.log? = none := logs.alone differs own turn.own (by simp [before])
  refine turn.stands_alone logs alone (written ++ flushed) kept ?_ ?_ ?_ (by simp)
  · rw [String.join_append, ← String.append_assoc]
    exact holds'
  · rw [List.append_assoc, whole, ← List.append_assoc, all]
    rfl
  · exact fun log same => (Option.some.inj same).symm

theorem OwnTurn.stands_closes
    (turn : run.OwnTurn id j n none none
      ((run.met n).1.logs.flush (logPath directory id) buffer))
    (before : (run.hand n j).stage.log? = some (.file (logPath directory id) buffer)) :
    run.LogStands directory id found place (n + 1) := by
  obtain ⟨written, held, same, holds, all⟩ := stands.of_open turn.own before
  obtain rfl := (OpenLog.file.inj same).2
  have alone (i : ι) (differs : i ≠ j) (own : (run.start i).record.id = id) :
      (run.hand n i).stage.log? = none := logs.alone differs own turn.own (by simp [before])
  refine turn.stands_alone logs alone (written ++ buffer) [] ?_ ?_ (by simp) fun _ => rfl
  · rw [String.join_append, ← String.append_assoc]
    exact holds.flush (ends_logPath directory id) buffer
  · rw [all, Option.toList_none]

theorem OwnTurn.stands_of_step {opening : Bool} (turn : run.OwnTurn id j n line after later)
    (opens : (run.hand n j).stage.opens = opening) (before : (run.hand n j).stage.log? = log)
    (step : LogStep (logPath directory id) (run.met n).1.logs opening log line after later) :
    run.LogStands directory id found place (n + 1) := by
  cases step with
  | idle => exact turn.stands_idle stands logs opens before
  | refused fails =>
    obtain ⟨files, -, -, opened, -⟩ := stands.openAppend
    rw [fails] at opened
    cases opened
  | tries opened => exact turn.stands_tries stands logs opened before
  | opens opened => exact turn.stands_opens stands logs opened before
  | writes record level message line wrote => exact turn.stands_writes stands logs wrote before
  | closes buffer => exact turn.stands_closes stands logs before

end OwnTurn

theorem stands_succ (logs : run.LogsTo directory id found)
    (stands : run.LogStands directory id found place n) :
    run.LogStands directory id found place (n + 1) := by
  cases turn : run.turns n with
  | change c =>
    have left : (run.leaves n).logs = (run.met n).1.logs := by rw [leaves, turn]
    refine stands.still ?_ (fun i own => ?_) ?_ ?_
    · rw [logs.kept, left]
    · rw [hand_other (by simp [turn])]
    · rw [line?, turn]
    · rintro ⟨i, also, -⟩
      rw [turn] at also
      cases also
  | step j =>
    have step := turn_logs logs.target turn (filed logs n j)
    by_cases own : (run.start j).record.id = id
    · rw [own] at step
      have told : run.line? id n = (run.hand n j).line? (run.met n).1.now := by
        rw [line?, turn]
        exact if_pos own
      exact OwnTurn.stands_of_step stands logs ⟨own, turn, told, rfl, rfl⟩ rfl rfl step
    · obtain ⟨node, located⟩ := stands.located
      have differs : logFileName (run.start j).record.id ≠ logFileName id :=
        fun same => own (logFileName_injective same)
      have kept := step.other (ends_logPath directory id) (ends_logPath directory _) differs located
      refine stands.still ?_ (fun i same => ?_) ?_ ?_
      · rw [logs.kept, kept, located]
      · rw [hand_other]
        rw [turn]
        intro also
        obtain rfl := Turn.step.inj also
        exact own same
      · rw [line?, turn]
        exact if_neg own
      · rintro ⟨i, also, same, -⟩
        rw [turn] at also
        obtain rfl := Turn.step.inj also
        exact own same

theorem stands (logs : run.LogsTo directory id found) :
    ∃ place, ∀ n, run.LogStands directory id found place n := by
  obtain ⟨place, located⟩ := logs.there
  have closed : run.Closed id 0 := fun i _ => by
    rw [hand, logs.fetched i]
    rfl
  refine ⟨place, fun n => ?_⟩
  induction n with
  | zero =>
    cases found with
    | none => exact .awaits rfl located closed rfl fun k before => absurd before (Nat.not_lt_zero k)
    | some text =>
      refine .keeps [] [] ?_ rfl ?_ fun _ => rfl
      · rw [String.join_nil, String.append_empty]
        exact located
      · intro i log own opened
        rw [closed i own] at opened
        cases opened
  | succ n ih => exact stands_succ logs ih

/-- If a delivery of the job closes its log now, the file holds all that was logged. -/
theorem LogStands.holds_closed (stands : run.LogStands directory id found place n)
    (own : (run.start i).record.id = id) {log : OpenLog}
    (opened : (run.hand n i).stage.log? = some log) :
    ((run.met n).1.logs.close log).Holds (logPath directory id) place
      (found.getD "" ++ String.join (run.logged id n)) := by
  obtain ⟨written, held, rfl, holds, all⟩ := stands.of_open own opened
  rw [← all, String.join_append, ← String.append_assoc]
  exact holds.flush (ends_logPath directory id) held

end Stands

end SharedRun

/-! ## What a reader is shown -/

/-- A call that the log answers. -/
def Deed.isForLog : Deed → Bool
  | .line _ _ | .closed => true
  | _ => false

/-- Once it is closed a log takes nothing more. -/
theorem Scene.foldl_act_closed (terms : Terms) (d : Delivery) {scene : Scene}
    (closed : scene.log = none) {deeds : List Deed}
    (calls : ∀ deed ∈ deeds, deed.isForLog = true) :
    deeds.foldl (Scene.act terms d) scene = scene := by
  induction deeds with
  | nil => rfl
  | cons deed rest ih =>
    have still : Scene.act terms d scene deed = scene := by
      cases deed with
      | line | closed => simp only [Scene.act, closed]
      | _ => cases calls _ List.mem_cons_self
    rw [List.foldl_cons, still]
    exact ih fun deed mem => calls deed (List.mem_cons_of_mem _ mem)

namespace Client

variable {directory text content : String} {id : JobId} {files : Files} {place : List String}

theorem jobLog_absent (parsed : JobId.parse? text = some id)
    (absent : files.locate (LogBook.logPath directory id) = .ok (place, none)) :
    jobLog (some directory) files text = .error (.logNotFound id) := by
  simp only [jobLog, JobId.looksLikePath_of_parse? parsed, parsed, Files.read, Files.lookup, absent,
    Bool.false_eq_true, if_false]

theorem jobLog_file (parsed : JobId.parse? text = some id)
    (there : files.locate (LogBook.logPath directory id) = .ok (place, some (.file content))) :
    jobLog (some directory) files text = .ok content := by
  simp only [jobLog, JobId.looksLikePath_of_parse? parsed, parsed, Files.read, Files.lookup, there,
    Bool.false_eq_true, if_false]

end Client

namespace SharedRun

open Client

variable {ι : Type} [DecidableEq ι] {run : SharedRun ι} {directory text : String} {id : JobId}
  {found : Option String}

/-- As long as no delivery of the job has opened its log and there was none before, there is none
to read. From then on a reader is shown what was there at the start and, behind it, the lines that
the deliveries of the job have logged, in their order and each of them whole. Some of the last may
be missing, but none as soon as no delivery of the job has its log open. When one that has it open
closes it nothing is missing either, and what it logs after that is not shown. -/
theorem log_complete (logs : run.LogsTo directory id found) (parsed : JobId.parse? text = some id)
    (n : Nat) :
    (found = none ∧ (∀ k < n, ¬run.Opens id k) ∧ run.logged id n = [] ∧
        jobLog (some directory) (run.met n).1.logs.files text = .error (.logNotFound id)) ∨
      ∃ shown, shown <+: run.logged id n ∧
        jobLog (some directory) (run.met n).1.logs.files text =
          .ok (found.getD "" ++ String.join shown) ∧
        (run.Closed id n → shown = run.logged id n) ∧
        ∀ i, (run.start i).record.id = id → (run.hand n i).stage.log? ≠ none → ∀ deeds,
          (∀ deed ∈ deeds, deed.isForLog = true) →
          let later := (.closed :: deeds).foldl (Scene.act run.terms (run.hand n i))
            ((run.hand n i).scene (run.met n))
          jobLog (some directory) later.engine.logs.files text =
            .ok (found.getD "" ++ String.join (run.logged id n)) := by
  obtain ⟨place, stands⟩ := stands logs
  have stand := stands n
  cases stand with
  | awaits absent located closed unlogged unopened =>
    exact .inl ⟨absent, unopened, unlogged, jobLog_absent parsed located⟩
  | keeps written held holds all opened closed =>
    refine .inr ⟨written, ⟨held, all⟩, jobLog_file parsed holds, fun shut => ?_,
      fun i own open_ deeds calls => ?_⟩
    · rw [← all, closed shut, List.append_nil]
    · obtain ⟨log, there⟩ := Option.ne_none_iff_exists'.mp open_
      have acted : Scene.act run.terms (run.hand n i) ((run.hand n i).scene (run.met n)) .closed =
          ⟨{ (run.met n).1 with logs := (run.met n).1.logs.close log }, (run.met n).2, none⟩ := by
        simp only [Scene.act, Delivery.scene, there]
      rw [List.foldl_cons, acted, Scene.foldl_act_closed _ _ rfl calls]
      exact jobLog_file parsed ((stands n).holds_closed own there)

/-! ## A job that crashes and is delivered again -/

inductive Attempt
  | first
  | second
deriving DecidableEq

/-- The first attempt writes a line and crashes, and then the second writes two. -/
def attempts : SharedRun Attempt :=
  let work (invocation : Invocation) : Activity :=
    if invocation.earlierRuns = 0 then .log .info "begun" (.fault (.crash .wordless))
    else .log .info "again" (.log .warn "done" .done)
  let job : Job := { Job.idle "work" with run := work }
  let record : Record := .ofRequest ⟨"work", [], none⟩ (.ofNat 1) (.ofMillis 0)
  let start : Attempt → Delivery
    | .first => ⟨record, job, .fetched⟩
    | .second => ⟨{ record with fails := 1 }, job, .fetched⟩
  .quiet ⟨⟨defaultMaxFails⟩, .directory "logs"⟩ start
    (fun n => .step (if n < 7 then .first else .second))
    { clock := 0, logs := { files := ⟨[(["logs"], .directory)]⟩ } } { grace := 0 }

theorem attempts_alone (n : Nat) :
    (attempts.hand n .first).stage.log? = none ∨ (attempts.hand n .second).stage.log? = none := by
  have second_waits (n : Nat) (early : n ≤ 7) :
      attempts.hand n .second = attempts.start .second := by
    induction n with
    | zero => rfl
    | succ n ih =>
      have turn : attempts.turns n = .step .first := by
        simp only [attempts, quiet]
        rw [if_pos (by omega)]
      rw [hand_other (by simp [turn]), ih (by omega)]
  rcases le_total n 7 with early | late
  · right
    rw [second_waits n early]
    rfl
  · left
    have past : (attempts.hand 7 .first).stage.isOver = true := by
      rw [attempts, hand_quiet]
      decide +kernel
    exact Stage.log?_of_isOver (isOver_later past late)

theorem attempts_logsTo : attempts.LogsTo "logs" (.ofNat 1) none where
  target := rfl
  fetched i := by cases i <;> rfl
  sole n i j _ _ first second := by
    rcases attempts_alone n with shut | shut <;> cases i <;> cases j <;> first | rfl | contradiction
  there := ⟨["logs", LogBook.logFileName (.ofNat 1)], by decide +kernel⟩
  kept n := by
    rw [attempts, leaves_quiet]
    rfl

theorem log_complete_attempts :
    let text := "00000000-0000-0000-0000-000000000001"
    let lines := ["1970-01-01T00:00:00+00:00 [INFO] begun\n",
      "1970-01-01T00:00:00+00:00 [INFO] again\n", "1970-01-01T00:00:00+00:00 [WARN] done\n"]
    attempts.LogsTo "logs" (.ofNat 1) none ∧ JobId.parse? text = some (.ofNat 1) ∧
      attempts.logged (.ofNat 1) 14 = lines ∧
      jobLog (some "logs") (attempts.met 14).1.logs.files text = .ok (String.join lines) := by
  intro text lines
  have parsed : JobId.parse? text = some (.ofNat 1) := by decide +kernel
  have logged : attempts.logged (.ofNat 1) 14 = lines := by decide +kernel
  have closed : attempts.Closed (.ofNat 1) 14 := fun i _ => by
    rw [attempts, hand_quiet]
    cases i <;> decide +kernel
  refine ⟨attempts_logsTo, parsed, logged, ?_⟩
  rcases log_complete attempts_logsTo parsed 14 with
    ⟨-, -, unlogged, -⟩ | ⟨shown, -, reads, whole, -⟩
  · exact absurd (logged.symm.trans unlogged) (List.cons_ne_nil _ _)
  · rw [whole closed, logged, Option.getD_none, String.empty_append] at reads
    exact reads

end SharedRun

end JobEngine
