import JobEngine.Proofs.ArtifactTables
import JobEngine.Proofs.DeliveryTrace

/-!
# Runs that have the artifacts to themselves

While a job runs, others may do what they like to the tracker, the queue, the
logs and the clock. If nobody else changes the artifacts and the store answers,
then what the run comes to follows from the artifacts it finds and from the
commands it meets when it asks for one. This is read off the job's code alone,
without the delivery around it.
-/
namespace JobEngine

/-! ## What the code of a job comes to -/

namespace Deed

def checkIn? : Deed → Option String
  | checkIn message => some message
  | _ => none

/-- The repository and the digest of an artifact that is to go. -/
def removal? : Deed → Option (String × String)
  | delete repository digest => some (repository, digest)
  | _ => none

end Deed

def checkIns (deeds : List Deed) : List String := deeds.filterMap Deed.checkIn?

def removals (deeds : List Deed) : List (String × String) := deeds.filterMap Deed.removal?

theorem checkIns_append (front rest : List Deed) :
    checkIns (front ++ rest) = checkIns front ++ checkIns rest := List.filterMap_append

theorem removals_append (front rest : List Deed) :
    removals (front ++ rest) = removals front ++ removals rest := List.filterMap_append

structure Errand where
  /-- What it met each time it asked for a command. -/
  asked : List (Option Command)
  deeds : List Deed
  ending : Ending
  /-- The artifacts when it is over. -/
  left : ArtifactStore

namespace Errand

def did (errand : Errand) (deed : Deed) : Errand := { errand with deeds := deed :: errand.deeds }

def heard (errand : Errand) (command : Option Command) : Errand :=
  { errand with asked := command :: errand.asked }

end Errand

/-- The job's code, on these artifacts, comes to this. -/
inductive Activity.Works : Activity → ArtifactStore → Errand → Prop
  | done {store : ArtifactStore} : Works .done store ⟨[], [], .success, store⟩
  | fault {store : ArtifactStore} (f : Fault) : Works (.fault f) store ⟨[], [], .fault f, store⟩
  | log {level : Level} {message : String} {next : Activity} {store : ArtifactStore}
      {errand : Errand} (works : Works next store errand) :
      Works (.log level message next) store (errand.did (.line level message))
  | checkIn {message : String} {next : Activity} {store : ArtifactStore} {errand : Errand}
      (works : Works next store errand) :
      Works (.checkIn message next) store (errand.did (.checkIn message))
  | poll {next : Option Command → Activity} {store : ArtifactStore} {errand : Errand}
      (command : Option Command) (works : Works (next command) store errand) :
      Works (.poll next) store (errand.heard command)
  | sleep {ms : Nat} {next : Activity} {store : ArtifactStore} {errand : Errand}
      (works : Works next store errand) : Works (.sleep ms next) store errand
  | order {command : Command} {next : Except QueueError Unit → Activity} {store : ArtifactStore}
      {errand : Errand} (answer : Except QueueError Unit)
      (works : Works (next answer) store errand) :
      Works (.order command next) store (errand.did (.order command))
  | repositories {next : Except StoreError (List String) → Activity} {store : ArtifactStore}
      {errand : Errand} (works : Works (next (.ok store.names)) store errand) :
      Works (.repositories next) store errand
  | list {repository : String} {next : Except StoreError (List Artifact) → Activity}
      {store : ArtifactStore} {errand : Errand}
      (works : Works (next (store.list repository)) store errand) :
      Works (.list repository next) store errand
  | find {digest : String} {next : Except StoreError (Option Artifact) → Activity}
      {store : ArtifactStore} {errand : Errand}
      (works : Works (next (.ok (store.find? digest))) store errand) :
      Works (.find digest next) store errand
  | delete {repository digest : String} {next : Except StoreError UInt64 → Activity}
      {store : ArtifactStore} {errand : Errand}
      (works : Works (next ((store.delete repository digest).map (·.1)))
        (store.change (.delete repository digest)) errand) :
      Works (.delete repository digest next) store (errand.did (.delete repository digest))

/-! ## Checkpoints -/

def Command.fault : Command → Fault
  | .stop => .error .stopped
  | .cancel => .error .cancelled

namespace Errand

/-- No checkpoint met a command, and this is what was checked in. -/
structure Completes (errand : Errand) (checkpoints : Nat) (report : String) : Prop where
  asked : errand.asked = List.replicate checkpoints none
  ending : errand.ending = .success
  reports : checkIns errand.deeds = [report]

/-- The checkpoint that follows `before` others met a command, and nothing was checked in. -/
structure Halts (errand : Errand) (before : Nat) (command : Command) : Prop where
  asked : errand.asked = List.replicate before none ++ [some command]
  ending : errand.ending = .fault command.fault
  silent : checkIns errand.deeds = []

/-- No checkpoint met a command, the code crashed, and nothing was checked in. -/
structure Crashes (errand : Errand) (checkpoints : Nat) (crash : Crash) : Prop where
  asked : errand.asked = List.replicate checkpoints none
  ending : errand.ending = .fault (.crash crash)
  silent : checkIns errand.deeds = []

variable {errand : Errand} {checkpoints before : Nat} {report : String} {command : Command}
  {crash : Crash}

theorem Completes.heard (completes : errand.Completes checkpoints report) :
    (errand.heard none).Completes (checkpoints + 1) report :=
  ⟨congrArg (none :: ·) completes.asked, completes.ending, completes.reports⟩

theorem Halts.heard (halts : errand.Halts before command) :
    (errand.heard none).Halts (before + 1) command :=
  ⟨congrArg (none :: ·) halts.asked, halts.ending, halts.silent⟩

theorem Crashes.heard (crashes : errand.Crashes checkpoints crash) :
    (errand.heard none).Crashes (checkpoints + 1) crash :=
  ⟨congrArg (none :: ·) crashes.asked, crashes.ending, crashes.silent⟩

/-- First these artifacts of a repository are removed, and nothing is checked in; what is left to
do is `later`. -/
structure Clears (errand : Errand) (repository : String) (gone : List Artifact) (later : Errand) :
    Prop where
  asked : errand.asked = later.asked
  ending : errand.ending = later.ending
  left : errand.left = later.left
  reports : checkIns errand.deeds = checkIns later.deeds
  removes : removals errand.deeds =
    gone.map (fun a => (repository, a.digest)) ++ removals later.deeds

section Clears

variable {repository : String} {gone also : List Artifact} {later last : Errand}

theorem Clears.refl (errand : Errand) (repository : String) : errand.Clears repository [] errand :=
  ⟨rfl, rfl, rfl, rfl, rfl⟩

theorem Clears.trans (first : errand.Clears repository gone later)
    (second : later.Clears repository also last) :
    errand.Clears repository (gone ++ also) last where
  asked := first.asked.trans second.asked
  ending := first.ending.trans second.ending
  left := first.left.trans second.left
  reports := first.reports.trans second.reports
  removes := by rw [first.removes, second.removes, List.map_append, List.append_assoc]

theorem Clears.completes (clears : errand.Clears repository gone later)
    (completes : later.Completes checkpoints report) : errand.Completes checkpoints report :=
  ⟨clears.asked.trans completes.asked, clears.ending.trans completes.ending,
    clears.reports.trans completes.reports⟩

theorem Clears.halts (clears : errand.Clears repository gone later)
    (halts : later.Halts before command) : errand.Halts before command :=
  ⟨clears.asked.trans halts.asked, clears.ending.trans halts.ending,
    clears.reports.trans halts.silent⟩

theorem Clears.crashes (clears : errand.Clears repository gone later)
    (crashes : later.Crashes checkpoints crash) : errand.Crashes checkpoints crash :=
  ⟨clears.asked.trans crashes.asked, clears.ending.trans crashes.ending,
    clears.reports.trans crashes.silent⟩

end Clears

end Errand

/-- The first checkpoint met a command, and nothing was removed before. -/
def Errand.Stops (errand : Errand) (store : ArtifactStore) : Prop :=
  ∃ command, errand.Halts 0 command ∧ errand.left = store ∧ removals errand.deeds = []

/-- A checkpoint goes on if there is no command, and ends the run if there is one. -/
theorem Activity.Works.checkpoint {next : Activity} {store : ArtifactStore} {errand : Errand}
    (works : (Activity.checkpoint next).Works store errand) :
    (∃ rest, next.Works store rest ∧ errand = rest.heard none) ∨ errand.Stops store := by
  cases works with
  | @poll _ _ rest command works =>
    cases command with
    | none => exact .inl ⟨rest, works, rfl⟩
    | some command =>
      right
      refine ⟨command, ?_⟩
      cases command with
      | stop | cancel =>
        cases works with
        | log works =>
          cases works with
          | fault f => exact ⟨⟨rfl, rfl, rfl⟩, rfl, rfl⟩

theorem Activity.Works.crashes {c : Crash} {store : ArtifactStore} {errand : Errand}
    (works : (Activity.fault (.crash c)).Works store errand) :
    errand.Crashes 0 c ∧ errand.left = store ∧ removals errand.deeds = [] := by
  cases works with
  | fault f => exact ⟨⟨rfl, rfl, rfl⟩, rfl, rfl⟩

/-! ## Deliveries -/

/-- How the job's code ended, if it just did. -/
def Stage.ended? : Stage → Option Outcome
  | .ended outcome => some outcome
  | _ => none

theorem Stage.eq_ended {stage : Stage} {outcome : Outcome}
    (ends : stage.ended? = some outcome) : stage = .ended outcome := by
  cases stage with
  | ended other =>
    obtain rfl : other = outcome := Option.some.inj ends
    rfl
  | fetched | announced | active | reported | decided => cases ends

namespace Engine

/-- What a job learns that asks for its command. -/
def heard (e : Engine) (id : JobId) : Option Command :=
  match e.command? id with
  | .ok command => command
  | .error _ => none

theorem write_store (e : Engine) (call : TrackerCall)
    (change : Tracker → Except QueueError Tracker) :
    (e.write call change).2.store = e.store := by
  obtain ⟨tracker, written⟩ := write_tracker e call change
  rw [written]

theorem deleteArtifact_serving {e : Engine} (serves : e.storeOutage = [])
    (repository digest : String) :
    (e.deleteArtifact repository digest).1 = (e.store.delete repository digest).map (·.1) ∧
      (e.deleteArtifact repository digest).2.store =
        e.store.change (.delete repository digest) := by
  simp only [Engine.deleteArtifact, serves, List.not_mem_nil, if_false, ArtifactStore.change]
  cases e.store.delete repository digest with
  | error err => exact ⟨rfl, rfl⟩
  | ok pair => exact ⟨rfl, rfl⟩

end Engine

namespace Delivery

/-- The delivery when the job has been called. -/
def called (job : Job) (record : Record) (log : OpenLog) (earlier : Nat) : Delivery :=
  ⟨record, job, .active log (job.run ⟨record.id, record.jobType, record.parameters, earlier⟩)⟩

/-- What it hears in its next step. -/
def asks (d : Delivery) (e : Engine) : List (Option Command) :=
  match d.stage with
  | .active _ (.poll _) => [e.heard d.record.id]
  | _ => []

/-- What it heard in its first `n` steps. -/
def asked (terms : Terms) (d : Delivery) (met : Nat → Engine × DeadLetters) :
    Nat → List (Option Command)
  | 0 => []
  | n + 1 => d.asked terms met n ++ (d.after terms met n).asks (met n).1

/-- Nobody else changes the artifacts, and the store answers. -/
structure Alone (terms : Terms) (d : Delivery) (met : Nat → Engine × DeadLetters) : Prop where
  serves : ∀ k, (met k).1.storeOutage = []
  kept : ∀ k, (met (k + 1)).1.store =
    ((d.after terms met k).step terms (met k).1 (met k).2).2.1.store

/-- In step `n` the job's code returns, and this came of it. -/
structure Returns (terms : Terms) (d : Delivery) (met : Nat → Engine × DeadLetters) (n : Nat)
    (errand : Errand) : Prop where
  stage : (d.after terms met n).stage = .ended errand.ending.outcome
  asked : d.asked terms met n = errand.asked
  deeds : d.trace terms met n = errand.deeds ++ [.closed]
  left : (met n).1.store = errand.left

section Run

variable {terms : Terms} {d : Delivery} {met : Nat → Engine × DeadLetters}

theorem asked_succ (d : Delivery) (met : Nat → Engine × DeadLetters) (n : Nat) :
    d.asked terms met (n + 1) = d.asks (met 0).1 ++
      (d.step terms (met 0).1 (met 0).2).1.asked terms (fun k => met (k + 1)) n := by
  induction n with
  | zero => simp [asked, after]
  | succ n ih => rw [asked, ih, after_succ, List.append_assoc, asked]

theorem Alone.next (alone : d.Alone terms met) :
    (d.step terms (met 0).1 (met 0).2).1.Alone terms (fun k => met (k + 1)) where
  serves k := alone.serves (k + 1)
  kept k := by
    rw [← after_succ]
    exact alone.kept (k + 1)

/-- One more step in front. -/
theorem Returns.front {n : Nat} {rest : Errand}
    (returns : (d.step terms (met 0).1 (met 0).2).1.Returns terms (fun k => met (k + 1)) n rest) :
    d.Returns terms met (n + 1) ⟨d.asks (met 0).1 ++ rest.asked,
      d.deeds terms (met 0).1 ++ rest.deeds, rest.ending, rest.left⟩ where
  stage := by
    rw [after_succ]
    exact returns.stage
  asked := by rw [asked_succ, returns.asked]
  deeds := by rw [trace_succ, returns.deeds, List.append_assoc]
  left := returns.left

variable {job : Job} {record : Record}

theorem Alone.store_next {log : OpenLog} {rest : Activity}
    (alone : Alone terms ⟨record, job, .active log rest⟩ met) :
    (met 1).1.store = (act record (met 0).1 log rest).2.store := by
  rw [alone.kept 0]
  simp only [after, step]

/-- The code ends in its next step, in which the log is closed. -/
theorem returns_at_once {log : OpenLog} {rest : Activity} (ending : Ending)
    (alone : Alone terms ⟨record, job, .active log rest⟩ met)
    (ends : act record (met 0).1 log rest =
      (.ended ending.outcome, { (met 0).1 with logs := (met 0).1.logs.close log }))
    (silent : asks ⟨record, job, .active log rest⟩ (met 0).1 = [])
    (closes : rest.deeds = [.closed]) :
    Returns terms ⟨record, job, .active log rest⟩ met 1 ⟨[], [], ending, (met 0).1.store⟩ where
  stage := by simp only [after, step, ends]
  asked := silent
  deeds := closes
  left := by rw [alone.store_next, ends]

/-- The code goes on after its next step. -/
theorem returns_later {log later : OpenLog} {rest next : Activity}
    (alone : Alone terms ⟨record, job, .active log rest⟩ met)
    (goes : (act record (met 0).1 log rest).1 = .active later next)
    (onward : ∀ met', Alone terms ⟨record, job, .active later next⟩ met' →
      ∃ n errand, next.Works (met' 0).1.store errand ∧
        Returns terms ⟨record, job, .active later next⟩ met' n errand) :
    ∃ n errand, next.Works (act record (met 0).1 log rest).2.store errand ∧
      Returns terms ⟨record, job, .active log rest⟩ met n
        ⟨asks ⟨record, job, .active log rest⟩ (met 0).1 ++ errand.asked,
          rest.deeds ++ errand.deeds, errand.ending, errand.left⟩ := by
  have stepped : (step terms ⟨record, job, .active log rest⟩ (met 0).1 (met 0).2).1 =
      ⟨record, job, .active later next⟩ := by simp only [step, goes]
  have aloneNext := alone.next
  rw [stepped] at aloneNext
  obtain ⟨n, errand, works, returns⟩ := onward _ aloneNext
  rw [← stepped] at returns
  refine ⟨n + 1, errand, ?_, returns.front⟩
  rw [← alone.store_next]
  exact works

/-- The induction is on what the job still does. Every answer that is not a command comes from the
artifacts as the job itself left them. -/
theorem returns_active (rest : Activity) (log : OpenLog) (met : Nat → Engine × DeadLetters)
    (alone : Alone terms ⟨record, job, .active log rest⟩ met) :
    ∃ n errand, rest.Works (met 0).1.store errand ∧
      Returns terms ⟨record, job, .active log rest⟩ met n errand := by
  have serves := alone.serves 0
  induction rest generalizing log met with
  | done => exact ⟨1, _, .done, returns_at_once .success alone rfl rfl rfl⟩
  | fault f => exact ⟨1, _, .fault f, returns_at_once (.fault f) alone rfl rfl rfl⟩
  | log level message next ih =>
    obtain ⟨n, errand, works, returns⟩ := returns_later alone rfl fun met' alone' =>
      ih _ met' alone' (alone'.serves 0)
    exact ⟨n, _, works.log, returns⟩
  | checkIn message next ih =>
    obtain ⟨n, errand, works, returns⟩ := returns_later alone rfl fun met' alone' =>
      ih log met' alone' (alone'.serves 0)
    have same : ((met 0).1.checkIn record.id message).2.store = (met 0).1.store :=
      Engine.write_store _ _ _
    exact ⟨n, _, .checkIn (same ▸ works), returns⟩
  | poll next ih =>
    obtain ⟨n, errand, works, returns⟩ := returns_later alone rfl fun met' alone' =>
      ih ((met 0).1.heard record.id) log met' alone' (alone'.serves 0)
    exact ⟨n, _, .poll _ works, returns⟩
  | sleep ms next ih =>
    obtain ⟨n, errand, works, returns⟩ := returns_later alone rfl fun met' alone' =>
      ih log met' alone' (alone'.serves 0)
    exact ⟨n, _, .sleep works, returns⟩
  | order command next ih =>
    obtain ⟨n, errand, works, returns⟩ := returns_later alone rfl fun met' alone' =>
      ih _ log met' alone' (alone'.serves 0)
    have same : ((met 0).1.sendCommand record.id command).2.store = (met 0).1.store :=
      Engine.write_store _ _ _
    exact ⟨n, _, .order _ (same ▸ works), returns⟩
  | repositories next ih =>
    have answer : (met 0).1.listRepositories = .ok (met 0).1.store.names := by
      simp [Engine.listRepositories, serves]
    obtain ⟨n, errand, works, returns⟩ := returns_later alone rfl fun met' alone' =>
      ih _ log met' alone' (alone'.serves 0)
    exact ⟨n, _, .repositories (answer ▸ works), returns⟩
  | list repository next ih =>
    have answer : (met 0).1.listArtifacts repository = (met 0).1.store.list repository := by
      simp [Engine.listArtifacts, serves]
    obtain ⟨n, errand, works, returns⟩ := returns_later alone rfl fun met' alone' =>
      ih _ log met' alone' (alone'.serves 0)
    exact ⟨n, _, .list (answer ▸ works), returns⟩
  | find digest next ih =>
    have answer : (met 0).1.findArtifact digest = .ok ((met 0).1.store.find? digest) := by
      simp [Engine.findArtifact, serves]
    obtain ⟨n, errand, works, returns⟩ := returns_later alone rfl fun met' alone' =>
      ih _ log met' alone' (alone'.serves 0)
    exact ⟨n, _, .find (answer ▸ works), returns⟩
  | delete repository digest next ih =>
    obtain ⟨answer, left⟩ := Engine.deleteArtifact_serving serves repository digest
    have goes : (act record (met 0).1 log (.delete repository digest next)).1 =
        .active log (next ((met 0).1.deleteArtifact repository digest).1) := rfl
    have removes : (act record (met 0).1 log (.delete repository digest next)).2.store =
        (met 0).1.store.change (.delete repository digest) := left
    rw [answer] at goes
    obtain ⟨n, errand, works, returns⟩ := returns_later alone goes fun met' alone' =>
      ih _ log met' alone' (alone'.serves 0)
    exact ⟨n, _, .delete (removes ▸ works), returns⟩

end Run

end Delivery

/-! ## Runs of a job -/

/-- A run of a job on some artifacts that nobody else changes. What others do meanwhile shows in
the engines it meets. -/
structure SoleRun (job : Job) (parameters : Parameters) (store : ArtifactStore) where
  terms : Terms
  record : Record
  log : OpenLog
  earlier : Nat
  met : Nat → Engine × DeadLetters
  given : record.parameters = parameters
  begins : (met 0).1.store = store
  alone : (Delivery.called job record log earlier).Alone terms met

namespace SoleRun

variable {job : Job} {parameters : Parameters} {store : ArtifactStore}

def delivery (run : SoleRun job parameters store) : Delivery :=
  Delivery.called job run.record run.log run.earlier

/-- The stage after `n` steps. -/
def stage (run : SoleRun job parameters store) (n : Nat) : Stage :=
  (run.delivery.after run.terms run.met n).stage

/-- What the checkpoints met in the first `n` steps. -/
def asked (run : SoleRun job parameters store) (n : Nat) : List (Option Command) :=
  run.delivery.asked run.terms run.met n

def deeds (run : SoleRun job parameters store) (n : Nat) : List Deed :=
  run.delivery.trace run.terms run.met n

/-- The artifacts after `n` steps. -/
def left (run : SoleRun job parameters store) (n : Nat) : ArtifactStore := (run.met n).1.store

/-- After `n` steps the run has succeeded, no checkpoint met a command, and this is what was
checked in. -/
structure Completes (run : SoleRun job parameters store) (n checkpoints : Nat) (report : String) :
    Prop where
  stage : run.stage n = .ended .succeeded
  asked : run.asked n = List.replicate checkpoints none
  reports : checkIns (run.deeds n) = [report]

/-- After `n` steps the run has ended with the error of a command, which was met at the checkpoint
that follows `before` others, and nothing was checked in. -/
structure Halts (run : SoleRun job parameters store) (n before : Nat) (command : Command) :
    Prop where
  stage : run.stage n = .ended (.ofFault command.fault)
  asked : run.asked n = List.replicate before none ++ [some command]
  silent : checkIns (run.deeds n) = []

/-- After `n` steps the run has crashed, no checkpoint met a command, and nothing was checked in. -/
structure Crashes (run : SoleRun job parameters store) (n checkpoints : Nat) (crash : Crash) :
    Prop where
  stage : run.stage n = .ended (.failed (.ofCrash crash))
  asked : run.asked n = List.replicate checkpoints none
  silent : checkIns (run.deeds n) = []

/-- After `n` steps the run has come to this. -/
structure ComesTo (run : SoleRun job parameters store) (n : Nat) (errand : Errand) : Prop where
  stage : run.stage n = .ended errand.ending.outcome
  asked : run.asked n = errand.asked
  checkIns : checkIns (run.deeds n) = checkIns errand.deeds
  removals : removals (run.deeds n) = removals errand.deeds
  left : run.left n = errand.left

section ComesTo

variable {run : SoleRun job parameters store} {n : Nat} {errand : Errand}

theorem ComesTo.completes {checkpoints : Nat} {report : String} (comes : run.ComesTo n errand)
    (completes : errand.Completes checkpoints report) : run.Completes n checkpoints report where
  stage := by
    rw [comes.stage, completes.ending]
    rfl
  asked := comes.asked.trans completes.asked
  reports := comes.checkIns.trans completes.reports

theorem ComesTo.halts {before : Nat} {command : Command} (comes : run.ComesTo n errand)
    (halts : errand.Halts before command) : run.Halts n before command where
  stage := by
    rw [comes.stage, halts.ending]
    rfl
  asked := comes.asked.trans halts.asked
  silent := comes.checkIns.trans halts.silent

theorem ComesTo.crashes {checkpoints : Nat} {crash : Crash} (comes : run.ComesTo n errand)
    (crashes : errand.Crashes checkpoints crash) : run.Crashes n checkpoints crash where
  stage := by
    rw [comes.stage, crashes.ending]
    rfl
  asked := comes.asked.trans crashes.asked
  silent := comes.checkIns.trans crashes.silent

end ComesTo

/-- After `n` steps the run is over. -/
def Ends (run : SoleRun job parameters store) (n : Nat) : Prop :=
  (∃ checkpoints report, run.Completes n checkpoints report) ∨
    ∃ before command, run.Halts n before command

/-- A run comes to what its code comes to. -/
theorem comes_to (run : SoleRun job parameters store) {code : Activity}
    (runs : ∀ id jobType earlier, job.run ⟨id, jobType, parameters, earlier⟩ = code) :
    ∃ n errand, code.Works store errand ∧ run.ComesTo n errand := by
  obtain ⟨n, errand, works, returns⟩ := Delivery.returns_active _ run.log run.met run.alone
  rw [run.given, runs, run.begins] at works
  have trace : run.deeds n = errand.deeds ++ [.closed] := returns.deeds
  refine ⟨n, errand, works, returns.stage, returns.asked, ?_, ?_, returns.left⟩
  · rw [trace, checkIns_append]
    exact List.append_nil _
  · rw [trace, removals_append]
    exact List.append_nil _

end SoleRun

/-! ## Undisturbed runs -/

namespace Delivery

/-- The delivery and what is around it after `n` steps, if nobody else does anything. -/
def quietly (terms : Terms) (d : Delivery) (e : Engine) (letters : DeadLetters) :
    Nat → Delivery × Engine × DeadLetters
  | 0 => (d, e, letters)
  | n + 1 =>
    let (d, e, letters) := d.quietly terms e letters n
    d.step terms e letters

theorem alone_quietly {terms : Terms} {d : Delivery} {e : Engine} {letters : DeadLetters}
    (serves : e.storeOutage = []) :
    d.Alone terms (fun n => (d.quietly terms e letters n).2) := by
  have after (n : Nat) : d.after terms (fun n => (d.quietly terms e letters n).2) n =
      (d.quietly terms e letters n).1 := by
    induction n with
    | zero => rfl
    | succ n ih => rw [Delivery.after, ih, quietly]
  constructor
  · intro n
    induction n with
    | zero => exact serves
    | succ n ih =>
      rw [← ih]
      exact (step_beyond _ terms _ _).storeOutage
  · intro n
    rw [after, quietly]

end Delivery

/-- A run in which nobody else does anything. -/
def SoleRun.quiet (job : Job) (parameters : Parameters) (e : Engine) (serves : e.storeOutage = []) :
    SoleRun job parameters e.store :=
  let record : Record := .ofRequest ⟨job.jobType, parameters, none⟩ (.ofNat 1) e.now
  let terms : Terms := ⟨⟨defaultMaxFails⟩, .recorder⟩
  let met := Delivery.quietly terms (.called job record .recorder 0) e { grace := 0 }
  { terms, record
    log := .recorder
    earlier := 0
    met := fun n => (met n).2
    given := rfl
    begins := rfl
    alone := Delivery.alone_quietly serves }

end JobEngine
