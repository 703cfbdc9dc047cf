import JobEngine.Delivery
import JobEngine.Periodic
import JobEngine.Script

/-!
# Parameters at submission and at delivery

A job checks its parameters twice: when a request for it is submitted and when
the record is delivered. A delivery contains whatever goes wrong in the check.
The client does not: a check that crashes takes the caller of the client with
it, and the callers of enqueue and schedule too. So both places turn down the
same parameters, but a submission answers with an error only as long as the
check returns.
-/
namespace JobEngine

/-! ## Delivery -/

namespace Delivery

/-- The log can be opened, and then the parameters are turned down for this reason. -/
structure TurnsDown (target : LogTarget) (job : Job) (record : Record) (e : Engine)
    (reason : JobError) : Prop where
  opens : ∃ opened, e.logs.openLog target record = .ok opened
  ends : (prepare target job record e).1 = .ended (.buildFailed reason)

theorem turnsDown_iff {target : LogTarget} {job : Job} {record : Record} {e : Engine}
    {opened : OpenLog × LogBook} (opens : e.logs.openLog target record = .ok opened)
    (reason : JobError) :
    TurnsDown target job record e reason ↔
      ∃ f, job.validate record.parameters = .error f ∧
        reason = .contextBuild f.contained.message := by
  obtain ⟨log, logs⟩ := opened
  constructor
  · rintro ⟨-, ends⟩
    cases checked : job.validate record.parameters with
    | ok _ => simp [prepare, opens, checked] at ends
    | error f =>
      refine ⟨f, rfl, ?_⟩
      simpa [prepare, opens, checked, eq_comm] using ends
  · rintro ⟨f, checked, rfl⟩
    exact ⟨⟨_, opens⟩, by simp [prepare, opens, checked]⟩

theorem exists_turnsDown {target : LogTarget} {job : Job} {record : Record} {e : Engine}
    (opens : ∃ opened, e.logs.openLog target record = .ok opened) :
    (∃ reason, TurnsDown target job record e reason) ↔
      ∃ f, job.validate record.parameters = .error f := by
  obtain ⟨opened, opens⟩ := opens
  constructor
  · rintro ⟨reason, turned⟩
    obtain ⟨f, down, -⟩ := (turnsDown_iff opens reason).mp turned
    exact ⟨f, down⟩
  · rintro ⟨f, down⟩
    exact ⟨_, (turnsDown_iff opens _).mpr ⟨f, down, rfl⟩⟩

end Delivery

/-! ## Submission -/

/-- What the client makes of a check that does not accept. -/
def CheckFault.ofFault : Fault → CheckFault
  | .error e => .refused (.invalidParameters e.message)
  | .crash c => .crashed c

theorem CheckFault.ofFault_eq_crashed {f : Fault} {c : Crash} :
    ofFault f = .crashed c ↔ f = .crash c := by
  cases f <;> simp [ofFault]

theorem CheckFault.ofFault_eq_refused {f : Fault} {err : QueueError} :
    ofFault f = .refused err ↔
      ∃ reason, f = .error reason ∧ err = .invalidParameters reason.message := by
  cases f <;> simp [ofFault, eq_comm]

namespace Client

section Registered

variable {registry : Registry} {request : Request} {job : Job}

theorem check_error_iff (registered : registry.find? request.jobType = some job)
    (fault : CheckFault) :
    check registry request = .error fault ↔
      ∃ f, job.validate request.parameters = .error f ∧ fault = .ofFault f := by
  cases checked : job.validate request.parameters with
  | ok _ => simp [check, registered, checked]
  | error f => cases f <;> simp [check, registered, checked, CheckFault.ofFault, eq_comm]

theorem check_turned_iff (registered : registry.find? request.jobType = some job) :
    (∃ fault, check registry request = .error fault) ↔
      ∃ f, job.validate request.parameters = .error f := by
  simp only [check_error_iff registered]
  constructor
  · rintro ⟨-, f, down, -⟩
    exact ⟨f, down⟩
  · rintro ⟨f, down⟩
    exact ⟨_, f, down, rfl⟩

theorem check_crashed_iff (registered : registry.find? request.jobType = some job) :
    (∃ c, check registry request = .error (.crashed c)) ↔
      ∃ c, job.validate request.parameters = .error (.crash c) := by
  simp only [check_error_iff registered]
  constructor
  · rintro ⟨c, f, down, same⟩
    rw [CheckFault.ofFault_eq_crashed.mp same.symm] at down
    exact ⟨c, down⟩
  · rintro ⟨c, down⟩
    exact ⟨c, .crash c, down, rfl⟩

theorem check_refused_iff (registered : registry.find? request.jobType = some job) :
    (∃ err, check registry request = .error (.refused err)) ↔
      (∃ f, job.validate request.parameters = .error f) ∧
        ¬∃ c, job.validate request.parameters = .error (.crash c) := by
  simp only [check_error_iff registered]
  constructor
  · rintro ⟨err, f, down, same⟩
    obtain ⟨reason, rfl, -⟩ := CheckFault.ofFault_eq_refused.mp same.symm
    refine ⟨⟨_, down⟩, fun ⟨c, crash⟩ => ?_⟩
    rw [down] at crash
    cases crash
  · rintro ⟨⟨f, down⟩, contained⟩
    cases f with
    | error reason => exact ⟨_, .error reason, down, rfl⟩
    | crash c => exact absurd ⟨c, down⟩ contained

end Registered

section Outcomes

variable {e : Engine} {request : Request}

theorem enqueue_unchecked {fault : CheckFault} (turned : check e.registry request = .error fault)
    (id : JobId) : enqueue request id e = (.error fault, e) := by
  rw [enqueue, turned]

/-- An accepted request is lost only if the tracker does not answer. -/
theorem enqueue_checked (accepted : check e.registry request = .ok ()) (id : JobId) :
    (enqueue request id e).1 = .ok () ↔ (e.setStatus id .pending).1 = .ok () := by
  rw [enqueue, accepted]
  simp only [submit, Record.ofRequest]
  cases told : e.setStatus id .pending with
  | mk answer after => cases answer <;> simp

theorem schedule_unchecked {registry : Registry} {fault : CheckFault}
    (turned : check registry request = .error fault) (cron : String) (id : JobId) (now : Nat)
    (answer : Except String Unit) (p : Periodic) :
    p.schedule registry request cron id now answer = .error fault := by
  rw [Periodic.schedule, turned]

/-- An accepted request is scheduled unless the times or the table of timers are at fault. -/
theorem schedule_checked {registry : Registry} (accepted : check registry request = .ok ())
    (cron : String) (id : JobId) (now : Nat) (answer : Except String Unit) (p : Periodic) :
    (∃ after, p.schedule registry request cron id now answer = .ok after) ↔
      (Time.Cron.parse? cron).isSome ∧ answer = .ok () := by
  rw [Periodic.schedule, accepted]
  cases Time.Cron.parse? cron with
  | none => simp
  | some pattern => cases answer <;> simp

end Outcomes

/-! ## Both -/

/-- A submission and a delivery turn down the same parameters. The submission answers with an error
unless the check crashes; the crash of the check reaches the caller. What is turned down changes
nothing, and nothing else about the parameters stands in the way of a request. -/
theorem checks_agree {e : Engine} {request : Request} {job : Job}
    (registered : e.registry.find? request.jobType = some job) :
    let checked := check e.registry request
    let crashes := ∃ c, job.validate request.parameters = .error (.crash c)
    (∀ (target : LogTarget) (record : Record) (around : Engine),
      record.parameters = request.parameters →
      (∃ opened, around.logs.openLog target record = .ok opened) →
        let turnedDown := ∃ reason, Delivery.TurnsDown target job record around reason
        ((∃ fault, checked = .error fault) ↔ turnedDown) ∧
          ((∃ err, checked = .error (.refused err)) ↔ turnedDown ∧ ¬crashes)) ∧
      ((∃ c, checked = .error (.crashed c)) ↔ crashes) ∧
      (∀ fault, checked = .error fault →
        (∀ id, enqueue request id e = (.error fault, e)) ∧
          ∀ cron id now answer (p : Periodic),
            p.schedule e.registry request cron id now answer = .error fault) ∧
      (checked = .ok () →
        (∀ id, (enqueue request id e).1 = .ok () ↔ (e.setStatus id .pending).1 = .ok ()) ∧
          ∀ cron id now answer (p : Periodic),
            (∃ after, p.schedule e.registry request cron id now answer = .ok after) ↔
              (Time.Cron.parse? cron).isSome ∧ answer = .ok ()) := by
  intro checked crashes
  refine ⟨?_, check_crashed_iff registered, ?_, ?_⟩
  · intro target record around given opens turnedDown
    have delivered : turnedDown ↔ ∃ f, job.validate request.parameters = .error f := by
      rw [← given]
      exact Delivery.exists_turnsDown opens
    rw [delivered]
    exact ⟨check_turned_iff registered, check_refused_iff registered⟩
  · intro fault turned
    exact ⟨enqueue_unchecked turned, fun cron id now answer p =>
      schedule_unchecked turned cron id now answer p⟩
  · intro accepted
    exact ⟨enqueue_checked accepted, fun cron id now answer p =>
      schedule_checked accepted cron id now answer p⟩

/-- A service that knows one job, which checks its parameters in this way. -/
def knowing (check : ScriptCheck) : Engine where
  clock := 0
  registry := ⟨[Script.job { jobType := "fragile", check }]⟩

theorem checks_agree_require :
    let e := knowing (.require "image")
    let job := Script.job { jobType := "fragile", check := .require "image" }
    let request : Request := ⟨"fragile", [], none⟩
    let record : Record := .ofRequest request (.ofNat 7) e.now
    let turned : CheckFault :=
      .refused (.invalidParameters "invalid parameters: missing 'image'")
    e.registry.find? request.jobType = some job ∧ record.parameters = request.parameters ∧
      (∃ opened, e.logs.openLog .recorder record = .ok opened) ∧
      check e.registry request = .error turned ∧
      (∃ reason, Delivery.TurnsDown .recorder job record e reason) ∧
      enqueue request (.ofNat 7) e = (.error turned, e) := by
  intro e job request record turned
  have registered : e.registry.find? request.jobType = some job := rfl
  have opens : ∃ opened, e.logs.openLog .recorder record = .ok opened := ⟨_, rfl⟩
  have checked : check e.registry request = .error turned := rfl
  obtain ⟨agree, -, unchanged, -⟩ := checks_agree registered
  exact ⟨registered, rfl, opens, checked, (agree .recorder record e rfl opens).1.mp ⟨_, checked⟩,
    (unchanged turned checked).1 (.ofNat 7)⟩

/-- The delivery turns the parameters down; the client has no error to answer with, and its caller
ends with the crash. -/
theorem check_crashes :
    let e := knowing (.fault (.crash (.message "boom")))
    let job := Script.job { jobType := "fragile", check := .fault (.crash (.message "boom")) }
    let request : Request := ⟨"fragile", [], none⟩
    let record : Record := .ofRequest request (.ofNat 7) e.now
    let crash : CheckFault := .crashed (.message "boom")
    e.registry.find? request.jobType = some job ∧
      Delivery.TurnsDown .recorder job record e (.contextBuild "runtime error: boom") ∧
      (¬∃ err, check e.registry request = .error (.refused err)) ∧
      check e.registry request = .error crash ∧ crash.text = "runtime error: boom" ∧
      enqueue request (.ofNat 7) e = (.error crash, e) ∧
      Periodic.schedule e.registry request "0 0 * * * *" (.ofNat 8) 0 (.ok ()) {} =
        .error crash := by
  intro e job request record crash
  have checked : check e.registry request = .error crash := rfl
  refine ⟨rfl, ⟨⟨_, rfl⟩, rfl⟩, ?_, checked, rfl, rfl, rfl⟩
  rintro ⟨err, turned⟩
  simp [checked, crash] at turned

end Client

end JobEngine
