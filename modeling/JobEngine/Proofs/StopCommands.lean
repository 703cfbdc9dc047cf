import JobEngine.Proofs.Runs
import Mathlib.Data.List.Induction

/-!
# How long a stop command lasts

A command waits in the entry of its job until the job asks for it. Running
again leaves it there, but every status that ends a delivery takes it away,
also that of a failure after which the record is delivered once more. So a job
that was told to stop stops at its next checkpoint if that comes in the same
attempt, and in a later one the checkpoint lets it pass.
-/
namespace JobEngine

/-- A status was written that neither waits nor runs. -/
def Event.closes (event : Event) : Bool :=
  match event.status? with
  | some status => !status.isOpen
  | none => false

namespace Account

theorem after_command (a : Account) {event : Event}
    (obeyed : ∀ id command, event ≠ .commanded id command) :
    (a.after event).command = if event.closes then none else a.command := by
  cases event with
  | commanded id command => exact absurd rfl (obeyed id command)
  | ended id outcome => cases outcome <;> rfl
  | _ => rfl

/-- Without further commands the last one stays until a status closes the job. -/
theorem command_append (story later : List Event)
    (obeyed : ∀ event ∈ later, ∀ id command, event ≠ .commanded id command) :
    (of (story ++ later)).command =
      if ∃ event ∈ later, event.closes then none else (of story).command := by
  induction later using List.reverseRecOn with
  | nil => simp
  | append_singleton later event ih =>
    have before := ih fun other mem => obeyed other (List.mem_append_left _ mem)
    have last := obeyed event (List.mem_append_right _ (List.mem_singleton_self event))
    have grown : (∃ other ∈ later ++ [event], other.closes) ↔
        (∃ other ∈ later, other.closes) ∨ event.closes := by
      simp [or_and_right, exists_or]
    rw [← List.append_assoc, of_append, after_command _ last, before]
    simp only [grown]
    by_cases closes : event.closes = true
    · simp only [closes, or_true, if_true]
    · simp only [closes, or_false, Bool.false_eq_true, if_false]

end Account

namespace World

variable {origin s : World} {index : Nat}

/-- What a running job is answered that asks for its command. -/
theorem command_running (tracked : Tracked origin s) {record : Record} {job : Job}
    {log : OpenLog} {rest : Activity}
    (here : s.pool.workers[index]? = some (.carrying ⟨record, job, .active log rest⟩)) :
    s.engine.command? record.id =
      .ok (Account.of (s.history.filter (·.job = record.id))).command := by
  have mem : (record, Station.running job) ∈ s.tokens := by
    obtain ⟨others, before, -⟩ := tokens_stepped here
    rw [before]
    exact Multiset.mem_add.mpr (Or.inl (List.mem_singleton_self _))
  obtain ⟨entry, -, fate, running⟩ := (tracked.lived _ mem).accords
  have unsettled := Account.settled_of_open fate (by simp [running]) (by simp [running])
  obtain ⟨stats, known⟩ := entry.tracked unsettled running
  rw [known] at entry
  have found : s.engine.tracker.find? record.id = some stats := known
  simp only [Engine.command?, tracked.online, List.not_mem_nil, if_false, Tracker.command?, found,
    Option.bind_some]
  exact congrArg _ entry.2.2.1

theorem work_checkpoint {record : Record} {job : Job} {log : OpenLog} {next : Activity}
    (here : s.pool.workers[index]? =
      some (.carrying ⟨record, job, .active log (Activity.checkpoint next)⟩)) :
    (s.work index).pool.workers[index]? = some (.carrying ⟨record, job, .active log
      (match s.engine.command? record.id with
      | .ok (some .stop) => .log .info "stop command received" (Activity.fail .stopped)
      | .ok (some .cancel) => .log .info "cancel command received" (Activity.fail .cancelled)
      | _ => next)⟩) := by
  have inside : index < s.pool.workers.length := (List.getElem?_eq_some_iff.mp here).1
  rw [work_eq here]
  simp only [Worker.step_active, Activity.checkpoint, Delivery.act, stepped,
    List.getElem?_set_self inside]
  cases s.engine.command? record.id with
  | error err => rfl
  | ok command =>
    rcases command with _ | _ | _ <;> rfl

/-- After a stop that was accepted, and no command since, a checkpoint of the job stops it exactly
if no attempt was closed in between. -/
theorem checkpoint_after_stop (launched : origin.Launched) (first moves : List Move)
    {caller : Nat} {id : JobId}
    (ordered : (origin.run first).callers[caller]? = some (.ordering id .stop))
    (accepted : ((origin.run first).engine.sendCommand id .stop).1 = .ok ())
    {later : List Event}
    (since : (((origin.run first).proceed caller).run moves).history =
      ((origin.run first).proceed caller).history ++ later)
    (obeyed : ∀ command, .commanded id command ∉ later)
    {record : Record} {job : Job} {log : OpenLog} {next : Activity} (own : record.id = id)
    (here : (((origin.run first).proceed caller).run moves).pool.workers[index]? =
      some (.carrying ⟨record, job, .active log (Activity.checkpoint next)⟩)) :
    ((((origin.run first).proceed caller).run moves).work index).pool.workers[index]? =
      some (.carrying ⟨record, job, .active log
        (if ∃ event ∈ later, event.job = id ∧ event.closes then next
        else .log .info "stop command received" (Activity.fail .stopped))⟩) := by
  subst own
  have tracked := ((launched.tracked_run first).proceed caller).run moves
  have told : ((origin.run first).proceed caller).history =
      (origin.run first).history ++ [.commanded record.id .stop] := by
    simp only [proceed_eq ordered, called, Caller.events, Engine.commandEvents, accepted]
  have story : (((origin.run first).proceed caller).run moves).history.filter
      (·.job = record.id) = ((origin.run first).history.filter (·.job = record.id) ++
        [.commanded record.id .stop]) ++ later.filter (·.job = record.id) := by
    rw [since, told, List.filter_append, List.filter_append]
    simp [Event.job]
  have quiet : ∀ event ∈ later.filter (·.job = record.id), ∀ id command,
      event ≠ .commanded id command := by
    rintro event mem other command rfl
    obtain ⟨mem, same⟩ := List.mem_filter.mp mem
    obtain rfl : other = record.id := of_decide_eq_true same
    exact obeyed command mem
  have closed : (∃ event ∈ later.filter (·.job = record.id), event.closes) ↔
      ∃ event ∈ later, event.job = record.id ∧ event.closes := by
    simp [List.mem_filter, and_assoc]
  rw [work_checkpoint here, command_running tracked here, story,
    Account.command_append _ _ quiet, Account.of_append]
  simp only [closed, Account.after]
  by_cases ended : ∃ event ∈ later, event.job = record.id ∧ event.closes = true
  · simp only [ended, if_true]
  · simp only [ended, if_false]

/-- Fails when it is run for the first time; later it goes on unless it is told otherwise. -/
def flaky : Job where
  jobType := "flaky"
  shouldRetry := true
  run := fun invocation =>
    if invocation.earlierRuns = 0 then .fail (.failed "busy") else .checkpoint .done

/-- A job that runs and is about to be stopped. -/
def orders : List Move :=
  [.submit ⟨"flaky", [], none⟩ (.ofNat 7), .proceed 0, .work 0, .work 0, .order (.ofNat 7) .stop]

/-- The first attempt failed, so the checkpoint of the second one lets the job pass. -/
theorem checkpoint_after_stop_flaky :
    let s := (((workshop flaky).run orders).proceed 1).run (List.replicate 9 (.work 0))
    (workshop flaky).Launched ∧
      ∃ record log, s.pool.workers[0]? =
          some (.carrying ⟨record, flaky, .active log (.checkpoint .done)⟩) ∧
        (s.work 0).pool.workers[0]? = some (.carrying ⟨record, flaky, .active log .done⟩) := by
  intro s
  let stopped := ((workshop flaky).run orders).proceed 1
  let later := s.history.drop stopped.history.length
  have since : s.history = stopped.history ++ later := by decide +kernel
  have obeyed : ∀ command, .commanded (.ofNat 7) command ∉ later := by
    intro command
    cases command <;> decide +kernel
  have closed : ∃ event ∈ later, event.job = .ofNat 7 ∧ event.closes := by decide +kernel
  obtain ⟨record, log, own, here⟩ : ∃ record log, record.id = .ofNat 7 ∧ s.pool.workers[0]? =
      some (.carrying ⟨record, flaky, .active log (.checkpoint .done)⟩) := ⟨_, _, rfl, rfl⟩
  have passes := checkpoint_after_stop (workshop_launched flaky) orders
    (List.replicate 9 (.work 0)) rfl rfl since obeyed own here
  rw [if_pos closed] at passes
  exact ⟨workshop_launched flaky, record, log, here, passes⟩

/-- A job that was told to stop while it ran, and then ran again to its end. -/
theorem stop_forgotten :
    let s := (workshop flaky).run orders
    let stopped := s.proceed 1
    let rerun := stopped.run (List.replicate 14 (.work 0))
    (workshop flaky).Launched ∧
      s.callers[1]? = some (.ordering (.ofNat 7) .stop) ∧
      (s.engine.sendCommand (.ofNat 7) .stop).1 = .ok () ∧
      (stopped.engine.tracker.find? (.ofNat 7)).map (·.status) = some .running ∧
      (∀ command, .commanded (.ofNat 7) command ∉ rerun.history.drop stopped.history.length) ∧
      (rerun.engine.tracker.find? (.ofNat 7)).map (·.status) = some .success ∧
      rerun.engine.queue.completed.map (·.id) = [.ofNat 7] := by
  refine ⟨workshop_launched flaky, rfl, rfl, rfl, ?_, rfl, rfl⟩
  intro command
  cases command <;> decide

end World

end JobEngine
