import JobEngine.Proofs.DeathMarks
import JobEngine.Proofs.LiveEntries
import JobEngine.Proofs.Retention

/-!
# Which commands are accepted

The client judges a job by the status in its entry. Success and Stopped shut
it; under every other status a command is accepted. A record that was moved to
the dead leaves the status of its last failure behind, and a record that waits
for its next attempt has the same one. So a command is accepted for the jobs
that can still run and, as long as their entries are there, for the dead.
-/
namespace JobEngine

namespace World

/-- The job can still run: its record is about to be appended, waits or is in hand. -/
inductive InFlight (s : World) (id : JobId) : Prop
  | appending {record : Record} (submitted : .appending record ∈ s.callers) (own : record.id = id)
  | pending {record : Record} (waits : record ∈ s.engine.queue.pending) (own : record.id = id)
  | held {w : Worker} {record : Record} (there : w ∈ s.pool.workers)
      (holds : w.record? = some record) (own : record.id = id)

/-- The record of the job was completed. -/
def Completed (s : World) (id : JobId) : Prop :=
  ∃ record, .completed record ∈ s.history ∧ record.id = id

/-- The record of the job was moved to the dead. -/
def Buried (s : World) (id : JobId) : Prop := ∃ record, .buried record ∈ s.history ∧ record.id = id

/-- After the status that was written last for the job no run follows. -/
def Through (s : World) (id : JobId) : Prop :=
  ∃ last, (s.statuses id).getLast? = some last ∧ last.isTerminal = true

end World

namespace Client

section Online

variable {e : Engine} {id : JobId} (online : e.trackerOutage = [])

include online

theorem checkOpen_unknown (unknown : e.tracker.find? id = none) :
    checkOpen e id = .error (.notFound id) := by
  simp [checkOpen, stats, Engine.stats?, online, unknown]

theorem checkOpen_known {stats : Stats} (known : e.tracker.find? id = some stats) :
    checkOpen e id = if stats.status.isTerminal then .error (finished stats) else .ok () := by
  simp only [checkOpen, stats_known online known]

end Online

/-- Who is refused leaves everything as it was. -/
theorem send_refused {e : Engine} {id : JobId} {err : QueueError}
    (refused : checkOpen e id = .error err) (command : Command) :
    send id command e = (.error err, e) := by
  simp only [send, refused]

theorem send_open {e : Engine} {id : JobId} (unfinished : checkOpen e id = .ok ())
    (command : Command) : send id command e = e.sendCommand id command := by
  simp only [send, unfinished]

end Client

/-! ## Places -/

theorem Worker.record?_of_token {w : Worker} {token : Token} (holds : w.token? = some token) :
    w.record? = some token.1 := by
  cases w <;> cases holds <;> rfl

theorem Worker.token?_of_record {w : Worker} {record : Record} (holds : w.record? = some record) :
    ∃ station, w.token? = some (record, station) ∧ station ≠ .buried := by
  cases w with
  | carrying d =>
    obtain rfl := Option.some.inj holds
    refine ⟨d.stage.station d.job, rfl, ?_⟩
    cases d.stage <;> simp [Stage.station]
  | stray other | strayMarked other =>
    obtain rfl := Option.some.inj holds
    exact ⟨_, rfl, by simp⟩
  | _ => cases holds

namespace World

variable {origin s : World} {id : JobId}

theorem place_of_token {token : Token} (there : token ∈ s.tokens) :
    s.InFlight token.1.id ∨ s.Completed token.1.id ∨ s.Buried token.1.id := by
  rcases mem_tokens.mp there with ⟨c, called, holds⟩ | ⟨record, waits, rfl⟩ |
    ⟨w, held, holds⟩ | ⟨event, told, moved⟩
  · cases c with
    | appending record =>
      obtain rfl := Option.some.inj holds
      exact .inl (.appending called rfl)
    | _ => cases holds
  · exact .inl (.pending waits rfl)
  · exact .inl (.held held (Worker.record?_of_token holds) rfl)
  · cases event <;> cases moved
    · exact .inr (.inl ⟨_, told, rfl⟩)
    · exact .inr (.inr ⟨_, told, rfl⟩)

theorem InFlight.token (flight : s.InFlight id) :
    ∃ token ∈ s.tokens, token.1.id = id ∧ token.2 ≠ .buried := by
  cases flight with
  | appending submitted own => exact ⟨_, token_of_caller submitted rfl, own, by simp⟩
  | pending waits own => exact ⟨_, token_of_pending waits, own, by simp⟩
  | held there holds own =>
    obtain ⟨station, token, unburied⟩ := Worker.token?_of_record holds
    exact ⟨_, token_of_worker there token, own, unburied⟩

/-- The dead do not run again. -/
theorem Buried.not_inFlight (tracked : Tracked origin s) (buried : s.Buried id) :
    ¬ s.InFlight id := by
  intro flight
  obtain ⟨record, moved, rfl⟩ := buried
  obtain ⟨token, there, own, unburied⟩ := flight.token
  have same := tracked.token_unique there (token_of_event moved rfl) own
  rw [same] at unburied
  exact unburied rfl

theorem Buried.not_through (tracked : Tracked origin s) (buried : s.Buried id) :
    ¬ s.Through id := by
  rintro ⟨last, written, terminal⟩
  obtain ⟨record, moved, rfl⟩ := buried
  rcases last_of_buried tracked moved with failed | failed
  · rw [failed] at written
    cases written
    cases terminal
  · rw [failed] at written
    cases written
    cases terminal

theorem Completed.through (tracked : Tracked origin s) (completed : s.Completed id) :
    s.Through id := by
  obtain ⟨record, moved, rfl⟩ := completed
  rcases last_of_completed tracked moved with last | last
  · exact ⟨_, last, rfl⟩
  · exact ⟨_, last, rfl⟩

theorem through_iff (tracked : Tracked origin s) {stats : Stats}
    (known : s.engine.tracker.find? id = some stats) :
    s.Through id ↔ stats.status.isTerminal = true := by
  simp [Through, last_of_entry tracked known]

/-- What the client's look at a job that was submitted finds. -/
theorem checkOpen_iff (tracked : Tracked origin s) (id : JobId) :
    Client.checkOpen s.engine id = .ok () ↔
      (s.engine.tracker.find? id).isSome ∧ ¬ s.Through id := by
  cases known : s.engine.tracker.find? id with
  | none => simp [Client.checkOpen_unknown tracked.online known]
  | some stats =>
    rw [Client.checkOpen_known tracked.online known, through_iff tracked known]
    by_cases terminal : stats.status.isTerminal = true
    · simp [terminal]
    · simp [terminal]

theorem checkOpen_error (tracked : Tracked origin s) {err : QueueError}
    (refused : Client.checkOpen s.engine id = .error err) :
    s.engine.tracker.find? id = none ∧ err = .notFound id ∨
      s.Through id ∧ ∃ stats, s.engine.tracker.find? id = some stats ∧
        err = Client.finished stats := by
  cases known : s.engine.tracker.find? id with
  | none =>
    rw [Client.checkOpen_unknown tracked.online known] at refused
    exact .inl ⟨rfl, (Except.error.inj refused).symm⟩
  | some stats =>
    rw [Client.checkOpen_known tracked.online known] at refused
    split at refused
    · rename_i terminal
      have through := (through_iff tracked known).mpr terminal
      exact .inr ⟨through, stats, rfl, (Except.error.inj refused).symm⟩
    · cases refused

/-- An accepted command is written into the entry. -/
theorem sendCommand_known (tracked : Tracked origin s) {stats : Stats}
    (known : s.engine.tracker.find? id = some stats) (command : Command) :
    (s.engine.sendCommand id command).1 = .ok () ∧
      (s.engine.sendCommand id command).2.tracker.find? id =
        some { stats with command := some command, updatedAt := s.engine.now } := by
  constructor
  · exact Engine.write_known tracked.online known .sendCommand _
  · have written := Engine.find?_write_update tracked.online id .sendCommand
      (f := fun stats => { stats with command := some command, updatedAt := s.engine.now })
      (by intro s; rfl)
    rw [known] at written
    exact written

/-- A command for a job that a client submitted is accepted exactly while the entry is there and
no status was written after which no run follows. Such a job is in flight or dead, and the dead
are not told from those that still run. -/
theorem accepted_iff (launched : origin.Launched) (moves : List Move)
    (announced : .announced id ∈ (origin.run moves).history) (command : Command) :
    let s := origin.run moves
    let answer := Client.send id command s.engine
    (answer.1 = .ok () ↔
      (s.InFlight id ∨ s.Buried id) ∧ (s.engine.tracker.find? id).isSome ∧ ¬ s.Through id) ∧
    (s.Live id → answer.1 = .ok ()) ∧
    (s.Completed id → s.Through id) ∧
    (s.Buried id → ¬ s.InFlight id ∧ ¬ s.Through id) ∧
    (answer.1 = .ok () → ∃ stats, s.engine.tracker.find? id = some stats ∧
      answer.2.tracker.find? id =
        some { stats with command := some command, updatedAt := s.engine.now }) ∧
    ∀ err, answer.1 = .error err → answer.2 = s.engine ∧
      (s.engine.tracker.find? id = none ∧ err = .notFound id ∨
        s.Through id ∧ ∃ stats, s.engine.tracker.find? id = some stats ∧
          err = Client.finished stats) := by
  intro s answer
  have tracked := launched.tracked_run moves
  have looked := checkOpen_iff tracked id
  have accepted (unfinished : Client.checkOpen s.engine id = .ok ()) :
      ∃ stats, s.engine.tracker.find? id = some stats ∧ answer.1 = .ok () ∧
        answer.2.tracker.find? id =
          some { stats with command := some command, updatedAt := s.engine.now } := by
    obtain ⟨stats, known⟩ := Option.isSome_iff_exists.mp (looked.mp unfinished).1
    have written := sendCommand_known tracked known command
    rw [← Client.send_open unfinished command] at written
    exact ⟨stats, known, written⟩
  have placed (open_ : ¬ s.Through id) : s.InFlight id ∨ s.Buried id := by
    obtain ⟨token, there, own, -⟩ := life_of_told tracked announced
    obtain rfl : token.1.id = id := own
    rcases place_of_token there with flight | completed | buried
    · exact .inl flight
    · exact absurd (completed.through tracked) open_
    · exact .inr buried
  have answered : answer.1 = .ok () ↔ Client.checkOpen s.engine id = .ok () := by
    constructor
    · intro sent
      cases look : Client.checkOpen s.engine id with
      | ok => rfl
      | error err =>
        simp only [answer, Client.send_refused look] at sent
        cases sent
    · intro unfinished
      obtain ⟨-, -, sent, -⟩ := accepted unfinished
      exact sent
  refine ⟨?_, ?_, fun completed => completed.through tracked,
    fun buried => ⟨buried.not_inFlight tracked, buried.not_through tracked⟩, ?_, ?_⟩
  · rw [answered, looked]
    exact ⟨fun found => ⟨placed found.2, found⟩, And.right⟩
  · intro live
    obtain ⟨stats, known, unsettled⟩ := live.entry tracked announced
    exact Client.send_unsettled tracked.online known unsettled command
  · intro sent
    obtain ⟨stats, known, -, written⟩ := accepted (answered.mp sent)
    exact ⟨stats, known, written⟩
  · intro err refused
    cases look : Client.checkOpen s.engine id with
    | ok =>
      rw [answered.mpr look] at refused
      cases refused
    | error other =>
      have same : answer = (.error other, s.engine) := Client.send_refused look command
      rw [same] at refused ⊢
      obtain rfl : other = err := Except.error.inj refused
      exact ⟨rfl, checkOpen_error tracked look⟩

theorem oneDelivery_buried : ((workshop fragile).run oneDelivery).Buried (.ofNat 7) :=
  ⟨⟨.ofNat 7, "fragile", [], 1, none, .ofMillis 0⟩, by decide +kernel, rfl⟩

/-- A job whose only attempt failed accepts a command. -/
theorem accepted_iff_fragile :
    let s := (workshop fragile).run oneDelivery
    (workshop fragile).Launched ∧ .announced (.ofNat 7) ∈ s.history ∧
      s.Buried (.ofNat 7) ∧ (Client.send (.ofNat 7) .stop s.engine).1 = .ok () := by
  intro s
  have told : .announced (.ofNat 7) ∈ s.history := by decide +kernel
  have buried : s.Buried (.ofNat 7) := oneDelivery_buried
  have known : (s.engine.tracker.find? (.ofNat 7)).isSome := by decide +kernel
  obtain ⟨accepted, -, -, dead, -⟩ :=
    accepted_iff (workshop_launched fragile) oneDelivery told .stop
  exact ⟨workshop_launched fragile, told, buried,
    accepted.mpr ⟨.inr buried, known, (dead buried).2⟩⟩

/-- The record is among the dead, nothing is in flight, and the command is written. -/
theorem dead_job_ordered :
    let s := (workshop fragile).run oneDelivery
    let answer := Client.send (.ofNat 7) .stop s.engine
    (workshop fragile).Launched ∧ .announced (.ofNat 7) ∈ s.history ∧
      s.Buried (.ofNat 7) ∧ ¬ s.InFlight (.ofNat 7) ∧ answer.1 = .ok () ∧
      ((s.engine.tracker.find? (.ofNat 7)).bind (·.command)) = none ∧
      ((answer.2.tracker.find? (.ofNat 7)).bind (·.command)) = some .stop := by
  intro s answer
  have tracked := (workshop_launched fragile).tracked_run oneDelivery
  have buried : s.Buried (.ofNat 7) := oneDelivery_buried
  exact ⟨workshop_launched fragile, by decide +kernel, buried, buried.not_inFlight tracked, rfl,
    rfl, rfl⟩

end World

end JobEngine
