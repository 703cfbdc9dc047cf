import JobEngine.Proofs.StatusCourse

/-!
# The entries of live jobs

Whether an entry may be evicted is judged by its status and its time of death
alone, and a failed attempt that is retried looks like a failure for good. What
keeps the entry of a live job is that the time of death is only written by the
confirmation, which is scheduled when no retry can follow and is gone when it
has been written.
-/
namespace JobEngine

/-- The final status of the delivery is still to be written. -/
def Stage.isOpen : Stage → Bool
  | .fetched | .announced | .active _ _ | .ended _ => true
  | .reported _ | .decided _ => false

/-- The final status of the record's attempt is still to be written. -/
def Station.isOpen : Station → Bool
  | .appending | .queued | .fetched _ | .running _ | .stray => true
  | _ => false

theorem Stage.isOpen_station (stage : Stage) (job : Job) :
    (stage.station job).isOpen = stage.isOpen := by
  cases stage <;> rfl

namespace World

/-- More is still to be written to the entry of the job: its record waits, or is in hand with the
final status of the attempt unwritten, or the confirmation of its death waits. -/
inductive Live (s : World) (id : JobId) : Prop
  | appending {record : Record} (submitted : .appending record ∈ s.callers)
      (own : record.id = id)
  | pending {record : Record} (waits : record ∈ s.engine.queue.pending) (own : record.id = id)
  | carried {d : Delivery} (held : .carrying d ∈ s.pool.workers) (own : d.record.id = id)
      (unwritten : d.stage.isOpen = true)
  | stray {record : Record} (held : .stray record ∈ s.pool.workers) (own : record.id = id)
  | doomed {c : Confirmation} (waits : c ∈ s.pool.letters.waiting) (own : c.id = id)

end World

namespace Lived

variable {origin : World} {id : JobId} {l : Life}

theorem unsettled (lived : Lived origin l) (live : l.station.isOpen = true ∨ l.waiting ≠ []) :
    (Account.of l.story).settled = false := by
  have accords := lived.accords
  rcases live with unwritten | waits
  · have fits := accords.station
    cases here : l.station with
    | appending | queued | fetched job | stray =>
      rw [here] at fits
      exact Account.settled_of_open fits.1 fits.2.1 fits.2.2
    | running job =>
      rw [here] at fits
      exact Account.settled_of_open fits.1 (by simp [fits.2]) (by simp [fits.2])
    | _ =>
      rw [here] at unwritten
      cases unwritten
  · obtain ⟨c, waits⟩ := List.exists_mem_of_ne_nil _ waits
    have fate := (accords.of_waiting waits).1
    have fits := accords.station
    have failed : (Account.of l.story).status = some .error ∨
        (Account.of l.story).status = some .cancelled := by
      cases here : l.station with
      | decided job result =>
        rw [here] at fits
        cases result with
        | ok => simp [Account.Fits, fate] at fits
        | error err => exact fits.1
      | buried =>
        rw [here] at fits
        exact fits
      | _ => simp [here, Account.Fits, fate] at fits
    exact Account.settled_of_failed (by rw [fate]; rfl) failed

theorem entry_of_live (lived : Lived origin l) (announced : .announced id ∈ l.story)
    (live : l.station.isOpen = true ∨ l.waiting ≠ []) :
    ∃ stats, l.entry = some stats ∧ stats.isSettled = false := by
  have unsettled := lived.unsettled live
  have heard : ∃ status, (Account.of l.story).status = some status := by
    rw [Account.status_eq, lived.statuses announced]
    exact ⟨_, List.getLast?_eq_some_getLast (List.cons_ne_nil _ _)⟩
  obtain ⟨status, heard⟩ := heard
  have matched := lived.accords.entry
  obtain ⟨stats, entry⟩ := matched.tracked unsettled heard
  rw [entry] at matched
  exact ⟨stats, entry, matched.isSettled.trans unsettled⟩

end Lived

/-- Who is through has a settled entry. -/
theorem Stats.isTerminal_of_unsettled {s : Stats} (unsettled : s.isSettled = false) :
    s.status.isTerminal = false := by
  cases status : s.status <;> simp_all [Stats.isSettled, Status.isTerminal]

section Calls

variable {e : Engine} {id : JobId} {stats : Stats} (online : e.trackerOutage = [])
  (known : e.tracker.find? id = some stats)

include online known

/-- A change of an entry that is there is accepted. -/
theorem Engine.write_known (call : TrackerCall) (f : Stats → Stats) :
    (e.write call fun t => t.update id f).1 = .ok () := by
  simp [write, online, Tracker.update, known]

theorem Client.stats_known : Client.stats e id = .ok stats := by
  simp [Client.stats, Engine.stats?, online, known]

theorem Client.send_unsettled (unsettled : stats.isSettled = false) (command : Command) :
    (Client.send id command e).1 = .ok () := by
  have unfinished : Client.checkOpen e id = .ok () := by
    simp [checkOpen, stats_known online known, Stats.isTerminal_of_unsettled unsettled]
  simp only [send, unfinished]
  exact Engine.write_known online known .sendCommand _

end Calls

namespace World

variable {origin s : World} {id : JobId}

theorem Live.entry (tracked : Tracked origin s) (announced : .announced id ∈ s.history)
    (live : s.Live id) :
    ∃ stats, s.engine.tracker.find? id = some stats ∧ stats.isSettled = false := by
  have kept (token : Token) (there : token ∈ s.tokens) (own : token.1.id = id)
      (unwritten : token.2.isOpen = true ∨ (s.life token).waiting ≠ []) :
      ∃ stats, s.engine.tracker.find? id = some stats ∧ stats.isSettled = false := by
    subst own
    exact (tracked.lived token there).entry_of_live (told_of_token announced rfl) unwritten
  cases live with
  | appending submitted own => exact kept _ (token_of_caller submitted rfl) own (Or.inl rfl)
  | pending waits own => exact kept _ (token_of_pending waits) own (Or.inl rfl)
  | @carried d held own unwritten =>
    exact kept _ (token_of_worker held rfl) own
      (Or.inl ((d.stage.isOpen_station d.job).trans unwritten))
  | stray held own => exact kept _ (token_of_worker held rfl) own (Or.inl rfl)
  | doomed waits own =>
    obtain ⟨token, there, same, -⟩ := life_of_told tracked announced
    have mem : _ ∈ (s.life token).waiting :=
      List.mem_filter.mpr ⟨waits, decide_eq_true (own.trans same.symm)⟩
    exact kept token there same (Or.inr (List.ne_nil_of_mem mem))

/-- However many jobs there are, a live job that a client submitted has an entry that is not
settled, and no call that asks for the entry misses it. -/
theorem live_entry_kept (launched : origin.Launched) (moves : List Move)
    (announced : .announced id ∈ (origin.run moves).history) (live : (origin.run moves).Live id) :
    let s := origin.run moves
    ∃ stats, s.engine.tracker.find? id = some stats ∧ stats.isSettled = false ∧
      Client.stats s.engine id = .ok stats ∧
      (∀ command, (Client.send id command s.engine).1 = .ok () ∧
        (s.engine.sendCommand id command).1 = .ok ()) ∧
      (∀ message, (s.engine.checkIn id message).1 = .ok ()) ∧
      ∀ diedAt, (s.engine.markDeadAt id diedAt).1 = .ok () := by
  intro s
  have tracked := launched.tracked_run moves
  obtain ⟨stats, known, unsettled⟩ := live.entry tracked announced
  have accepted := Engine.write_known tracked.online known
  exact ⟨stats, known, unsettled, Client.stats_known tracked.online known,
    fun command => ⟨Client.send_unsettled tracked.online known unsettled command,
      accepted .sendCommand _⟩,
    fun message => accepted .checkIn _, fun diedAt => accepted .markDeadAt _⟩

/-- A job that failed and waits for its second attempt can be cancelled. -/
theorem live_entry_kept_broken :
    let s := (workshop broken).run firstAttempt
    (workshop broken).Launched ∧ .announced (.ofNat 7) ∈ s.history ∧ s.Live (.ofNat 7) ∧
      (Client.send (.ofNat 7) .cancel s.engine).1 = .ok () := by
  intro s
  have told : .announced (.ofNat 7) ∈ s.history := by decide +kernel
  obtain ⟨record, waits, own⟩ : ∃ record ∈ s.engine.queue.pending, record.id = .ofNat 7 := by
    decide +kernel
  have live : s.Live (.ofNat 7) := .pending waits own
  obtain ⟨stats, -, -, -, sends, -⟩ :=
    live_entry_kept (workshop_launched broken) firstAttempt told live
  exact ⟨workshop_launched broken, told, live, (sends .cancel).1⟩

end World

end JobEngine
