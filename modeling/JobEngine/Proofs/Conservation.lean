import JobEngine.Proofs.Runs

/-!
# No record is lost or duplicated

Whatever the order of moves, each record that was handed to the queue is in
one place: it waits, a worker has it in hand, or it was moved to one of the
archives. Nothing of it but its failures has changed. An archive holds the
newest of the records that were moved to it.
-/
namespace JobEngine

namespace Event

def completed? : Event → Option Record
  | .completed record => some record
  | _ => none

def buried? : Event → Option Record
  | .buried record => some record
  | _ => none

end Event

/-! ## Laws of a life -/

namespace Lived

variable {origin : World}

theorem handed_iff {l : Life} (lived : Lived origin l) :
    (∃ record, .handed record ∈ l.story) ↔ l.station ≠ .appending := by
  induction lived with
  | submitted => simp
  | offered => simp
  | handed => simp
  | taken lived here known ih | strayed lived here known ih | marked lived here ih
  | cast lived here ih | began lived here ih | ended outcome lived here ih
  | doomed lived here hopeless ih | completed lived here ih | requeued lived here under ih
  | buried lived here spent ih =>
    obtain ⟨record, mem⟩ := ih.mpr (by simp [here])
    exact ⟨fun _ => by simp, fun _ => ⟨record, List.mem_append_left _ mem⟩⟩
  | spared lived here hopeful ih =>
    obtain ⟨record, mem⟩ := ih.mpr (by simp [here])
    exact ⟨fun _ => by simp, fun _ => ⟨record, mem⟩⟩
  | checkedIn message lived here ih => exact ih
  | commanded command lived tracked ih => simpa using ih
  | confirmed lived waits due ih => simpa using ih
  | dropped lived ih => simpa using ih
  | evicted lived tracked settled ih => exact ih
  | passed ms lived ih => exact ih

/-- Of the record only the failures change. -/
theorem created {l : Life} (lived : Lived origin l) :
    ∃ record, .created record ∈ l.story ∧ l.record = { record with fails := l.record.fails } := by
  induction lived with
  | submitted => exact ⟨_, List.mem_cons_self, rfl⟩
  | offered record clock => exact ⟨record, List.mem_cons_self, rfl⟩
  | handed lived here ih | taken lived here known ih | strayed lived here known ih
  | marked lived here ih | cast lived here ih | began lived here ih | ended outcome lived here ih
  | completed lived here ih | commanded command lived tracked ih | confirmed lived waits due ih
  | dropped lived ih =>
    obtain ⟨record, mem, same⟩ := ih
    exact ⟨record, List.mem_append_left _ mem, same⟩
  | doomed lived here hopeless ih | requeued lived here under ih | buried lived here spent ih =>
    obtain ⟨record, mem, same⟩ := ih
    exact ⟨record, List.mem_append_left _ mem, by simp only [Life.counted]; rw [same]⟩
  | spared lived here hopeful ih | checkedIn message lived here ih
  | evicted lived tracked settled ih | passed ms lived ih => exact ih

end Lived

/-! ## Records -/

namespace World

variable {origin s : World}

/-- All records but those that are still to be appended. -/
def records (s : World) : List Record :=
  s.engine.queue.pending ++ s.pool.workers.filterMap Worker.record? ++
    s.history.filterMap Event.completed? ++ s.history.filterMap Event.buried?

theorem map_archived (history : List Event) :
    ((history.filterMap Event.token?).map (·.1) : Multiset Record) =
      (history.filterMap Event.completed? : Multiset Record) +
        (history.filterMap Event.buried? : Multiset Record) := by
  induction history with
  | nil => rfl
  | cons event rest ih =>
    cases event with
    | completed record | buried record =>
      simp only [List.filterMap_cons, Event.token?, Event.completed?, Event.buried?,
        List.map_cons, ← Multiset.cons_coe, ih, Multiset.cons_add, Multiset.add_cons]
    | _ =>
      simpa only [List.filterMap_cons, Event.token?, Event.completed?, Event.buried?] using ih

theorem map_workers (workers : List Worker) :
    (workers.filterMap Worker.token?).map (·.1) = workers.filterMap Worker.record? := by
  rw [List.map_filterMap]
  congr 1
  funext w
  cases w <;> rfl

theorem map_tokens (s : World) :
    s.tokens.map (·.1) =
      (s.callers.filterMap Caller.token? : Multiset Token).map (·.1) + s.records := by
  have pending : s.engine.queue.tokens.map (·.1) = (s.engine.queue.pending : Multiset Record) := by
    simp [Queue.tokens, Function.comp_def]
  simp only [tokens, records, Multiset.map_add, pending, map_archived, ← Multiset.coe_add,
    ← map_workers, Multiset.map_coe]
  abel

theorem records_apart (tracked : Tracked origin s) : (s.records.map (·.id)).Nodup := by
  have nodup : (s.tokens.map (·.1.id)).Nodup := by
    rw [tracked.jobs]
    exact Multiset.coe_nodup.mpr tracked.distinct
  have split : s.tokens.map (·.1.id) =
      ((s.callers.filterMap Caller.token? : Multiset Token).map (·.1)).map (·.id) +
        (s.records.map (·.id) : Multiset JobId) := by
    have ids := congrArg (Multiset.map (·.id)) (map_tokens s)
    rwa [Multiset.map_map, Multiset.map_add, Multiset.map_coe] at ids
  rw [split] at nodup
  exact Multiset.coe_nodup.mp (Multiset.nodup_of_le (Multiset.le_add_left _ _) nodup)

/-- What is not with a submitter is in the queue, in a hand or in an archive. -/
theorem mem_records_iff {record : Record} :
    record ∈ s.records ↔ ∃ station, station ≠ .appending ∧ (record, station) ∈ s.tokens := by
  simp only [records, tokens, Queue.tokens, List.mem_append, Multiset.mem_add, Multiset.mem_coe,
    List.mem_map, List.mem_filterMap]
  constructor
  · rintro (((waiting | ⟨w, mem, held⟩) | ⟨event, mem, moved⟩) | ⟨event, mem, moved⟩)
    · exact ⟨.queued, by simp, by simp [waiting]⟩
    · cases w with
      | carrying d =>
        obtain rfl := Option.some.inj held
        refine ⟨d.stage.station d.job, ?_, Or.inl (Or.inr ⟨_, mem, rfl⟩)⟩
        cases d.stage <;> simp [Stage.station]
      | stray record =>
        obtain rfl := Option.some.inj held
        exact ⟨.stray, by simp, Or.inl (Or.inr ⟨_, mem, rfl⟩)⟩
      | strayMarked record =>
        obtain rfl := Option.some.inj held
        exact ⟨.strayMarked, by simp, Or.inl (Or.inr ⟨_, mem, rfl⟩)⟩
      | _ => cases held
    · cases event <;> cases moved
      exact ⟨.completed, by simp, Or.inr ⟨_, mem, rfl⟩⟩
    · cases event <;> cases moved
      exact ⟨.buried, by simp, Or.inr ⟨_, mem, rfl⟩⟩
  · rintro ⟨station, appended, ((⟨c, mem, known⟩ | ⟨other, mem, same⟩) | ⟨w, mem, held⟩) |
      ⟨event, mem, moved⟩⟩
    · cases c <;> cases known
      exact absurd rfl appended
    · cases same
      exact Or.inl (Or.inl (Or.inl mem))
    · refine Or.inl (Or.inl (Or.inr ⟨w, mem, ?_⟩))
      cases w <;> cases held <;> rfl
    · cases event <;> cases moved
      · exact Or.inl (Or.inr ⟨_, mem, rfl⟩)
      · exact Or.inr ⟨_, mem, rfl⟩

/-- The jobs with a record in some place are those whose record was handed to the queue. -/
theorem handed_iff (tracked : Tracked origin s) (id : JobId) :
    id ∈ s.records.map (·.id) ↔ ∃ record, .handed record ∈ s.history ∧ record.id = id := by
  have told (token : Token) {record : Record} :
      .handed record ∈ (s.life token).story ↔
        .handed record ∈ s.history ∧ record.id = token.1.id := by
    simp only [World.life, List.mem_filter, decide_eq_true_eq]
    rfl
  simp only [List.mem_map, mem_records_iff]
  constructor
  · rintro ⟨record, ⟨station, appended, mem⟩, rfl⟩
    obtain ⟨handed, mem⟩ := (tracked.lived _ mem).handed_iff.mpr appended
    exact ⟨handed, (told _).mp mem⟩
  · rintro ⟨record, mem, rfl⟩
    have issued : record.id ∈ s.issued := by
      by_contra new
      have silent := List.filter_eq_nil_iff.mp (tracked.blank _ new).story _ mem
      simp [Event.job] at silent
    obtain ⟨token, there, own⟩ := tracked.exists_token issued
    have appended := (tracked.lived _ there).handed_iff.mp ⟨record, (told _).mpr ⟨mem, own.symm⟩⟩
    exact ⟨token.1, ⟨token.2, appended, there⟩, own⟩

/-- A record in any place is the one that was created, with other failures. -/
theorem record_created (tracked : Tracked origin s) {record : Record} (mem : record ∈ s.records) :
    ∃ created, .created created ∈ s.history ∧ record = { created with fails := record.fails } := by
  obtain ⟨station, -, there⟩ := mem_records_iff.mp mem
  obtain ⟨created, told, same⟩ := (tracked.lived _ there).created
  exact ⟨created, (List.mem_filter.mp told).1, same⟩

end World

/-! ## Archives -/

namespace Queue

theorem newest_append {α : Type} (limit : Nat) (items : List α) (item : α) :
    newest limit (newest limit items ++ [item]) = newest limit (items ++ [item]) := by
  have early : items.length - limit ≤ items.length := Nat.sub_le _ _
  simp only [newest]
  rw [← List.drop_append_of_le_length early, List.drop_drop]
  congr 1
  simp only [List.length_drop, List.length_append, List.length_singleton]
  omega

theorem map_newest {α β : Type} (f : α → β) (limit : Nat) (items : List α) :
    (newest limit items).map f = newest limit (items.map f) := by
  simp only [newest, List.map_drop, List.length_map]

/-- The archives hold the newest of what was moved to them. -/
structure Remembers (q : Queue) (history : List Event) : Prop where
  completed : q.completed = newest completedLimit (history.filterMap Event.completed?)
  dead : q.dead.map (·.record) = newest deadLimit (history.filterMap Event.buried?)

namespace Remembers

variable {q later : Queue} {history events : List Event}

theorem complete (remembers : q.Remembers history) (record : Record) :
    (q.complete record).Remembers (history ++ [.completed record]) := by
  constructor
  · simp only [Queue.complete, remembers.completed, newest_append, List.filterMap_append,
      List.filterMap_cons, List.filterMap_nil, Event.completed?]
  · simp only [Queue.complete, remembers.dead, List.filterMap_append, List.filterMap_cons,
      List.filterMap_nil, Event.buried?, List.append_nil]

theorem bury (remembers : q.Remembers history) (record : Record) (lastError : Option String) :
    (q.bury record lastError).Remembers (history ++ [.buried record]) := by
  constructor
  · simp only [Queue.bury, remembers.completed, List.filterMap_append, List.filterMap_cons,
      List.filterMap_nil, Event.completed?, List.append_nil]
  · simp only [Queue.bury, map_newest, List.map_append, remembers.dead, List.map_cons,
      List.map_nil, newest_append, List.filterMap_append, List.filterMap_cons,
      List.filterMap_nil, Event.buried?]

theorem unmoved (remembers : q.Remembers history) (completed : later.completed = q.completed)
    (dead : later.dead = q.dead) (still : ∀ event ∈ events, event.token? = none) :
    later.Remembers (history ++ events) := by
  have none : events.filterMap Event.completed? = [] ∧ events.filterMap Event.buried? = [] := by
    refine ⟨List.filterMap_eq_nil_iff.mpr fun event mem => ?_,
      List.filterMap_eq_nil_iff.mpr fun event mem => ?_⟩ <;>
    · have unmoved := still event mem
      cases event <;> first | rfl | cases unmoved
  constructor
  · rw [completed, List.filterMap_append, none.1, List.append_nil, remembers.completed]
  · rw [dead, List.filterMap_append, none.2, List.append_nil, remembers.dead]

end Remembers

end Queue

theorem Engine.commandEvents_unmoved (e : Engine) (id : JobId) (command : Command) :
    ∀ event ∈ e.commandEvents id command, event.token? = none := by
  simp only [commandEvents]
  split <;> simp [Event.token?]

namespace Delivery

theorem events_unmoved (d : Delivery) (terms : Terms) (e : Engine) (letters : DeadLetters) :
    ∀ event ∈ d.events terms e letters, event.token? = none := by
  obtain ⟨record, job, stage⟩ := d
  cases stage with
  | active log rest =>
    cases rest with
    | order command next => exact e.commandEvents_unmoved record.id command
    | _ => simp [events]
  | reported outcome =>
    simp only [events]
    split <;> simp [Event.token?]
  | _ => simp [events, Event.token?]

end Delivery

namespace Worker

theorem settle_remembers {e : Engine} {history : List Event}
    (remembers : e.queue.Remembers history) (record : Record) (result : Except JobError Unit) :
    (settle record result e).2.queue.Remembers
      (history ++ settleEvents record result e.queue) := by
  cases result with
  | ok => exact remembers.complete record
  | error err =>
    rcases Nat.lt_or_ge (countFailure record.fails).toNat (e.queue.threshold record).toNat
      with under | spent
    · rw [settle_under err under, settleEvents, Queue.fail_of_lt err under]
      exact remembers.unmoved rfl rfl (by simp [Event.token?])
    · rw [settle_spent err spent, settleEvents, Queue.fail_of_le err spent]
      exact remembers.bury _ _

theorem step_remembers (w : Worker) {terms : Terms} {index : Nat} {e : Engine}
    {letters : DeadLetters} {history : List Event} (remembers : e.queue.Remembers history) :
    (w.step terms index e letters).2.1.queue.Remembers
      (history ++ w.events terms e letters) := by
  cases w with
  | asking =>
    simp only [step, events]
    cases taken : e.take? with
    | none => exact remembers.unmoved rfl rfl (by simp)
    | some pair =>
      obtain ⟨rest, -, queue, -⟩ := Engine.take?_some taken
      exact remembers.unmoved (by rw [queue]) (by rw [queue]) (by simp [Event.token?])
  | carrying d =>
    simp only [step, events]
    cases d.result? with
    | some result => exact settle_remembers remembers d.record result
    | none =>
      have queue := (d.step_beyond terms e letters).queue
      exact remembers.unmoved (by rw [queue]) (by rw [queue]) (d.events_unmoved terms e letters)
  | stray record =>
    have queue : (e.setStatus record.id .error).2.queue = e.queue := Engine.write_queue _ _ _
    exact remembers.unmoved (by rw [step, queue]) (by rw [step, queue])
      (by simp [events, Event.token?])
  | strayMarked record => exact remembers.bury record none
  | emptyHanded | parked | ringing | stopped => exact remembers.unmoved rfl rfl (by simp [events])

end Worker

namespace Caller

theorem step_remembers (c : Caller) {e : Engine} {history : List Event}
    (remembers : e.queue.Remembers history) :
    (c.step e).2.queue.Remembers (history ++ c.events e) := by
  cases c with
  | appending record => exact remembers.unmoved rfl rfl (by simp [events, Event.token?])
  | ordering id command =>
    have queue : (e.sendCommand id command).2.queue = e.queue := Engine.write_queue _ _ _
    exact remembers.unmoved (by rw [step, queue]) (by rw [step, queue])
      (e.commandEvents_unmoved id command)
  | ringing | done => exact remembers.unmoved rfl rfl (by simp [events])

end Caller

namespace World

variable {origin s : World}

theorem apply_remembers (remembers : s.engine.queue.Remembers s.history) (move : Move) :
    (s.apply move).engine.queue.Remembers (s.apply move).history := by
  cases move with
  | work index =>
    simp only [apply]
    cases here : s.pool.workers[index]? with
    | none => simpa only [work, here] using remembers
    | some w =>
      rw [work_eq here]
      exact w.step_remembers remembers
  | proceed index =>
    simp only [apply]
    cases here : s.callers[index]? with
    | none => simpa only [proceed, here] using remembers
    | some c =>
      rw [proceed_eq here]
      exact c.step_remembers remembers
  | wake index =>
    simp only [apply, wake]
    split
    · split <;> exact remembers
    · exact remembers
  | retire index =>
    simp only [apply, retire]
    split
    · split <;> exact remembers
    · exact remembers
  | submit request id =>
    simp only [apply, submit]
    split
    · exact remembers
    · split
      · rename_i engine _ written
        have queue : (s.engine.setStatus id .pending).2.queue = s.engine.queue :=
          Engine.write_queue _ _ _
        rw [written] at queue
        exact remembers.unmoved (congrArg _ queue) (congrArg _ queue) (by simp [Event.token?])
      · exact remembers
  | hand record =>
    simp only [apply, hand]
    split
    · exact remembers
    · exact remembers.unmoved rfl rfl (by simp [Event.token?])
  | order id command =>
    simp only [apply, order]
    split
    · exact remembers.unmoved rfl rfl (by simp)
    · exact remembers
  | confirm c =>
    simp only [apply, confirm]
    split
    · have queue : (s.engine.markDeadAt c.id c.diedAt).2.queue = s.engine.queue :=
        Engine.write_queue _ _ _
      exact remembers.unmoved (congrArg _ queue) (congrArg _ queue) (by simp [Event.token?])
    · exact remembers
  | drop =>
    simp only [apply, drop]
    refine remembers.unmoved rfl rfl ?_
    split <;> simp [Event.token?]
  | pass ms | close | abandon | stock store => exact remembers

theorem run_remembers (remembers : s.engine.queue.Remembers s.history) (moves : List Move) :
    (s.run moves).engine.queue.Remembers (s.run moves).history := by
  induction moves generalizing s with
  | nil => exact remembers
  | cons move rest ih => exact ih (apply_remembers remembers move)

/-- Who has a record in hand counts as busy. -/
theorem hands_le_busy (p : Pool) (e : Engine) :
    (p.workers.filterMap Worker.record?).length ≤ (p.status e).busy := by
  rw [List.length_filterMap_eq_countP]
  refine List.countP_mono_left fun w _ held => ?_
  cases w <;> first | rfl | cases held

/-- The archives hold what the history of a run says that was moved to them. -/
theorem Launched.remembers (launched : origin.Launched) (moves : List Move) :
    (origin.run moves).engine.queue.Remembers (origin.run moves).history := by
  obtain ⟨fresh, -, silent, -⟩ := launched.starts
  refine run_remembers ⟨?_, ?_⟩ moves
  · rw [fresh.completed, silent]
    rfl
  · rw [fresh.dead, silent]
    rfl

/-- At any time of any run every record that was handed to the queue is in one place, and only
its failures have changed. -/
theorem records_conserved (launched : origin.Launched) (moves : List Move) :
    let s := origin.run moves
    (s.records.map (·.id)).Nodup ∧
      (∀ id, id ∈ s.records.map (·.id) ↔ ∃ record, .handed record ∈ s.history ∧ record.id = id) ∧
      (∀ record ∈ s.records, ∃ created,
        .created created ∈ s.history ∧ record = { created with fails := record.fails }) ∧
      s.engine.queue.Remembers s.history ∧
      (s.pool.workers.filterMap Worker.record?).length ≤ (s.pool.status s.engine).busy ∧
      (s.pool.status s.engine).busy ≤ (s.pool.status s.engine).workers ∧
      (s.pool.status s.engine).workers = origin.pool.settings.workers := by
  intro s
  have tracked := launched.tracked_run moves
  have staff : (s.pool.status s.engine).workers = origin.pool.settings.workers := by
    rw [Pool.status, tracked.kept.staff, launched.starts.idle, List.length_replicate]
  exact ⟨records_apart tracked, handed_iff tracked, fun record mem => record_created tracked mem,
    launched.remembers moves, hands_le_busy s.pool s.engine, List.countP_le_length, staff⟩

/-- One record that is in the hand of a worker. -/
theorem records_conserved_idle :
    let s := (workshop (.idle "idle")).run
      [.submit ⟨"idle", [], none⟩ (.ofNat 7), .proceed 0, .work 0, .work 0]
    (workshop (.idle "idle")).Launched ∧ s.records.map (·.id) = [.ofNat 7] ∧
      (∃ record, .handed record ∈ s.history ∧ record.id = .ofNat 7) ∧
      (s.pool.status s.engine).busy ≤ (s.pool.status s.engine).workers := by
  have launched := workshop_launched (.idle "idle")
  obtain ⟨-, handed, -, -, -, busy, -⟩ := records_conserved launched
    [.submit ⟨"idle", [], none⟩ (.ofNat 7), .proceed 0, .work 0, .work 0]
  exact ⟨launched, rfl, (handed (.ofNat 7)).mp (by decide), busy⟩

end World

end JobEngine
