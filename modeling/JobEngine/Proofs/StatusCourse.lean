import JobEngine.Proofs.Attempts
import JobEngine.Proofs.Conservation
import Mathlib.Data.List.Induction

/-!
# The course of a job's statuses

The tracker takes any status at any time. That the statuses of a job come in
the documented order is due to those who write them: each delivery writes that
it runs and then how it ended, only an ordinary failure is followed by another
delivery, and the client has announced the job before the record can be taken.
-/
namespace JobEngine

/-- The statuses of a job that was retried so many times and then ended for good. -/
def Status.course (retries : Nat) (last : Status) : List Status :=
  .pending :: ((List.replicate retries [.running, .error]).flatten ++ [.running, last])

namespace World

/-- The statuses that were written for a job, in order. -/
def statuses (s : World) (id : JobId) : List Status :=
  (s.history.filter (·.job = id)).filterMap Event.status?

end World

/-! ## Courses -/

namespace Status

/-- Before the last status nothing is final. -/
theorem eq_course_of_mem {statuses : List Status} {retries : Nat} {last final : Status}
    (course : statuses <+: Status.course retries last) (written : final ∈ statuses)
    (ends : final = .success ∨ final = .stopped ∨ final = .cancelled) :
    statuses = Status.course retries last := by
  let early : List Status :=
    .pending :: ((List.replicate retries [.running, .error]).flatten ++ [.running])
  have split : Status.course retries last = early ++ [last] := by
    simp [Status.course, early]
  rw [split] at course ⊢
  rcases List.prefix_concat_iff.mp course with whole | part
  · exact whole
  · have mem : final ∈ early := part.subset written
    rcases ends with rfl | rfl | rfl <;> simp [early] at mem

theorem retries_prefix_course (retries : Nat) :
    .pending :: ((List.replicate retries [.running, .error]).flatten ++ [.running]) <+:
      Status.course retries .error :=
  ⟨[.error], by simp [Status.course]⟩

end Status

/-! ## Laws of a life -/

/-- The status in the account is the last one that was written. -/
theorem Account.status_eq (story : List Event) :
    (Account.of story).status = (story.filterMap Event.status?).getLast? := by
  induction story using List.reverseRecOn with
  | nil => rfl
  | append_singleton story event ih =>
    rw [Account.of_append, filterMap_told]
    cases event with
    | announced | began | ended | strayed => simp [Account.after, Event.status?]
    | _ => simpa [Account.after, Event.status?] using ih

/-- The status that was written last while the record is there. -/
def Station.begun : Station → List Status
  | .running _ => [.running]
  | _ => []

theorem Station.begun_prefix (station : Station) : station.begun <+: [.running] := by
  cases station with
  | running job => exact List.prefix_rfl
  | _ => exact List.nil_prefix

namespace Lived

variable {origin : World} {id : JobId}

/-- A job that was announced is of a known type, starts without failures and is never marked as
one of an unknown type. -/
theorem announced {l : Life} (lived : Lived origin l) (announced : .announced id ∈ l.story) :
    (∃ job, origin.engine.registry.find? l.record.jobType = some job) ∧
      (∃ first, .created first ∈ l.story ∧ first.fails = 0) ∧
      ∀ other, .strayed other ∉ l.story := by
  induction lived with
  | submitted known valid => exact ⟨⟨_, known⟩, ⟨_, List.mem_cons_self, rfl⟩, by simp⟩
  | offered => simp at announced
  | marked lived here ih =>
    obtain ⟨⟨job, known⟩, -, -⟩ := ih (mem_of_told announced (by simp))
    have unknown := lived.suits
    rw [here] at unknown
    rw [unknown] at known
    cases known
  | dropped lived ih =>
    obtain ⟨known, ⟨first, born, fresh⟩, unstrayed⟩ := ih (by simpa using announced)
    exact ⟨known, ⟨first, List.mem_append_left _ born, fresh⟩, by simpa using unstrayed⟩
  | handed lived here ih | taken lived here known ih | strayed lived here unknown ih
  | cast lived here ih | began lived here ih | ended outcome lived here ih
  | doomed lived here hopeless ih | completed lived here ih | requeued lived here under ih
  | buried lived here spent ih | commanded command lived tracked ih
  | confirmed lived waits due ih =>
    obtain ⟨known, ⟨first, born, fresh⟩, unstrayed⟩ := ih (mem_of_told announced (by simp))
    exact ⟨known, ⟨first, List.mem_append_left _ born, fresh⟩,
      fun other mem => unstrayed other (mem_of_told mem (by simp))⟩
  | spared lived here hopeful ih | checkedIn message lived here ih
  | evicted lived tracked settled ih | passed ms lived ih => exact ih announced

/-- An event that writes no status keeps to what the statuses are. -/
theorem quiet {story : List Event} {event : Event} {last : List Status}
    (before : story.filterMap Event.status? = .pending ::
      ((story.filterMap Event.outcome?).flatMap fun outcome => [.running, outcome.status]) ++ last)
    (silent : event.status? = none) (unended : event.outcome? = none) :
    (story ++ [event]).filterMap Event.status? = .pending ::
      (((story ++ [event]).filterMap Event.outcome?).flatMap fun outcome =>
        [.running, outcome.status]) ++ last := by
  simpa only [filterMap_told, silent, unended, Option.toList_none, List.append_nil] using before

/-- After the announcement each run writes that it goes on and how it ended, and nothing else
writes. -/
theorem statuses {l : Life} (lived : Lived origin l) (announced : .announced id ∈ l.story) :
    l.story.filterMap Event.status? =
      .pending :: (l.outcomes.flatMap fun outcome => [.running, outcome.status]) ++
        l.station.begun := by
  induction lived with
  | submitted known valid => rfl
  | offered => simp at announced
  | marked lived here ih =>
    obtain ⟨⟨job, known⟩, -⟩ := lived.announced (mem_of_told announced (by simp))
    have unknown := lived.suits
    rw [here] at unknown
    rw [unknown] at known
    cases known
  | began lived here ih =>
    have before := ih (mem_of_told announced (by simp))
    simp only [Life.outcomes, here, Station.begun, List.append_nil] at before ⊢
    simp only [filterMap_told, before, Event.outcome?, Option.toList_none, List.append_nil]
    rfl
  | ended outcome lived here ih =>
    have before := ih (mem_of_told announced (by simp))
    simp only [Life.outcomes, here, Station.begun] at before ⊢
    simp only [filterMap_told, before, Event.outcome?, Event.status?, Option.toList_some,
      List.flatMap_append, List.flatMap_singleton]
    simp
  | handed lived here ih | taken lived here known ih | strayed lived here unknown ih
  | cast lived here ih | doomed lived here hopeless ih | completed lived here ih
  | requeued lived here under ih | buried lived here spent ih =>
    have before := ih (mem_of_told announced (by simp))
    rw [here] at before
    exact quiet before rfl rfl
  | commanded command lived tracked ih | confirmed lived waits due ih =>
    exact quiet (ih (mem_of_told announced (by simp))) rfl rfl
  | @dropped l lived ih =>
    have before := ih (by simpa using announced)
    simp only [Life.outcomes] at before ⊢
    rwa [filterMap_dropped Event.status? _ fun _ => rfl,
      filterMap_dropped Event.outcome? _ fun _ => rfl]
  | spared lived here hopeful ih =>
    have before := ih announced
    rw [here] at before
    exact before
  | checkedIn message lived here ih | evicted lived tracked settled ih | passed ms lived ih =>
    exact ih announced

end Lived

theorem flatMap_failed (errors : List JobError) :
    ((errors.map Outcome.failed).flatMap fun outcome => [.running, outcome.status]) =
      (List.replicate errors.length [Status.running, .error]).flatten := by
  induction errors with
  | nil => rfl
  | cons e rest ih =>
    simp only [List.map_cons, List.flatMap_cons, ih, List.length_cons, List.replicate_succ,
      List.flatten_cons]
    rfl

/-- No run goes on after the last outcome. -/
theorem Station.Stands.outcomes {origin : World} {first record : Record} {errors : List JobError}
    {deliveries : List Record} {outcomes : List Outcome} {station : Station}
    (stands : station.Stands origin first errors record deliveries outcomes) :
    outcomes = errors.map .failed ∨
      ∃ outcome, outcomes = errors.map .failed ++ [outcome] ∧ station.begun = [] := by
  cases station with
  | appending | queued | fetched job | running job | stray | strayMarked =>
    exact Or.inl (stands.2.2.trans (List.append_nil _))
  | reported job outcome => exact Or.inr ⟨outcome, stands.2.2, rfl⟩
  | decided job result =>
    obtain ⟨outcome, -, -, -, ended⟩ := stands
    exact Or.inr ⟨outcome, ended, rfl⟩
  | completed =>
    obtain ⟨outcome, -, -, -, ended⟩ := stands
    exact Or.inr ⟨outcome, ended, rfl⟩
  | buried =>
    obtain ⟨-, ⟨-, -, ended⟩ | ⟨-, outcome, -, -, -, -, -, ended⟩⟩ := stands
    · exact Or.inl (ended.trans (List.append_nil _))
    · exact Or.inr ⟨outcome, ended, rfl⟩

namespace Lived

variable {origin : World} {id : JobId}

theorem follows_course (starts : origin.Starts) {l : Life} (lived : Lived origin l)
    (announced : .announced id ∈ l.story) :
    ∃ retries last, last ∈ [Status.success, .stopped, .error, .cancelled] ∧
      l.story.filterMap Event.status? <+: Status.course retries last := by
  obtain ⟨-, ⟨first, born, -⟩, -⟩ := lived.announced announced
  obtain ⟨errors, stands, -⟩ := lived.tally starts born
  rw [lived.statuses announced]
  rcases stands.outcomes with ended | ⟨outcome, ended, still⟩
  · refine ⟨errors.length, .error, by decide, ?_⟩
    rw [ended, flatMap_failed]
    refine List.IsPrefix.trans ?_ (Status.retries_prefix_course errors.length)
    simpa using l.station.begun_prefix
  · refine ⟨errors.length, outcome.status, by cases outcome <;> simp [Outcome.status], ?_⟩
    rw [ended, still, List.flatMap_append, flatMap_failed]
    simp [Status.course]

/-- A record that waits has the status of its last attempt, if it had one. -/
theorem last_queued (starts : origin.Starts) {l : Life} (lived : Lived origin l)
    (announced : .announced id ∈ l.story) (here : l.station = .queued) :
    (l.story.filterMap Event.status?).getLast? =
      some (if l.record.fails = 0 then .pending else .error) := by
  obtain ⟨-, ⟨first, born, fresh⟩, -⟩ := lived.announced announced
  obtain ⟨errors, stands, -⟩ := lived.tally starts born
  rw [lived.statuses announced, here]
  rw [here] at stands
  obtain ⟨same, -, ended⟩ := stands
  have counted := first.toNat_fails_after errors.length
  simp only [ended, List.append_nil, flatMap_failed, same, Station.begun]
  rw [fresh] at counted
  cases errors with
  | nil =>
    have unfailed : (first.after ([] : List JobError).length).fails = 0 := fresh
    rw [if_pos unfailed]
    rfl
  | cons e rest =>
    have failed : (first.after (e :: rest).length).fails ≠ 0 := by
      intro zero
      rw [zero, List.length_cons] at counted
      have word : UInt64.size = 18446744073709551616 := rfl
      have none : (0 : UInt64).toNat = 0 := rfl
      omega
    rw [if_neg failed, List.length_cons, List.replicate_succ', List.flatten_concat,
      ← List.cons_append, List.getLast?_append]
    rfl

end Lived

namespace World

variable {origin s : World} {id : JobId}

/-- What is written down stays so. -/
theorem history_apply (s : World) (move : Move) : s.history <+: (s.apply move).history := by
  cases move with
  | work index =>
    simp only [apply]
    cases here : s.pool.workers[index]? with
    | none => simp only [work, here, List.prefix_rfl]
    | some w =>
      rw [work_eq here]
      exact List.prefix_append _ _
  | proceed index =>
    simp only [apply]
    cases here : s.callers[index]? with
    | none => simp only [proceed, here, List.prefix_rfl]
    | some c =>
      rw [proceed_eq here]
      exact List.prefix_append _ _
  | wake index =>
    simp only [apply, wake]
    split
    · split <;> exact List.prefix_rfl
    · exact List.prefix_rfl
  | retire index =>
    simp only [apply, retire]
    split
    · split <;> exact List.prefix_rfl
    · exact List.prefix_rfl
  | submit request id =>
    simp only [apply, submit]
    split
    · exact List.prefix_rfl
    · split
      · exact List.prefix_append _ _
      · exact List.prefix_rfl
  | hand record =>
    simp only [apply, hand]
    split
    · exact List.prefix_rfl
    · exact List.prefix_append _ _
  | order id command =>
    simp only [apply, order]
    split
    · exact List.prefix_append _ _
    · exact List.prefix_rfl
  | confirm c =>
    simp only [apply, confirm]
    split
    · exact List.prefix_append _ _
    · exact List.prefix_rfl
  | drop => exact List.prefix_append _ _
  | pass ms | close | abandon | stock store => exact List.prefix_rfl

theorem history_run (s : World) (moves : List Move) : s.history <+: (s.run moves).history := by
  induction moves generalizing s with
  | nil => exact List.prefix_rfl
  | cons move rest ih => exact (s.history_apply move).trans (ih (s.apply move))

theorem issued_of_told (tracked : Tracked origin s) {event : Event} (told : event ∈ s.history) :
    event.job ∈ s.issued := by
  by_contra new
  have silent := List.filter_eq_nil_iff.mp (tracked.blank _ new).story event told
  exact silent (decide_eq_true rfl)

/-- The life of the job that an event is about. -/
theorem life_of_told (tracked : Tracked origin s) {event : Event} (told : event ∈ s.history) :
    ∃ token ∈ s.tokens, token.1.id = event.job ∧ event ∈ (s.life token).story := by
  obtain ⟨token, there, own⟩ := tracked.exists_token (issued_of_told tracked told)
  exact ⟨token, there, own, List.mem_filter.mpr ⟨told, decide_eq_true own.symm⟩⟩

theorem statuses_follow (starts : origin.Starts) (tracked : Tracked origin s)
    (announced : .announced id ∈ s.history) :
    ∃ retries last, last ∈ [Status.success, .stopped, .error, .cancelled] ∧
      s.statuses id <+: Status.course retries last := by
  obtain ⟨token, there, own, told⟩ := life_of_told tracked announced
  obtain rfl : token.1.id = id := own
  exact (tracked.lived token there).follows_course starts told

/-- Nothing is written after a final status. -/
theorem statuses_final (starts : origin.Starts) (tracked : Tracked origin s)
    (announced : .announced id ∈ s.history) {final : Status}
    (ends : final = .success ∨ final = .stopped ∨ final = .cancelled)
    (written : final ∈ s.statuses id) (later : List Move) :
    (s.run later).statuses id = s.statuses id := by
  have grows : s.statuses id <+: (s.run later).statuses id :=
    ((s.history_run later).filter _).filterMap _
  obtain ⟨retries, last, -, course⟩ := statuses_follow starts (tracked.run later)
    ((s.history_run later).subset announced)
  rw [Status.eq_course_of_mem course (grows.subset written) ends,
    Status.eq_course_of_mem (grows.trans course) written ends]

/-- Wherever its record is, the job was announced. -/
theorem told_of_token (announced : .announced id ∈ s.history) {token : Token}
    (own : token.1.id = id) : .announced id ∈ (s.life token).story :=
  List.mem_filter.mpr ⟨announced, decide_eq_true own.symm⟩

theorem last_of_token (token : Token) :
    (Account.of (s.life token).story).status = (s.statuses token.1.id).getLast? :=
  Account.status_eq _

theorem last_of_pending (starts : origin.Starts) (tracked : Tracked origin s)
    (announced : .announced id ∈ s.history) {record : Record}
    (waits : record ∈ s.engine.queue.pending) (own : record.id = id) :
    (s.statuses id).getLast? = some (if record.fails = 0 then .pending else .error) := by
  subst own
  have lived := tracked.lived _ (token_of_pending waits)
  exact lived.last_queued starts (told_of_token announced rfl) rfl

theorem last_of_completed (tracked : Tracked origin s) {record : Record}
    (moved : .completed record ∈ s.history) :
    (s.statuses record.id).getLast? = some .success ∨
      (s.statuses record.id).getLast? = some .stopped := by
  have fits := (tracked.lived _ (token_of_event moved rfl)).accords.station
  rw [← last_of_token (record, .completed)]
  exact fits.2

theorem last_of_buried (tracked : Tracked origin s) {record : Record}
    (moved : .buried record ∈ s.history) :
    (s.statuses record.id).getLast? = some .error ∨
      (s.statuses record.id).getLast? = some .cancelled := by
  have fits := (tracked.lived _ (token_of_event moved rfl)).accords.station
  rw [← last_of_token (record, .buried)]
  exact fits

/-- The entry shows what was written last. -/
theorem last_of_entry (tracked : Tracked origin s) {stats : Stats}
    (entry : s.engine.tracker.find? id = some stats) :
    (s.statuses id).getLast? = some stats.status := by
  have issued : id ∈ s.issued := by
    by_contra new
    rw [(tracked.blank id new).entry] at entry
    cases entry
  obtain ⟨token, there, rfl⟩ := tracked.exists_token issued
  have matched := (tracked.lived _ there).accords.entry
  rw [show (s.life token).entry = some stats from entry] at matched
  rw [← last_of_token]
  exact matched.2.1.symm

/-- No worker has a submitted record as one of an unknown type. -/
theorem not_stray (tracked : Tracked origin s) (announced : .announced id ∈ s.history)
    {record : Record} (own : record.id = id) :
    .stray record ∉ s.pool.workers ∧ .strayMarked record ∉ s.pool.workers := by
  have clash (w : Worker) (station : Station) (mem : w ∈ s.pool.workers)
      (holds : w.token? = some (record, station))
      (unknown : station.Suits origin.engine.registry record.jobType →
        origin.engine.registry.find? record.jobType = none) : False := by
    have lived := tracked.lived _ (token_of_worker mem holds)
    obtain ⟨⟨job, known⟩, -⟩ := lived.announced (told_of_token announced own)
    have none : origin.engine.registry.find? record.jobType = none := unknown lived.suits
    exact Option.some_ne_none job (known.symm.trans none)
  exact ⟨fun mem => clash _ .stray mem rfl fun none => none,
    fun mem => clash _ .strayMarked mem rfl fun none => none⟩

/-- Whatever the interleaving, the statuses of a job that a client submitted follow its course,
and what was written last fits the place of its record. The archives hold what the history says
was moved to them. -/
theorem status_course (launched : origin.Launched) (moves : List Move)
    (announced : .announced id ∈ (origin.run moves).history) :
    let s := origin.run moves
    (∃ retries last, last ∈ [Status.success, .stopped, .error, .cancelled] ∧
      s.statuses id <+: Status.course retries last) ∧
    (∀ final ∈ [Status.success, .stopped, .cancelled], final ∈ s.statuses id →
      ∀ later, (s.run later).statuses id = s.statuses id) ∧
    .strayed id ∉ s.history ∧
    s.engine.queue.Remembers s.history ∧
    (∀ record, record.id = id →
      .stray record ∉ s.pool.workers ∧ .strayMarked record ∉ s.pool.workers) ∧
    (∀ record ∈ s.engine.queue.pending, record.id = id →
      (s.statuses id).getLast? = some (if record.fails = 0 then .pending else .error)) ∧
    (∀ record, .completed record ∈ s.history → record.id = id →
      (s.statuses id).getLast? = some .success ∨ (s.statuses id).getLast? = some .stopped) ∧
    (∀ record, .buried record ∈ s.history → record.id = id →
      (s.statuses id).getLast? = some .error ∨ (s.statuses id).getLast? = some .cancelled) ∧
    ∀ stats, s.engine.tracker.find? id = some stats →
      (s.statuses id).getLast? = some stats.status := by
  intro s
  have starts := launched.starts
  have tracked := launched.tracked_run moves
  refine ⟨statuses_follow starts tracked announced, ?_, ?_, launched.remembers moves,
    ?_, ?_, ?_, ?_, ?_⟩
  · intro final ends written later
    exact statuses_final starts tracked announced (by simpa using ends) written later
  · intro strayed
    obtain ⟨token, there, own, told⟩ := life_of_told tracked strayed
    exact ((tracked.lived token there).announced (told_of_token announced own)).2.2 id told
  · exact fun record own => not_stray tracked announced own
  · exact fun record waits own => last_of_pending starts tracked announced waits own
  · rintro record moved rfl
    exact last_of_completed tracked moved
  · rintro record moved rfl
    exact last_of_buried tracked moved
  · exact fun stats entry => last_of_entry tracked entry

/-- After a failed attempt the record waits again and its last status is Error. -/
theorem status_course_broken :
    let s := (workshop broken).run firstAttempt
    (workshop broken).Launched ∧ .announced (.ofNat 7) ∈ s.history ∧
      s.statuses (.ofNat 7) = [.pending, .running, .error] ∧
      (∃ retries last, s.statuses (.ofNat 7) <+: Status.course retries last) ∧
      ∃ record ∈ s.engine.queue.pending, record.fails = 1 ∧
        (s.statuses (.ofNat 7)).getLast? = some .error := by
  intro s
  have told : .announced (.ofNat 7) ∈ s.history := by decide +kernel
  obtain ⟨⟨retries, last, -, course⟩, -, -, -, -, pending, -⟩ :=
    status_course (workshop_launched broken) firstAttempt told
  obtain ⟨record, waits, own, failed⟩ : ∃ record ∈ s.engine.queue.pending,
      record.id = .ofNat 7 ∧ record.fails = 1 := by decide +kernel
  have last := pending record waits own
  rw [if_neg (by rw [failed]; decide)] at last
  exact ⟨workshop_launched broken, told, by decide +kernel, ⟨retries, _, course⟩,
    record, waits, failed, last⟩

end World

end JobEngine
