import JobEngine.Proofs.Conservation
import JobEngine.Proofs.RetryBounds

/-!
# What the schedule does not decide

Several workers share one queue, and a record that failed is overtaken by
others. None of this shows in what becomes of a job whose runs come to what
the record alone says. Its attempts end at the first run that is not retried,
and that run settles the last status, the archive and the failures. So two
runs of the world that work off the same record agree about it, whatever else
they do and however many workers they have.
-/
namespace JobEngine

/-- What a run comes to, for an identifier, a type, parameters and failures. -/
abbrev RunRule := JobId → String → Parameters → UInt64 → Outcome

def RunRule.on (rule : RunRule) (record : Record) : Outcome :=
  rule record.id record.jobType record.parameters record.fails

inductive Destination
  | completed
  | deadLetter
deriving DecidableEq

namespace Destination

/-- A record is moved there. -/
def event : Destination → Record → Event
  | .completed, record => .completed record
  | .deadLetter, record => .buried record

def station : Destination → Station
  | .completed => .completed
  | .deadLetter => .buried

theorem token?_event (destination : Destination) (record : Record) :
    (destination.event record).token? = some (record, destination.station) := by
  cases destination <;> rfl

theorem station_injective {destination other : Destination}
    (same : destination.station = other.station) : destination = other := by
  cases destination <;> cases other <;> first | rfl | cases same

end Destination

/-- What became of a job. -/
structure Upshot where
  status : Status
  destination : Destination
  fails : UInt64
  deliveries : Nat
deriving DecidableEq

/-- All that decides what becomes of a record. -/
structure Rules where
  registry : Registry
  policy : RetryPolicy
  run : RunRule

namespace Rules

variable (rules : Rules) (first : Record)

/-- The run that follows on `n` failures is followed by another one. -/
def Retries (n : Nat) : Prop :=
  ∃ job e, rules.registry.find? first.jobType = some job ∧ job.shouldRetry = true ∧
    rules.run.on (first.after n) = .failed e ∧
    (first.after (n + 1)).fails.toNat < (rules.policy.effectiveBudget job first).toNat

/-- The run that follows on `n` failures is the last one. -/
structure Stops (n : Nat) : Prop where
  before : ∀ m < n, rules.Retries first m
  last : ¬ rules.Retries first n

/-- What becomes of the record when the run after `n` failures is the last one. -/
def upshot (n : Nat) : Upshot :=
  let record := first.after n
  let outcome := rules.run.on record
  match rules.registry.find? first.jobType with
  | none => ⟨.error, .deadLetter, record.fails, n + 1⟩
  | some job =>
    match outcome.result with
    | .ok () => ⟨outcome.status, .completed, record.fails, n + 1⟩
    | .error _ =>
      let judged := if outcome.deadLetters rules.policy job record then deadLetterFails
        else record.fails
      ⟨outcome.status, .deadLetter, countFailure judged, n + 1⟩

variable {rules first}

theorem stops_unique {n m : Nat} (stops : rules.Stops first n) (other : rules.Stops first m) :
    n = m := by
  by_cases less : n < m
  · exact absurd (other.before n less) stops.last
  · by_cases more : m < n
    · exact absurd (stops.before m more) other.last
    · omega

end Rules

/-! ## One life -/

theorem Record.fails_after_mono (record : Record) {m n : Nat} (early : m ≤ n) :
    (record.after m).fails.toNat ≤ (record.after n).fails.toNat := by
  rw [toNat_fails_after, toNat_fails_after]
  omega

theorem Worker.fails_judged (policy : RetryPolicy) (job : Job) (record : Record)
    (outcome : Outcome) :
    (judged policy job record outcome).fails =
      if outcome.deadLetters policy job record then deadLetterFails else record.fails := by
  rw [judged]
  split <;> rfl

/-- The last status of the delivery was written. -/
def Station.isClosed : Station → Bool
  | .reported _ _ | .decided _ _ | .strayMarked | .completed | .buried => true
  | _ => false

namespace Lived

variable {origin : World} {l : Life}

/-- A record of an unknown type is not run. -/
theorem known_of_outcomes (lived : Lived origin l) (ran : l.outcomes ≠ []) :
    ∃ job, origin.engine.registry.find? l.record.jobType = some job := by
  induction lived with
  | submitted | offered => exact absurd rfl ran
  | @ended l job outcome lived here ih =>
    have known := lived.suits
    rw [here] at known
    exact ⟨job, known⟩
  | handed lived here ih | taken lived here known ih | strayed lived here unknown ih
  | marked lived here ih | cast lived here ih | began lived here ih | doomed lived here hopeless ih
  | completed lived here ih | requeued lived here under ih | buried lived here spent ih
  | commanded command lived tracked ih | confirmed lived waits due ih =>
    refine ih ?_
    simpa only [Life.outcomes, filterMap_told, Event.outcome?, Option.toList_none, List.append_nil]
      using ran
  | dropped lived ih =>
    refine ih ?_
    rwa [Life.outcomes, filterMap_dropped Event.outcome? _ fun _ => rfl] at ran
  | spared lived here hopeful ih | checkedIn message lived here ih
  | evicted lived tracked settled ih | passed ms lived ih => exact ih ran

/-- The last status is that of the last run, or Error if there was none. -/
theorem last_closed (lived : Lived origin l) (closed : l.station.isClosed = true) :
    (l.story.filterMap Event.status?).getLast? =
      some ((l.outcomes.getLast?.map Outcome.status).getD .error) := by
  induction lived with
  | submitted | offered | handed | taken | strayed | began | requeued => cases closed
  | checkedIn message lived here ih =>
    rw [here] at closed
    cases closed
  | @marked l lived here ih =>
    have unknown := lived.suits
    rw [here] at unknown
    have none : l.outcomes = [] := by
      by_contra ran
      obtain ⟨job, known⟩ := lived.known_of_outcomes ran
      exact Option.some_ne_none job (known.symm.trans unknown)
    have still : Life.outcomes { l with
        station := .strayMarked
        entry := l.marked .error
        story := l.story ++ [.strayed l.record.id] } = [] := by
      rw [← none]
      simp only [Life.outcomes, filterMap_told, Event.outcome?, Option.toList_none, List.append_nil]
    rw [still, filterMap_told]
    exact List.getLast?_concat
  | ended outcome lived here ih =>
    simp only [Life.outcomes, filterMap_told, Event.outcome?, Event.status?, Option.toList_some,
      List.getLast?_concat, Option.map_some, Option.getD_some]
  | cast lived here ih | doomed lived here hopeless ih | completed lived here ih
  | buried lived here spent ih =>
    rw [here] at ih
    simpa only [Life.outcomes, filterMap_told, Event.outcome?, Event.status?, Option.toList_none,
      List.append_nil] using ih rfl
  | commanded command lived tracked ih | confirmed lived waits due ih =>
    simpa only [Life.outcomes, filterMap_told, Event.outcome?, Event.status?, Option.toList_none,
      List.append_nil] using ih closed
  | dropped lived ih =>
    simp only [Life.outcomes, filterMap_dropped Event.status? _ fun _ => rfl,
      filterMap_dropped Event.outcome? _ fun _ => rfl]
    exact ih closed
  | spared lived here hopeful ih =>
    rw [here] at ih
    exact ih rfl
  | evicted lived tracked settled ih | passed ms lived ih => exact ih closed

/-- What was handed to the queue is the record that was created. -/
theorem created_of_handed (lived : Lived origin l) :
    (l.station = .appending → .created l.record ∈ l.story) ∧
      ∀ record, .handed record ∈ l.story → .created record ∈ l.story := by
  induction lived with
  | submitted known valid =>
    refine ⟨fun _ => List.mem_cons_self, fun record handed => ?_⟩
    simp at handed
  | offered record clock =>
    refine ⟨by simp, fun other handed => ?_⟩
    simpa using handed
  | @handed l lived here ih =>
    refine ⟨by simp, fun record handed => List.mem_append_left _ ?_⟩
    by_cases same : record = l.record
    · rw [same]
      exact ih.1 here
    · exact ih.2 record (mem_of_told handed fun eq => same (Event.handed.inj eq))
  | taken lived here known ih | strayed lived here unknown ih | marked lived here ih
  | cast lived here ih | began lived here ih | ended outcome lived here ih
  | doomed lived here hopeless ih | completed lived here ih | requeued lived here under ih
  | buried lived here spent ih =>
    exact ⟨by simp, fun record handed =>
      List.mem_append_left _ (ih.2 record (mem_of_told handed (by simp)))⟩
  | commanded command lived tracked ih | confirmed lived waits due ih =>
    exact ⟨fun here => List.mem_append_left _ (ih.1 here), fun record handed =>
      List.mem_append_left _ (ih.2 record (mem_of_told handed (by simp)))⟩
  | dropped lived ih =>
    exact ⟨fun here => List.mem_append_left _ (ih.1 here), fun record handed =>
      List.mem_append_left _ (ih.2 record (by simpa using handed))⟩
  | spared lived here hopeful ih => exact ⟨by simp, ih.2⟩
  | checkedIn message lived here ih =>
    exact ⟨fun there => absurd (here.symm.trans there) (by simp), ih.2⟩
  | evicted lived tracked settled ih | passed ms lived ih => exact ih

end Lived

/-! ## The attempts of one life -/

/-- Of the runs and the deliveries that are known, the runs came to what the rule says. -/
theorem RunRule.at_attempt {rule : RunRule} {first : Record} {outcomes : List Outcome} {n k : Nat}
    (follows : outcomes <+: ((List.range n).map first.after).map rule.on) {outcome : Outcome}
    (told : outcomes[k]? = some outcome) : rule.on (first.after k) = outcome := by
  obtain ⟨reached, same⟩ := List.getElem?_eq_some_iff.mp told
  have shown := follows.getElem reached
  rw [same] at shown
  rw [shown]
  simp only [List.getElem_map, List.getElem_range]

/-- The rules under which a pool works, if its runs come to what is said. -/
def World.rules (s : World) (run : RunRule) : Rules :=
  ⟨s.engine.registry, s.pool.terms.policy, run⟩

/-- The life of the job came to this. -/
structure Life.Came (l : Life) (upshot : Upshot) : Prop where
  status : (l.story.filterMap Event.status?).getLast? = some upshot.status
  station : l.station = upshot.destination.station
  fails : l.record.fails = upshot.fails
  deliveries : l.deliveries.length = upshot.deliveries

theorem Life.Came.intro {l : Life} {upshot : Upshot} {status : Status} {first : Record} {n : Nat}
    (destination : Destination) (same : upshot = ⟨status, destination, l.record.fails, n + 1⟩)
    (here : l.station = destination.station)
    (taken : l.deliveries = (List.range (n + 1)).map first.after)
    (last : (l.story.filterMap Event.status?).getLast? = some status) : l.Came upshot := by
  rw [same]
  refine ⟨last, here, rfl, ?_⟩
  rw [taken, List.length_map, List.length_range]

namespace Life.Tally

variable {origin : World} {first : Record} {errors : List JobError} {l : Life} {run : RunRule}
  {outcome : Outcome}

section

variable (starts : origin.Starts) (tally : l.Tally origin first errors)
  (follows : l.outcomes <+: l.deliveries.map run.on)

include tally follows

theorem failed_at {n : Nat} (less : n < errors.length) :
    run.on (first.after n) = .failed errors[n] := by
  have told : l.outcomes[n]? = some (.failed errors[n]) := by
    rcases tally.stands.outcomes with ended | ⟨outcome, ended, -⟩
    · rw [ended, List.getElem?_map, List.getElem?_eq_getElem less]
      rfl
    · rw [ended, List.getElem?_append_left (by rwa [List.length_map]), List.getElem?_map,
        List.getElem?_eq_getElem less]
      rfl
  obtain ⟨_, -, taken⟩ := tally.taken
  rw [taken] at follows
  exact RunRule.at_attempt follows told

theorem ended_at (ended : l.outcomes = errors.map .failed ++ [outcome]) :
    run.on (first.after errors.length) = outcome := by
  obtain ⟨_, -, taken⟩ := tally.taken
  rw [taken] at follows
  refine RunRule.at_attempt follows ?_
  rw [ended, List.getElem?_append_right (by rw [List.length_map]), List.length_map, Nat.sub_self]
  rfl

include starts

theorem retries_before : ∀ n < errors.length, (origin.rules run).Retries first n := by
  intro n less
  have some : errors ≠ [] := List.ne_nil_of_length_pos (Nat.zero_lt_of_lt less)
  obtain ⟨under, job, known, retries⟩ := tally.retried some
  rw [starts.agree first job known] at under
  refine ⟨job, errors[n], known, retries, tally.failed_at follows less, ?_⟩
  exact Nat.lt_of_le_of_lt (first.fails_after_mono less) under

theorem came_completed (lived : Lived origin l) (here : l.station = .completed) :
    (origin.rules run).Stops first errors.length ∧
      l.Came ((origin.rules run).upshot first errors.length) := by
  have stands := tally.stands
  have last := lived.last_closed (by rw [here]; rfl)
  rw [here] at stands
  obtain ⟨outcome, result, same, taken, ended⟩ := stands
  have shown := tally.ended_at follows ended
  obtain ⟨job, known⟩ := lived.known_of_outcomes (by rw [ended]; simp)
  have known : origin.engine.registry.find? first.jobType = some job := by
    rw [same] at known
    exact known
  rw [ended, List.getLast?_concat, Option.map_some, Option.getD_some] at last
  constructor
  · refine ⟨tally.retries_before starts follows, ?_⟩
    rintro ⟨_, e, -, -, failed, -⟩
    have failed : outcome = .failed e := shown.symm.trans failed
    rw [failed] at result
    cases result
  · refine .intro .completed ?_ here taken last
    simp only [Rules.upshot, World.rules, shown, known, result, same]

/-- Its type is unknown. -/
theorem came_stray (lived : Lived origin l) (here : l.station = .buried)
    (unknown : origin.engine.registry.find? first.jobType = none)
    (same : l.record = first.after errors.length)
    (taken : l.deliveries = (List.range (errors.length + 1)).map first.after)
    (ended : l.outcomes = errors.map .failed ++ []) :
    (origin.rules run).Stops first errors.length ∧
      l.Came ((origin.rules run).upshot first errors.length) := by
  have last := lived.last_closed (by rw [here]; rfl)
  have none : errors = [] := by
    by_contra some
    obtain ⟨-, job, known, -⟩ := tally.retried some
    exact Option.some_ne_none job (known.symm.trans unknown)
  rw [ended, none, List.map_nil, List.append_nil, List.getLast?_nil, Option.map_none,
    Option.getD_none] at last
  constructor
  · refine ⟨tally.retries_before starts follows, ?_⟩
    rintro ⟨job, e, known, -⟩
    exact Option.some_ne_none job (known.symm.trans unknown)
  · refine .intro .deadLetter ?_ here taken last
    simp only [Rules.upshot, World.rules, unknown, same]

/-- Its last run failed and was not retried. -/
theorem came_failed (lived : Lived origin l) (here : l.station = .buried) {job : Job}
    {err : JobError} (known : origin.engine.registry.find? first.jobType = some job)
    (result : outcome.result = .error err)
    (same : l.record =
      (Worker.judged origin.pool.terms.policy job (first.after errors.length) outcome).after 1)
    (spent : (origin.engine.queue.threshold first).toNat ≤ l.record.fails.toNat)
    (taken : l.deliveries = (List.range (errors.length + 1)).map first.after)
    (ended : l.outcomes = errors.map .failed ++ [outcome]) :
    (origin.rules run).Stops first errors.length ∧
      l.Came ((origin.rules run).upshot first errors.length) := by
  have shown := tally.ended_at follows ended
  have last := lived.last_closed (by rw [here]; rfl)
  rw [ended, List.getLast?_concat, Option.map_some, Option.getD_some] at last
  constructor
  · refine ⟨tally.retries_before starts follows, ?_⟩
    rintro ⟨other, e, known', retries, failed, under⟩
    obtain rfl : job = other := Option.some.inj (known.symm.trans known')
    have failed : outcome = .failed e := shown.symm.trans failed
    have agree : (origin.engine.queue.threshold first).toNat =
        ((origin.rules run).policy.effectiveBudget job first).toNat :=
      congrArg _ (starts.agree first job known)
    rw [failed, Worker.judged_of_retries retries, Record.after_succ, Record.after_zero] at same
    rw [Record.after_succ, ← agree] at under
    rw [same] at spent
    exact absurd under (Nat.not_lt.mpr spent)
  · refine .intro .deadLetter ?_ here taken last
    simp only [Rules.upshot, World.rules, shown, known, result, same, Record.after_succ,
      Record.after_zero, Worker.fails_judged]

theorem came_buried (lived : Lived origin l) (here : l.station = .buried) :
    (origin.rules run).Stops first errors.length ∧
      l.Came ((origin.rules run).upshot first errors.length) := by
  have stands := tally.stands
  rw [here] at stands
  obtain ⟨taken, ⟨unknown, same, ended⟩ | ⟨job, outcome, err, known, result, same, spent, ended⟩⟩ :=
    stands
  · exact tally.came_stray starts follows lived here unknown same taken ended
  · exact tally.came_failed starts follows lived here known result same spent taken ended

end

end Life.Tally

/-! ## Two runs of the world -/

namespace World

variable {origin s : World} {id : JobId} {upshot : Upshot}

/-- The record was handed to the queue, at whatever time. -/
def Enqueued (s : World) (record : Record) : Prop :=
  ∃ stamp, .handed { record with enqueuedAt := stamp } ∈ s.history

/-- Each run of the job came to what the rule says of the record that was delivered. -/
def Follows (s : World) (run : RunRule) (id : JobId) : Prop :=
  s.outcomes id <+: (s.deliveries id).map run.on

/-- No record waits, and none is in hand. -/
structure WorkedOff (s : World) : Prop where
  pending : s.engine.queue.pending = []
  hands : s.pool.workers.filterMap Worker.record? = []

/-- The job came to this end, and to no other. -/
structure Ended (s : World) (id : JobId) (upshot : Upshot) : Prop where
  status : (s.statuses id).getLast? = some upshot.status
  entry : ∀ stats, s.engine.tracker.find? id = some stats → stats.status = upshot.status
  moved : ∃ record, upshot.destination.event record ∈ s.history ∧ record.id = id
  settled : ∀ destination record, Destination.event destination record ∈ s.history →
    record.id = id → destination = upshot.destination ∧ record.fails = upshot.fails
  deliveries : (s.deliveries id).length = upshot.deliveries

theorem Ended.unique {other : Upshot} (ended : s.Ended id upshot) (also : s.Ended id other) :
    upshot = other := by
  obtain ⟨record, moved, own⟩ := ended.moved
  obtain ⟨-, fails⟩ := ended.settled _ _ moved own
  obtain ⟨destination, fails'⟩ := also.settled _ _ moved own
  have status : upshot.status = other.status :=
    Option.some.inj (ended.status.symm.trans also.status)
  have deliveries : upshot.deliveries = other.deliveries :=
    ended.deliveries.symm.trans also.deliveries
  cases upshot
  cases other
  simp_all

theorem created_of_handed (tracked : Tracked origin s) {record : Record}
    (handed : .handed record ∈ s.history) : .created record ∈ s.history := by
  obtain ⟨token, there, -, told⟩ := life_of_told tracked handed
  exact (List.mem_filter.mp ((tracked.lived token there).created_of_handed.2 record told)).1

/-- What was worked off is in an archive. -/
theorem WorkedOff.archived (worked : s.WorkedOff) (tracked : Tracked origin s) {record : Record}
    (handed : .handed record ∈ s.history) :
    ∃ destination moved, Destination.event destination moved ∈ s.history ∧
      moved.id = record.id := by
  obtain ⟨moved, there, own⟩ :=
    List.mem_map.mp ((handed_iff tracked record.id).mpr ⟨record, handed, rfl⟩)
  rw [records, worked.pending, worked.hands, List.nil_append, List.nil_append, List.mem_append,
    List.mem_filterMap, List.mem_filterMap] at there
  rcases there with ⟨event, told, same⟩ | ⟨event, told, same⟩
  · cases event <;> cases same
    exact ⟨.completed, moved, told, own⟩
  · cases event <;> cases same
    exact ⟨.deadLetter, moved, told, own⟩

/-- What becomes of a record is what the rules say. -/
theorem ended_of_worked (launched : origin.Launched) (moves : List Move)
    (worked : (origin.run moves).WorkedOff) {first : Record}
    (handed : .handed first ∈ (origin.run moves).history) {run : RunRule}
    (follows : (origin.run moves).Follows run first.id) :
    ∃ n, (origin.rules run).Stops first n ∧
      (origin.run moves).Ended first.id ((origin.rules run).upshot first n) := by
  have starts := launched.starts
  have tracked := launched.tracked_run moves
  have born := created_of_handed tracked handed
  obtain ⟨destination, record, moved, own⟩ := worked.archived tracked handed
  have there := token_of_event moved (destination.token?_event record)
  have lived := tracked.lived _ there
  obtain ⟨errors, tally⟩ := tally_of_token starts tracked born there own
  rw [← own] at follows
  obtain ⟨stops, came⟩ : (origin.rules run).Stops first errors.length ∧
      ((origin.run moves).life (record, destination.station)).Came
        ((origin.rules run).upshot first errors.length) := by
    cases destination with
    | completed => exact tally.came_completed starts follows lived rfl
    | deadLetter => exact tally.came_buried starts follows lived rfl
  refine ⟨errors.length, stops, ?_⟩
  rw [← own]
  constructor
  · exact came.status
  · intro stats entry
    exact Option.some.inj ((last_of_entry tracked entry).symm.trans came.status)
  · refine ⟨record, ?_, rfl⟩
    rwa [← Destination.station_injective came.station]
  · intro other archived also same
    have unique := tracked.token_unique there
      (token_of_event also (other.token?_event archived)) same.symm
    obtain ⟨rfl, station⟩ := Prod.mk.inj unique
    exact ⟨Destination.station_injective (station.symm.trans came.station), came.fails⟩
  · exact came.deliveries

/-- Two pools over the same jobs and with the same default budget that have worked off the same
record have come to the same end with it, if its runs come to what the record alone says. Where the
record went stands in the histories, and the archives hold what these say was moved to them. -/
theorem schedule_independent {other : World} (launched : origin.Launched)
    (launched' : other.Launched) (registry : other.engine.registry = origin.engine.registry)
    (budget : other.pool.settings.defaultMaxFails = origin.pool.settings.defaultMaxFails)
    (moves moves' : List Move) (worked : (origin.run moves).WorkedOff)
    (worked' : (other.run moves').WorkedOff) {record : Record}
    (enqueued : (origin.run moves).Enqueued record)
    (enqueued' : (other.run moves').Enqueued record) {run : RunRule}
    (follows : (origin.run moves).Follows run record.id)
    (follows' : (other.run moves').Follows run record.id) :
    (origin.run moves).engine.queue.Remembers (origin.run moves).history ∧
      (other.run moves').engine.queue.Remembers (other.run moves').history ∧
      ∃ upshot, (origin.run moves).Ended record.id upshot ∧
        (other.run moves').Ended record.id upshot := by
  obtain ⟨stamp, handed⟩ := enqueued
  obtain ⟨stamp', handed'⟩ := enqueued'
  obtain ⟨n, stops, ended⟩ := ended_of_worked launched moves worked handed follows
  obtain ⟨m, stops', ended'⟩ := ended_of_worked launched' moves' worked' handed' follows'
  have rules : other.rules run = origin.rules run := by
    simp only [World.rules, registry, Pool.terms, budget]
  rw [rules] at stops' ended'
  -- neither the stops nor the upshot looks at the time stamp
  have unstamped : (origin.rules run).Stops record n := ⟨stops.before, stops.last⟩
  have unstamped' : (origin.rules run).Stops record m := ⟨stops'.before, stops'.last⟩
  obtain rfl := Rules.stops_unique unstamped unstamped'
  exact ⟨launched.remembers moves, launched'.remembers moves', (origin.rules run).upshot record n,
    ended, ended'⟩

/-- A pool of two workers over a service that knows one job. -/
def duo (job : Job) : World where
  engine := Pool.registerThresholds {} (bench job)
  pool := ⟨{ workers := 2 }, [.asking, .asking], { grace := 2000 }, false⟩

theorem duo_launched (job : Job) : (duo job).Launched :=
  ⟨{ workers := 2 }, bench job, ⟨rfl, rfl, rfl, rfl, rfl, .grown .empty rfl⟩, rfl⟩

/-- One worker alone, or two in turn and a little later: the record dies at the second failure. -/
theorem schedule_independent_broken :
    let record : Record := ⟨.ofNat 7, "broken", [], 0, none, ⟨0, 0⟩⟩
    let alone := firstAttempt ++ List.replicate 8 (.work 0)
    let turns := [.pass 5, .submit ⟨"broken", [], none⟩ (.ofNat 7), .proceed 0, .proceed 0] ++
      List.replicate 8 (.work 1) ++ List.replicate 7 (.work 0)
    (workshop broken).Launched ∧ (duo broken).Launched ∧
      ((workshop broken).run alone).Enqueued record ∧ ((duo broken).run turns).Enqueued record ∧
      ∃ upshot, ((workshop broken).run alone).Ended record.id upshot ∧
        ((duo broken).run turns).Ended record.id upshot ∧ upshot.deliveries = 2 := by
  intro record alone turns
  have enqueued : ((workshop broken).run alone).Enqueued record := ⟨⟨0, 0⟩, by decide +kernel⟩
  have enqueued' : ((duo broken).run turns).Enqueued record := ⟨.ofMillis 5, by decide +kernel⟩
  have worked : ((workshop broken).run alone).WorkedOff := ⟨by decide +kernel, by decide +kernel⟩
  have worked' : ((duo broken).run turns).WorkedOff := ⟨by decide +kernel, by decide +kernel⟩
  let fails : RunRule := fun _ _ _ _ => .failed (.failed "broken")
  have follows : ((workshop broken).run alone).Follows fails record.id := ⟨[], by decide +kernel⟩
  have follows' : ((duo broken).run turns).Follows fails record.id := ⟨[], by decide +kernel⟩
  obtain ⟨-, -, upshot, ended, ended'⟩ :=
    schedule_independent (workshop_launched broken) (duo_launched broken) rfl rfl alone turns
      worked worked' enqueued enqueued' follows follows'
  have twice : (((workshop broken).run alone).deliveries record.id).length = 2 := by decide +kernel
  exact ⟨workshop_launched broken, duo_launched broken, enqueued, enqueued', upshot, ended, ended',
    ended.deliveries.symm.trans twice⟩

end World

end JobEngine
