import JobEngine.Proofs.DeathMarks
import JobEngine.Proofs.RemainingWork
import JobEngine.Proofs.VirtualTime

/-!
# Time passes while nobody works

Where no task can go on, a wait consists of timers alone: confirmations are
delivered or go away, sleepers leave, and the clock moves from one timer to the
next. Each round has less left to do than the one before it, and so a wait ends
because of its condition or its time limit, and is never given up.
-/
namespace JobEngine

theorem DeadLetters.takeDue?_none {d : DeadLetters} {now : Nat} (none : d.takeDue? now = none) :
    ∀ time ∈ d.dues, now < time := by
  intro time mem
  obtain ⟨c, waits, rfl⟩ := List.mem_map.mp mem
  have late := List.find?_eq_none.mp (Option.map_eq_none_iff.mp none) c waits
  simpa using late

theorem DeadLetters.dropAbandoned_sublist (d : DeadLetters) :
    d.dropAbandoned.waiting.Sublist d.waiting := by
  rw [dropAbandoned]
  split
  · exact List.nil_sublist _
  · exact List.Sublist.refl _

theorem DeadLetters.waiting_dropAbandoned {d : DeadLetters}
    (abandoned : d.dropAbandoned.abandoned = true) : d.dropAbandoned.waiting = [] := by
  cases given : d.abandoned with
  | true => simp [dropAbandoned, given]
  | false => simp [dropAbandoned, given] at abandoned

theorem DeadLetters.dues_erase {d : DeadLetters} {c : Confirmation} (waits : c ∈ d.waiting) :
    ((d.waiting.erase c).map (·.due)).Sublist d.dues ∧
      ((d.waiting.erase c).map (·.due)).length < d.dues.length := by
  have some : 0 < d.waiting.length := List.length_pos_of_mem waits
  refine ⟨List.erase_sublist.map _, ?_⟩
  rw [dues, List.length_map, List.length_map, List.length_erase_of_mem waits]
  omega

/-- What happens to confirmations, and what may happen to the tracker besides. -/
inductive LetterEvent
  | scheduled (c : Confirmation)
  /-- The death was marked. -/
  | delivered (c : Confirmation)
  | dropped (c : Confirmation)
  | abandoned
  | written (call : TrackerCall) (change : Tracker → Except QueueError Tracker)

namespace Simulation

/-! ## What a round tells of confirmations -/

def drops (s : Simulation) : List LetterEvent :=
  if s.letters.abandoned then s.letters.waiting.map .dropped else []

/-- The confirmation that is delivered next, if one is due. -/
def delivers (s : Simulation) : List LetterEvent :=
  ((s.letters.takeDue? s.clock).map fun taken => LetterEvent.delivered taken.1).toList

def tells (s : Simulation) : List LetterEvent :=
  match s.turn with
  | some _ => []
  | none => s.drops ++ s.dropAbandoned.delivers

/-- What a wait tells, each event with its time. -/
def told (done : Simulation → Bool) (limit : Option Nat) :
    Nat → Simulation → List (Nat × LetterEvent)
  | 0, _ => []
  | fuel + 1, s =>
    if done s then []
    else s.tells.map (s.clock, ·) ++
      if (s.round limit).2 then told done limit fuel (s.round limit).1 else []

/-! ## Where no task can go on -/

/-- Whoever is there has stopped. -/
structure Still (s : Simulation) : Prop where
  idle : s.poolIdle = true
  waiters : s.waiters = []
  runner : s.runner = none
  periodic : s.periodic = none
  woken : s.engine.bell.woken = []

namespace Still

variable {s : Simulation} (still : s.Still)

include still

theorem stopped {pool : Pool} (here : s.pool = some pool) {w : Worker} (mem : w ∈ pool.workers) :
    w = .stopped := by
  have idle := still.idle
  simp only [poolIdle, here, List.all_eq_true] at idle
  have own := idle w mem
  cases w <;> first | rfl | cases own

theorem stepTask (task : Task) : s.stepTask task = none := by
  cases task with
  | runner => simp only [Simulation.stepTask, still.runner]
  | taker taker =>
    cases taker with
    | waiter name => simp only [Simulation.stepTask, still.waiters, List.find?_nil]
    | worker index =>
      simp only [Simulation.stepTask]
      split
      · rename_i pool here
        rw [stepWorker]
        cases there : pool.workers[index]? with
        | none => rfl
        | some w =>
          rw [still.stopped here (List.mem_of_getElem? there)]
      · rfl

theorem pause (task : Task) : s.pause task = 0 := by
  cases task with
  | runner => simp only [Simulation.pause, still.runner]
  | taker taker =>
    cases taker with
    | waiter name => rfl
    | worker index =>
      simp only [Simulation.pause]
      cases here : s.pool with
      | none => rfl
      | some pool =>
        rw [Option.bind_some]
        cases there : pool.workers[index]? with
        | none => rfl
        | some w =>
          rw [still.stopped here (List.mem_of_getElem? there)]
          rfl

/-- Whoever stands in line leaves it. -/
theorem turn : s.turn = match s.ready with
    | [] => none
    | _ :: rest => some { s with ready := rest } := by
  have admitted : s.admitWoken = s := by
    simp only [admitWoken, still.woken, List.map_nil, List.filter_nil, List.append_nil]
  rw [Simulation.turn, admitted]
  cases line : s.ready with
  | nil => rfl
  | cons task rest => simp only [still.pause task, still.stepTask task, Nat.lt_irrefl, if_false]

theorem look : s.look = none := by simp only [Simulation.look, still.periodic]

theorem asleep (asleep : List (Nat × Task)) : { s with asleep }.Still :=
  ⟨still.idle, still.waiters, still.runner, still.periodic, still.woken⟩

theorem wake : s.wake = (s.asleep.find? (·.1 ≤ s.clock)).map fun entry =>
    { s with asleep := s.asleep.erase entry } := by
  rw [Simulation.wake]
  cases s.asleep.find? (·.1 ≤ s.clock) with
  | none => rfl
  | some entry =>
    have stays := (still.asleep (s.asleep.erase entry)).stepTask entry.2
    simp only [Option.map_some, stays]

theorem timers : s.timers =
    s.letters.dues ++ s.pool.elim [] (·.letters.dues) ++ s.asleep.map (·.1) := by
  simp only [Simulation.timers, still.periodic, Option.bind_none, Option.toList_none,
    List.append_nil]

theorem dropAbandoned : s.dropAbandoned.Still := by
  refine ⟨?_, still.waiters, still.runner, still.periodic, still.woken⟩
  have idle := still.idle
  simp only [poolIdle, Simulation.dropAbandoned] at idle ⊢
  cases here : s.pool with
  | none => rfl
  | some pool =>
    rw [here] at idle
    exact idle

end Still

/-! ## Rounds -/

/-- What may happen when nobody stands in line and what was abandoned is gone. -/
inductive Turns (limit : Option Nat) (s : Simulation) :
    List LetterEvent → Simulation → Bool → Prop
  | confirms {c : Confirmation} (waits : c ∈ s.letters.waiting) (due : c.due ≤ s.clock) :
      Turns limit s [.delivered c]
        { s with
          letters := { s.letters with waiting := s.letters.waiting.erase c }
          engine := (s.engine.markDeadAt c.id c.diedAt).2 } true
  | poolConfirms {pool : Pool} {c : Confirmation} (here : s.pool = some pool)
      (waits : c ∈ pool.letters.waiting) (due : c.due ≤ s.clock) :
      Turns limit s []
        { s with
          pool := some { pool with
            letters := { pool.letters with waiting := pool.letters.waiting.erase c } }
          engine := (s.engine.markDeadAt c.id c.diedAt).2 } true
  | wakes {entry : Nat × Task} (sleeps : entry ∈ s.asleep) (due : entry.1 ≤ s.clock) :
      Turns limit s [] { s with asleep := s.asleep.erase entry } true
  | passes {time : Nat} (timer : time ∈ s.timers) (first : ∀ other ∈ s.timers, time ≤ other)
      (later : s.clock < time) (within : ∀ last ∈ limit, time ≤ last) :
      Turns limit s [] (s.setClock time) true
  | ends {last : Nat} (bound : limit = some last) (beyond : ∀ time ∈ s.timers, last < time) :
      Turns limit s [] (s.setClock last) false
  | rests (unbound : limit = none) (none : s.timers = []) : Turns limit s [] s false

/-- What a round does where no task can go on. -/
inductive Passes (limit : Option Nat) (s : Simulation) :
    List LetterEvent → Simulation → Bool → Prop
  | leaves {task : Task} {rest : List Task} (line : s.ready = task :: rest) :
      Passes limit s [] { s with ready := rest } true
  | turns {events : List LetterEvent} {next : Simulation} {more : Bool} (line : s.ready = [])
      (turn : Turns limit s.dropAbandoned events next more) :
      Passes limit s (s.drops ++ events) next more

theorem turns_confirm {s next : Simulation} (confirmed : s.confirm = some next)
    (limit : Option Nat) : Turns limit s s.delivers next true := by
  simp only [confirm] at confirmed
  split at confirmed
  · rename_i c letters taken
    obtain ⟨waits, due, rfl⟩ := DeadLetters.takeDue?_some taken
    obtain rfl := Option.some.inj confirmed
    have tells : s.delivers = [.delivered c] := by simp only [delivers, taken]; rfl
    exact tells ▸ .confirms waits due
  · rename_i none
    have tells : s.delivers = [] := by simp only [delivers, none]; rfl
    split at confirmed
    · cases confirmed
    · rename_i pool here
      obtain ⟨⟨c, letters⟩, taken, rfl⟩ := Option.map_eq_some_iff.mp confirmed
      obtain ⟨waits, due, rfl⟩ := DeadLetters.takeDue?_some taken
      exact tells ▸ .poolConfirms here waits due

theorem confirm_eq_none {s : Simulation} (none : s.confirm = none) :
    s.delivers = [] ∧
      ∀ time ∈ s.letters.dues ++ s.pool.elim [] (·.letters.dues), s.clock < time := by
  simp only [confirm] at none
  split at none
  · cases none
  · rename_i own
    refine ⟨by simp only [delivers, own]; rfl, fun time mem => ?_⟩
    rcases List.mem_append.mp mem with mem | mem
    · exact DeadLetters.takeDue?_none own time mem
    · split at none
      · rename_i absent
        rw [absent] at mem
        cases mem
      · rename_i pool here
        rw [here] at mem
        exact DeadLetters.takeDue?_none (Option.map_eq_none_iff.mp none) time mem

theorem Still.event {s : Simulation} (still : s.Still) : s.event =
    match s.confirm with
    | some next => some next
    | none => (s.asleep.find? (·.1 ≤ s.clock)).map fun entry =>
      { s with asleep := s.asleep.erase entry } := by
  rw [Simulation.event, still.look, ← still.wake]
  cases s.confirm <;> rfl

/-- If nothing happens, all timers lie in the future. -/
theorem Still.event_eq_none {s : Simulation} (still : s.Still) (none : s.event = none) :
    s.delivers = [] ∧ ∀ time ∈ s.timers, s.clock < time := by
  rw [still.event] at none
  cases confirmed : s.confirm with
  | some next =>
    rw [confirmed] at none
    cases none
  | none =>
    obtain ⟨quiet, dues⟩ := confirm_eq_none confirmed
    simp only [confirmed, Option.map_eq_none_iff] at none
    refine ⟨quiet, fun time mem => ?_⟩
    rw [still.timers] at mem
    rcases List.mem_append.mp mem with mem | mem
    · exact dues time mem
    · obtain ⟨entry, sleeps, rfl⟩ := List.mem_map.mp mem
      simpa using List.find?_eq_none.mp none entry sleeps

theorem Still.turns_event {s next : Simulation} (still : s.Still) (happens : s.event = some next)
    (limit : Option Nat) : Turns limit s s.delivers next true := by
  rw [still.event] at happens
  cases confirmed : s.confirm with
  | some later =>
    rw [confirmed] at happens
    obtain rfl := Option.some.inj happens
    exact turns_confirm confirmed limit
  | none =>
    simp only [confirmed] at happens
    obtain ⟨entry, found, rfl⟩ := Option.map_eq_some_iff.mp happens
    have due := List.find?_some found
    rw [(confirm_eq_none confirmed).1]
    exact .wakes (List.mem_of_find?_eq_some found) (by simpa using due)

theorem nextTime?_eq_some {s : Simulation} {time : Nat} (next : s.nextTime? = some time) :
    time ∈ s.timers ∧ ∀ other ∈ s.timers, time ≤ other :=
  List.min?_eq_some_iff.mp next

theorem Still.passes {s : Simulation} (still : s.Still) (limit : Option Nat) :
    Passes limit s s.tells (s.round limit).1 (s.round limit).2 := by
  have turned := still.turn
  cases line : s.ready with
  | cons task rest =>
    rw [line] at turned
    simp only [tells, round, turned]
    exact .leaves line
  | nil =>
    rw [line] at turned
    have dropped := still.dropAbandoned
    simp only [tells, round, turned]
    refine .turns line ?_
    cases happens : s.dropAbandoned.event with
    | some next => exact dropped.turns_event happens limit
    | none =>
      obtain ⟨quiet, future⟩ := dropped.event_eq_none happens
      dsimp only
      rw [quiet]
      cases next : s.dropAbandoned.nextTime? with
      | none =>
        have none : s.dropAbandoned.timers = [] := List.min?_eq_none_iff.mp next
        cases limit with
        | none => exact .rests rfl none
        | some last => exact .ends rfl (by simp [none])
      | some time =>
        obtain ⟨timer, first⟩ := nextTime?_eq_some next
        cases limit with
        | none => exact .passes timer first (future time timer) (by simp)
        | some last =>
          dsimp only
          split
          · rename_i beyond
            exact .ends rfl fun other mem => Nat.lt_of_lt_of_le beyond (first other mem)
          · rename_i within
            exact .passes timer first (future time timer) (by simpa using within)

/-! ## How many rounds are left -/

/-- One for each task in line, one for each timer, and one for the clock to reach it. -/
def roundsLeft (s : Simulation) : Nat :=
  s.ready.length + s.timers.length + s.timers.countP fun time => s.clock < time

theorem roundsLeft_lt_allowance (s : Simulation) : s.roundsLeft < s.allowance := by
  have later : s.timers.countP (fun time => s.clock < time) ≤ s.timers.length :=
    List.countP_le_length
  have patient : 0 < patience := by decide
  simp only [roundsLeft, allowance]
  omega

section Fewer

variable {s next : Simulation} (line : next.ready = s.ready) (clock : next.clock = s.clock)
  (timers : next.timers.Sublist s.timers)

include line clock timers

theorem roundsLeft_le : next.roundsLeft ≤ s.roundsLeft := by
  have fewer := timers.length_le
  have later := timers.countP_le (p := fun time => decide (s.clock < time))
  simp only [roundsLeft, line, clock]
  omega

theorem roundsLeft_lt (fewer : next.timers.length < s.timers.length) :
    next.roundsLeft < s.roundsLeft := by
  have later := timers.countP_le (p := fun time => decide (s.clock < time))
  simp only [roundsLeft, line, clock]
  omega

end Fewer

theorem dropAbandoned_roundsLeft (s : Simulation) :
    s.dropAbandoned.roundsLeft ≤ s.roundsLeft := by
  have pool : (s.dropAbandoned.pool.elim [] (·.letters.dues)).Sublist
      (s.pool.elim [] (·.letters.dues)) := by
    simp only [dropAbandoned]
    cases s.pool with
    | none => exact List.Sublist.refl _
    | some pool => exact pool.letters.dropAbandoned_sublist.map _
  refine roundsLeft_le rfl rfl ?_
  exact (((s.letters.dropAbandoned_sublist.map _).append pool).append (.refl _)).append (.refl _)

theorem countP_passed {timers : List Nat} {clock time : Nat} (timer : time ∈ timers)
    (later : clock < time) :
    timers.countP (fun other => time < other) < timers.countP fun other => clock < other := by
  have rest := List.perm_cons_erase timer
  rw [rest.countP_eq, rest.countP_eq, List.countP_cons_of_neg (by simp),
    List.countP_cons_of_pos (by simpa using later), Nat.lt_succ_iff]
  refine List.countP_mono_left fun other _ beyond => ?_
  simp only [decide_eq_true_eq] at beyond ⊢
  omega

theorem Turns.roundsLeft {limit : Option Nat} {s next : Simulation} {events : List LetterEvent}
    (turn : Turns limit s events next true) : next.roundsLeft < s.roundsLeft := by
  cases turn with
  | confirms waits due =>
    obtain ⟨left, fewer⟩ := DeadLetters.dues_erase waits
    refine roundsLeft_lt rfl (Engine.write_clock ..) ?_ ?_
    · exact ((left.append (.refl _)).append (.refl _)).append (.refl _)
    · simp only [timers, DeadLetters.dues, List.length_append] at fewer ⊢
      omega
  | poolConfirms here waits due =>
    obtain ⟨left, fewer⟩ := DeadLetters.dues_erase waits
    refine roundsLeft_lt rfl (Engine.write_clock ..) ?_ ?_
    · simp only [timers, here, Option.elim_some]
      exact (((List.Sublist.refl _).append left).append (.refl _)).append (.refl _)
    · simp only [timers, here, Option.elim_some, DeadLetters.dues, List.length_append] at fewer ⊢
      omega
  | @wakes entry sleeps due =>
    have some : 0 < s.asleep.length := List.length_pos_of_mem sleeps
    refine roundsLeft_lt rfl rfl ?_ ?_
    · exact (List.Sublist.refl _).append (List.erase_sublist.map _)
    · simp only [timers, List.length_append, List.length_map, List.length_erase_of_mem sleeps]
      omega
  | @passes time timer first later within =>
    have moved : (s.setClock time).roundsLeft = s.ready.length + s.timers.length +
        s.timers.countP (fun other => max s.clock time < other) := rfl
    have passed := countP_passed timer later
    rw [moved, Simulation.roundsLeft, Nat.max_eq_right (Nat.le_of_lt later)]
    omega

theorem Passes.roundsLeft {limit : Option Nat} {s next : Simulation} {events : List LetterEvent}
    (passes : Passes limit s events next true) : next.roundsLeft < s.roundsLeft := by
  cases passes with
  | @leaves task rest line =>
    have left : ({ s with ready := rest } : Simulation).roundsLeft =
        rest.length + s.timers.length + s.timers.countP (fun time => s.clock < time) := rfl
    rw [left, Simulation.roundsLeft, line, List.length_cons]
    omega
  | turns line turn => exact Nat.lt_of_lt_of_le turn.roundsLeft s.dropAbandoned_roundsLeft

/-! ## What a wait comes to -/

section Rounds

variable {limit : Option Nat} {s next : Simulation} {events : List LetterEvent} {more : Bool}

theorem Turns.still (turn : Turns limit s events next more) (still : s.Still) : next.Still := by
  obtain ⟨idle, waiters, runner, periodic, woken⟩ := still
  cases turn with
  | confirms waits due =>
    exact ⟨idle, waiters, runner, periodic, (Engine.write_bell ..).symm ▸ woken⟩
  | poolConfirms here waits due =>
    refine ⟨?_, waiters, runner, periodic, (Engine.write_bell ..).symm ▸ woken⟩
    rw [poolIdle, here] at idle
    exact idle
  | wakes | passes | ends | rests => exact ⟨idle, waiters, runner, periodic, woken⟩

theorem Passes.still (passes : Passes limit s events next more) (still : s.Still) :
    next.Still := by
  cases passes with
  | leaves line => exact ⟨still.idle, still.waiters, still.runner, still.periodic, still.woken⟩
  | turns line turn => exact turn.still still.dropAbandoned

theorem Turns.clock (turn : Turns limit s events next more) :
    s.clock ≤ next.clock ∧ ∀ last ∈ limit, s.clock ≤ last → next.clock ≤ last := by
  have kept {engine : Engine} (same : engine.clock = s.clock) :
      s.clock ≤ engine.clock ∧ ∀ last ∈ limit, s.clock ≤ last → engine.clock ≤ last := by
    rw [same]
    exact ⟨Nat.le_refl _, fun _ _ before => before⟩
  cases turn with
  | confirms | poolConfirms => exact kept (Engine.write_clock ..)
  | wakes | rests => exact kept rfl
  | passes timer first later within =>
    refine ⟨Nat.le_max_left .., fun last bound before => ?_⟩
    exact Nat.max_le.mpr ⟨before, within last bound⟩
  | ends bound beyond =>
    refine ⟨Nat.le_max_left .., fun last bound' before => ?_⟩
    obtain rfl := Option.some.inj (bound.symm.trans bound')
    exact Nat.max_le.mpr ⟨before, Nat.le_refl _⟩

theorem Passes.clock (passes : Passes limit s events next more) :
    s.clock ≤ next.clock ∧ ∀ last ∈ limit, s.clock ≤ last → next.clock ≤ last := by
  cases passes with
  | leaves line => exact ⟨Nat.le_refl _, fun _ _ before => before⟩
  | turns line turn => exact turn.clock

theorem letters_of_timers (none : s.timers = []) :
    s.letters.waiting = [] ∧ s.poolLettersEmpty = true := by
  simp only [timers, List.append_eq_nil_iff] at none
  obtain ⟨⟨⟨own, dues⟩, -⟩, -⟩ := none
  refine ⟨List.map_eq_nil_iff.mp own, ?_⟩
  rw [poolLettersEmpty]
  split
  · rename_i pool here
    rw [here] at dues
    exact List.isEmpty_iff.mpr (List.map_eq_nil_iff.mp dues)
  · rfl

/-- Nothing is left to wait for. -/
def Over (limit : Option Nat) (s : Simulation) : Prop :=
  match limit with
  | none => s.timers = []
  | some last => last ≤ s.clock

theorem Passes.finishes (passes : Passes limit s events next false) : Over limit next := by
  cases passes with
  | turns line turn =>
    cases turn with
    | ends bound beyond =>
      rw [bound]
      exact Nat.le_max_right ..
    | rests unbound none =>
      rw [unbound]
      exact none

end Rounds

variable {s : Simulation} (still : s.Still) (done : Simulation → Bool) (limit : Option Nat)

include still

/-- The induction is on the fuel, of which there is enough for all rounds that are left. -/
theorem Still.goOn {fuel : Nat} (enough : s.roundsLeft < fuel) :
    (s.goOn done limit fuel).Still ∧
      (done (s.goOn done limit fuel) = true ∨ Over limit (s.goOn done limit fuel)) := by
  induction fuel generalizing s with
  | zero => exact absurd enough (Nat.not_lt_zero _)
  | succ fuel ih =>
    have passes := still.passes limit
    unfold Simulation.goOn
    by_cases finished : done s = true
    · rw [if_pos finished]
      exact ⟨still, .inl finished⟩
    · rw [if_neg finished]
      cases more : (s.round limit).2 with
      | true =>
        rw [more] at passes
        have fewer := passes.roundsLeft
        exact ih (passes.still still) (by omega)
      | false =>
        rw [more] at passes
        exact ⟨passes.still still, .inr passes.finishes⟩

/-- A wait ends as it should. -/
theorem Still.wait : (s.wait done limit).Still ∧
    (done (s.wait done limit) = true ∨ Over limit (s.wait done limit)) :=
  still.goOn done limit s.roundsLeft_lt_allowance

theorem Still.goOn_clock (fuel : Nat) : s.clock ≤ (s.goOn done limit fuel).clock ∧
    ∀ last ∈ limit, s.clock ≤ last → (s.goOn done limit fuel).clock ≤ last := by
  induction fuel generalizing s with
  | zero => exact ⟨Nat.le_refl _, fun _ _ before => before⟩
  | succ fuel ih =>
    have passes := still.passes limit
    obtain ⟨later, within⟩ := passes.clock
    unfold Simulation.goOn
    split
    · exact ⟨Nat.le_refl _, fun _ _ before => before⟩
    · split
      · obtain ⟨later', within'⟩ := ih (passes.still still)
        exact ⟨Nat.le_trans later later',
          fun last bound before => within' last bound (within last bound before)⟩
      · exact ⟨later, within⟩

theorem Still.sleepUntil {time : Nat} (future : s.clock ≤ time) :
    (s.sleepUntil time).Still ∧ (s.sleepUntil time).clock = time := by
  obtain ⟨stays, ended⟩ := still.wait (fun s => time ≤ s.clock) (some time)
  have reached : time ≤ (s.sleepUntil time).clock := by
    rcases ended with done | late
    · exact of_decide_eq_true done
    · exact late
  obtain ⟨-, within⟩ :=
    still.goOn_clock (fun s => time ≤ s.clock) (some time) s.allowance
  exact ⟨stays, Nat.le_antisymm (within time rfl future) reached⟩

theorem Still.lettersEmpty_wait : (s.wait lettersEmpty none).letters.waiting = [] := by
  obtain ⟨-, empty | none⟩ := still.wait lettersEmpty none
  · exact List.isEmpty_iff.mp empty
  · exact (letters_of_timers none).1

theorem Still.poolLettersEmpty_wait : (s.wait poolLettersEmpty none).poolLettersEmpty = true := by
  obtain ⟨-, empty | none⟩ := still.wait poolLettersEmpty none
  · exact empty
  · exact (letters_of_timers none).2

/-- Once the workers have stopped no confirmation is left behind. -/
theorem Still.settleConfirmations : s.settleConfirmations.poolLettersEmpty = true := by
  refine Still.poolLettersEmpty_wait ?_
  refine ⟨?_, still.waiters, still.runner, still.periodic, still.woken⟩
  have idle := still.idle
  simp only [poolIdle] at idle ⊢
  cases here : s.pool with
  | none => rfl
  | some pool =>
    rw [here] at idle
    dsimp only [Option.map_some]
    split <;> exact idle

end Simulation

end JobEngine
