import JobEngine.Proofs.Attendance
import JobEngine.Proofs.StillTime

/-!
# Confirmations are delivered once, or dropped

A scheduler of confirmations is used by one who schedules, lets time pass,
writes to the tracker, drains and abandons, in any order. A ledger of such a
use accounts for every confirmation: it waits, was delivered at its time, or
was dropped because all had been abandoned by then. No wait is given up, so
nothing is left after a drain or when all was abandoned, and a pool that shuts
down leaves none behind.
-/
namespace JobEngine

open Time (Timestamp)

/-! ## Ledgers -/

/-- What became of confirmations, and when. -/
structure Ledger where
  scheduled : List (Nat × Confirmation) := []
  delivered : List (Nat × Confirmation) := []
  dropped : List (Nat × Confirmation) := []
  abandonments : List Nat := []

namespace Ledger

def enter (ledger : Ledger) (time : Nat) : LetterEvent → Ledger
  | .scheduled c => { ledger with scheduled := ledger.scheduled ++ [(time, c)] }
  | .delivered c => { ledger with delivered := ledger.delivered ++ [(time, c)] }
  | .dropped c => { ledger with dropped := ledger.dropped ++ [(time, c)] }
  | .abandoned => { ledger with abandonments := ledger.abandonments ++ [time] }
  | .written _ _ => ledger

/-- When the confirmation was delivered. -/
def deliveries (ledger : Ledger) (c : Confirmation) : List Nat :=
  (ledger.delivered.filter (·.2 = c)).map (·.1)

/-- How often the confirmation was scheduled. -/
def schedulings (ledger : Ledger) (c : Confirmation) : Nat :=
  (ledger.scheduled.map (·.2)).count c

/-- The ledger agrees with the scheduler and its clock. -/
structure Balances (ledger : Ledger) (grace clock : Nat) (letters : DeadLetters) : Prop where
  delay : letters.grace = grace
  due : ∀ entry ∈ ledger.scheduled, entry.2.due = entry.1 + grace
  all : (ledger.scheduled.map (·.2)).Perm
    (ledger.delivered.map (·.2) ++ ledger.dropped.map (·.2) ++ letters.waiting)
  waits : ∀ c ∈ letters.waiting, clock ≤ c.due
  delivered : ∀ entry ∈ ledger.delivered, entry.1 = entry.2.due ∧ entry.1 ≤ clock ∧
    ∀ time ∈ ledger.abandonments, entry.2.due ≤ time
  dropped : ∀ entry ∈ ledger.dropped, entry.1 ≤ entry.2.due ∧
    ∃ time ∈ ledger.abandonments, time ≤ entry.1
  abandoned : letters.abandoned = true ↔ ledger.abandonments ≠ []
  past : ∀ time ∈ ledger.abandonments, time ≤ clock

theorem forall_mem_concat {α : Type} {l : List α} {a : α} {P : α → Prop} :
    (∀ x ∈ l ++ [a], P x) ↔ (∀ x ∈ l, P x) ∧ P a := by
  simp only [List.forall_mem_append, List.forall_mem_singleton]

namespace Balances

variable {ledger : Ledger} {grace clock : Nat} {letters : DeadLetters}

theorem fresh (grace clock : Nat) : ({} : Ledger).Balances grace clock { grace } :=
  ⟨rfl, by simp, by simp, by simp, by simp, by simp, by simp, by simp⟩

theorem schedule (balances : ledger.Balances grace clock letters) (id : JobId)
    (diedAt : Timestamp) :
    (ledger.enter clock (.scheduled ⟨id, diedAt, clock + letters.grace⟩)).Balances grace clock
      (letters.schedule id diedAt clock) where
  delay := balances.delay
  due := forall_mem_concat.mpr ⟨balances.due, congrArg (clock + ·) balances.delay⟩
  all := by
    have grown := balances.all.append_right [⟨id, diedAt, clock + letters.grace⟩]
    rw [List.append_assoc] at grown
    simpa [enter, DeadLetters.schedule] using grown
  waits := forall_mem_concat.mpr ⟨balances.waits, Nat.le_add_right ..⟩
  delivered := balances.delivered
  dropped := balances.dropped
  abandoned := balances.abandoned
  past := balances.past

/-- Nothing is delivered after all was abandoned. -/
theorem deliver (balances : ledger.Balances grace clock letters)
    (kept : letters.abandoned = false) {c : Confirmation} (waits : c ∈ letters.waiting)
    (due : c.due ≤ clock) :
    (ledger.enter clock (.delivered c)).Balances grace clock
      { letters with waiting := letters.waiting.erase c } where
  delay := balances.delay
  due := balances.due
  all := by
    have rest := (List.perm_cons_erase waits).append_left
      (ledger.delivered.map (·.2) ++ ledger.dropped.map (·.2))
    have moved := balances.all.trans (rest.trans List.perm_middle)
    refine moved.trans ?_
    simp only [enter, List.map_append, List.map_cons, List.map_nil, List.append_assoc]
    exact List.perm_middle.symm
  waits := fun d mem => balances.waits d (List.mem_of_mem_erase mem)
  delivered := by
    have none : ledger.abandonments = [] := by
      by_contra some
      rw [balances.abandoned.mpr some] at kept
      cases kept
    have on_time : clock = c.due := Nat.le_antisymm (balances.waits c waits) due
    exact forall_mem_concat.mpr ⟨balances.delivered, on_time, Nat.le_refl _, by simp [enter, none]⟩
  dropped := balances.dropped
  abandoned := balances.abandoned
  past := balances.past

theorem abandon (balances : ledger.Balances grace clock letters) :
    (ledger.enter clock .abandoned).Balances grace clock letters.abandon where
  delay := balances.delay
  due := balances.due
  all := balances.all
  waits := balances.waits
  delivered := fun entry mem => by
    obtain ⟨on_time, before, kept⟩ := balances.delivered entry mem
    exact ⟨on_time, before, forall_mem_concat.mpr ⟨kept, on_time ▸ before⟩⟩
  dropped := fun entry mem => by
    obtain ⟨early, time, given, before⟩ := balances.dropped entry mem
    exact ⟨early, time, List.mem_append_left _ given, before⟩
  abandoned := by simp [enter, DeadLetters.abandon]
  past := forall_mem_concat.mpr ⟨balances.past, Nat.le_refl _⟩

/-- What waits is dropped together once all was abandoned. -/
theorem drop (balances : ledger.Balances grace clock letters)
    (abandoned : letters.abandoned = true) :
    ({ ledger with dropped := ledger.dropped ++ letters.waiting.map (clock, ·) } : Ledger).Balances
      grace clock { letters with waiting := [] } where
  delay := balances.delay
  due := balances.due
  all := by simpa [Function.comp_def] using balances.all
  waits := by simp
  delivered := balances.delivered
  dropped := by
    obtain ⟨time, given⟩ := List.exists_mem_of_ne_nil _ (balances.abandoned.mp abandoned)
    refine List.forall_mem_append.mpr ⟨balances.dropped, List.forall_mem_map.mpr fun c waits => ?_⟩
    exact ⟨balances.waits c waits, time, given, balances.past time given⟩
  abandoned := balances.abandoned
  past := balances.past

/-- Time may pass up to the next confirmation. -/
theorem pass (balances : ledger.Balances grace clock letters) {later : Nat}
    (before : clock ≤ later) (within : ∀ c ∈ letters.waiting, later ≤ c.due) :
    ledger.Balances grace later letters where
  delay := balances.delay
  due := balances.due
  all := balances.all
  waits := within
  delivered := fun entry mem => by
    obtain ⟨on_time, past, kept⟩ := balances.delivered entry mem
    exact ⟨on_time, Nat.le_trans past before, kept⟩
  dropped := balances.dropped
  abandoned := balances.abandoned
  past := fun time given => Nat.le_trans (balances.past time given) before

/-! ## What a ledger shows -/

theorem length_scheduled (balances : ledger.Balances grace clock letters) :
    ledger.scheduled.length =
      letters.pending + ledger.delivered.length + ledger.dropped.length := by
  have all := balances.all.length_eq
  simp only [List.length_append, List.length_map] at all
  rw [DeadLetters.pending]
  omega

theorem not_delivered {c : Confirmation} (never : ∀ entry ∈ ledger.delivered, entry.2 ≠ c) :
    ledger.deliveries c = [] := by
  rw [deliveries, List.map_eq_nil_iff, List.filter_eq_nil_iff]
  simpa using never

theorem not_early (balances : ledger.Balances grace clock letters) {c : Confirmation}
    (early : clock < c.due) : ledger.deliveries c = [] := by
  refine not_delivered fun entry mem => ?_
  rintro rfl
  obtain ⟨on_time, past, -⟩ := balances.delivered entry mem
  omega

theorem not_abandoned (balances : ledger.Balances grace clock letters) {c : Confirmation}
    (given : ∃ time ∈ ledger.abandonments, time < c.due) : ledger.deliveries c = [] := by
  refine not_delivered fun entry mem => ?_
  rintro rfl
  obtain ⟨time, mem', before⟩ := given
  have kept := (balances.delivered entry mem).2.2 time mem'
  omega

theorem on_time (balances : ledger.Balances grace clock letters) {c : Confirmation}
    (kept : ∀ time ∈ ledger.abandonments, c.due < time)
    (past : c.due < clock ∨ letters.waiting = []) :
    ledger.deliveries c = List.replicate (ledger.schedulings c) c.due := by
  have waits : letters.waiting.count c = 0 := by
    refine List.count_eq_zero.mpr fun mem => ?_
    rcases past with past | none
    · have before := balances.waits c mem
      omega
    · rw [none] at mem
      cases mem
  have dropped : (ledger.dropped.map (·.2)).count c = 0 := by
    refine List.count_eq_zero.mpr fun mem => ?_
    obtain ⟨entry, there, rfl⟩ := List.mem_map.mp mem
    obtain ⟨early, time, given, before⟩ := balances.dropped entry there
    have after := kept time given
    omega
  have often : (ledger.deliveries c).length = ledger.schedulings c := by
    have all := balances.all.count_eq c
    rw [List.count_append, List.count_append, waits, dropped] at all
    rw [schedulings, all, deliveries, List.length_map, List.count, List.countP_map,
      List.countP_eq_length_filter]
    rfl
  refine List.eq_replicate_iff.mpr ⟨often, fun time mem => ?_⟩
  obtain ⟨entry, picked, rfl⟩ := List.mem_map.mp mem
  obtain ⟨there, same⟩ := List.mem_filter.mp picked
  obtain rfl := of_decide_eq_true same
  exact (balances.delivered entry there).1

end Balances

end Ledger

/-! ## Stories -/

/-- What the event does to the engine: a confirmation that is delivered marks the death. -/
def LetterEvent.act (e : Engine) : LetterEvent → Engine
  | .delivered c => (e.markDeadAt c.id c.diedAt).2
  | .written call change => (e.write call change).2
  | _ => e

/-- It was delivered or dropped. -/
def LetterEvent.settles : LetterEvent → Bool
  | .delivered _ | .dropped _ => true
  | _ => false

/-- Events and their times, oldest first. -/
abbrev Story := List (Nat × LetterEvent)

namespace Story

def ledger (story : Story) : Ledger :=
  story.foldl (fun ledger entry => ledger.enter entry.1 entry.2) {}

/-- The engine after all that happened. -/
def replay (story : Story) (e : Engine) : Engine :=
  story.foldl (fun e entry => entry.2.act { e with clock := entry.1 }) e

theorem ledger_append (first second : Story) : (first ++ second : Story).ledger =
    second.foldl (fun ledger entry => ledger.enter entry.1 entry.2) first.ledger :=
  List.foldl_append

theorem replay_append (first second : Story) (e : Engine) :
    (first ++ second : Story).replay e = second.replay (first.replay e) := List.foldl_append

theorem enter_settles {story : Story} (settles : ∀ entry ∈ story, entry.2.settles = true)
    (ledger : Ledger) :
    let later := story.foldl (fun ledger entry => ledger.enter entry.1 entry.2) ledger
    later.scheduled = ledger.scheduled ∧ later.abandonments = ledger.abandonments := by
  induction story generalizing ledger with
  | nil => exact ⟨rfl, rfl⟩
  | cons entry rest ih =>
    obtain ⟨time, event⟩ := entry
    obtain ⟨own, others⟩ := List.forall_mem_cons.mp settles
    have later := ih others (ledger.enter time event)
    cases event with
    | delivered c | dropped c => exact later
    | scheduled | abandoned | written => cases own

theorem enter_dropped (cs : List Confirmation) (time : Nat) (ledger : Ledger) :
    (cs.map fun c => (time, LetterEvent.dropped c)).foldl
        (fun ledger entry => ledger.enter entry.1 entry.2) ledger =
      { ledger with dropped := ledger.dropped ++ cs.map (time, ·) } := by
  induction cs generalizing ledger with
  | nil => simp
  | cons c rest ih =>
    rw [List.map_cons, List.foldl_cons, ih]
    simp [Ledger.enter]

theorem replay_dropped (cs : List Confirmation) (time : Nat) (e : Engine) :
    { replay (cs.map fun c => (time, .dropped c)) e with clock := time } =
      { e with clock := time } := by
  induction cs generalizing e with
  | nil => rfl
  | cons c rest ih => exact ih { e with clock := time }

end Story

/-! ## The use of a scheduler -/

/-- What may be done with a scheduler and its tracker. -/
inductive LetterCall
  | schedule (id : JobId) (diedAt : Timestamp)
  | write (call : TrackerCall) (change : Tracker → Except QueueError Tracker)
  | sleep (ms : Nat)
  | drain
  | abandon

namespace Simulation

def perform (s : Simulation) : LetterCall → Simulation
  | .schedule id diedAt => { s with letters := s.letters.schedule id diedAt s.clock }
  | .write call change => { s with engine := (s.engine.write call change).2 }
  | .sleep ms => s.sleep ms
  | .drain => s.drainLetters
  | .abandon => s.abandonLetters

/-- What a wait tells. -/
def waitStory (s : Simulation) (done : Simulation → Bool) (limit : Option Nat) : Story :=
  told done limit s.allowance s

def chapter (s : Simulation) : LetterCall → Story
  | .schedule id diedAt => [(s.clock, .scheduled ⟨id, diedAt, s.clock + s.letters.grace⟩)]
  | .write call change => [(s.clock, .written call change)]
  | .sleep ms => s.waitStory (fun later => s.clock + ms ≤ later.clock) (some (s.clock + ms))
  | .drain => s.waitStory lettersEmpty none
  | .abandon =>
    let given : Simulation := { s with letters := s.letters.abandon }
    (s.clock, .abandoned) :: given.waitStory lettersEmpty none

def performAll (s : Simulation) (calls : List LetterCall) : Simulation := calls.foldl perform s

def story (s : Simulation) : List LetterCall → Story
  | [] => []
  | call :: rest => s.chapter call ++ (s.perform call).story rest

/-- The story accounts for the engine and for all confirmations. -/
structure Accounts (start : Engine) (grace : Nat) (story : Story) (s : Simulation) : Prop where
  still : s.Still
  alone : s.poolLettersEmpty = true
  engine : s.engine = { story.replay start with clock := s.clock }
  balances : story.ledger.Balances grace s.clock s.letters

namespace Accounts

variable {start : Engine} {grace : Nat} {story : Story} {s next : Simulation}
  {limit : Option Nat} {events : List LetterEvent} {more : Bool}

/-- An event is written down with its effect. -/
theorem enter (accounts : s.Accounts start grace story) {event : LetterEvent}
    (still : next.Still) (alone : next.poolLettersEmpty = true)
    (engine : next.engine = event.act s.engine) (clock : next.clock = s.clock)
    (balances : (story.ledger.enter s.clock event).Balances grace s.clock next.letters) :
    next.Accounts start grace (story ++ [(s.clock, event)]) where
  still := still
  alone := alone
  engine := by
    have replayed : (story ++ [(s.clock, event)] : Story).replay start = next.engine := by
      rw [Story.replay_append, engine, accounts.engine]
      rfl
    rw [replayed]
    rfl
  balances := by
    rw [Story.ledger_append, clock]
    exact balances

/-- Time may pass up to the next confirmation. -/
theorem pass (accounts : s.Accounts start grace story) (still : next.Still)
    (alone : next.poolLettersEmpty = true) (letters : next.letters = s.letters)
    (engine : next.engine = { s.engine with clock := next.clock }) (later : s.clock ≤ next.clock)
    (within : ∀ c ∈ s.letters.waiting, next.clock ≤ c.due) :
    next.Accounts start grace story where
  still := still
  alone := alone
  engine := by rw [engine, accounts.engine]
  balances := by
    rw [letters]
    exact accounts.balances.pass later within

theorem drop (accounts : s.Accounts start grace story) :
    s.dropAbandoned.Accounts start grace (story ++ s.drops.map (s.clock, ·)) := by
  have still := accounts.still.dropAbandoned
  have alone : s.dropAbandoned.poolLettersEmpty = true := by
    have alone := accounts.alone
    simp only [poolLettersEmpty, dropAbandoned] at alone ⊢
    cases here : s.pool with
    | none => rfl
    | some pool =>
      rw [here] at alone
      have left := pool.letters.dropAbandoned_sublist
      rw [List.isEmpty_iff.mp alone] at left
      exact List.isEmpty_iff.mpr (List.sublist_nil.mp left)
  cases abandoned : s.letters.abandoned with
  | false =>
    have none : s.drops = [] := by simp [drops, abandoned]
    have letters : s.dropAbandoned.letters = s.letters := by
      simp [dropAbandoned, DeadLetters.dropAbandoned, abandoned]
    rw [none, List.map_nil, List.append_nil]
    exact accounts.pass still alone letters rfl (Nat.le_refl _) accounts.balances.waits
  | true =>
    have drops : s.drops.map (s.clock, ·) =
        s.letters.waiting.map fun c => (s.clock, .dropped c) := by
      simp [drops, abandoned]
    have letters : s.dropAbandoned.letters = { s.letters with waiting := [] } := by
      simp [dropAbandoned, DeadLetters.dropAbandoned, abandoned]
    rw [drops]
    refine ⟨still, alone, ?_, ?_⟩
    · rw [Story.replay_append]
      exact accounts.engine.trans (Story.replay_dropped ..).symm
    · rw [letters, Story.ledger_append, Story.enter_dropped]
      exact accounts.balances.drop abandoned

theorem turn (accounts : s.Accounts start grace story)
    (gone : s.letters.abandoned = true → s.letters.waiting = [])
    (turn : Turns limit s events next more) :
    next.Accounts start grace (story ++ events.map (s.clock, ·)) := by
  have still := turn.still accounts.still
  have alone := accounts.alone
  have waits := accounts.balances.waits
  have timer {c : Confirmation} (mem : c ∈ s.letters.waiting) : c.due ∈ s.timers := by
    simp only [timers, List.append_assoc]
    exact List.mem_append_left _ (List.mem_map_of_mem mem)
  cases turn with
  | @confirms c mem due =>
    have kept : s.letters.abandoned = false := by
      cases abandoned : s.letters.abandoned with
      | false => rfl
      | true =>
        rw [gone abandoned] at mem
        cases mem
    exact accounts.enter still alone rfl (Engine.write_clock ..)
      (accounts.balances.deliver kept mem due)
  | poolConfirms here mem due =>
    simp only [poolLettersEmpty, here, List.isEmpty_iff] at alone
    rw [alone] at mem
    cases mem
  | wakes | rests =>
    rw [List.map_nil, List.append_nil]
    exact accounts.pass still alone rfl rfl (Nat.le_refl _) waits
  | passes _ first later within =>
    rw [List.map_nil, List.append_nil]
    refine accounts.pass still alone rfl rfl (Nat.le_max_left ..) fun c mem => ?_
    exact Nat.max_le.mpr ⟨waits c mem, first _ (timer mem)⟩
  | ends bound beyond =>
    rw [List.map_nil, List.append_nil]
    refine accounts.pass still alone rfl rfl (Nat.le_max_left ..) fun c mem => ?_
    exact Nat.max_le.mpr ⟨waits c mem, Nat.le_of_lt (beyond _ (timer mem))⟩

theorem passes (accounts : s.Accounts start grace story)
    (passes : Passes limit s events next more) :
    next.Accounts start grace (story ++ events.map (s.clock, ·)) := by
  cases passes with
  | leaves line =>
    have still := accounts.still
    rw [List.map_nil, List.append_nil]
    exact accounts.pass ⟨still.idle, still.waiters, still.runner, still.periodic, still.woken⟩
      accounts.alone rfl rfl (Nat.le_refl _) accounts.balances.waits
  | turns line turn =>
    rw [List.map_append, ← List.append_assoc]
    exact accounts.drop.turn (fun abandoned => DeadLetters.waiting_dropAbandoned abandoned) turn

/-- The induction is on the fuel. -/
theorem goOn (accounts : s.Accounts start grace story) (done : Simulation → Bool)
    (limit : Option Nat) (fuel : Nat) :
    (s.goOn done limit fuel).Accounts start grace (story ++ told done limit fuel s) := by
  induction fuel generalizing s story with
  | zero =>
    rw [told, List.append_nil]
    exact accounts
  | succ fuel ih =>
    have next := accounts.passes (accounts.still.passes limit)
    unfold Simulation.goOn told
    by_cases finished : done s = true
    · rw [if_pos finished, if_pos finished, List.append_nil]
      exact accounts
    · rw [if_neg finished, if_neg finished, ← List.append_assoc]
      cases (s.round limit).2 with
      | true => exact ih next
      | false =>
        rw [if_neg (by simp), if_neg (by simp), List.append_nil]
        exact next

theorem wait (accounts : s.Accounts start grace story) (done : Simulation → Bool)
    (limit : Option Nat) :
    (s.wait done limit).Accounts start grace (story ++ s.waitStory done limit) :=
  accounts.goOn done limit s.allowance

theorem perform (accounts : s.Accounts start grace story) (call : LetterCall) :
    (s.perform call).Accounts start grace (story ++ s.chapter call) := by
  obtain ⟨idle, waiters, runner, periodic, woken⟩ := accounts.still
  have balances := accounts.balances
  cases call with
  | schedule id diedAt =>
    exact accounts.enter ⟨idle, waiters, runner, periodic, woken⟩ accounts.alone rfl rfl
      (balances.schedule id diedAt)
  | write call change =>
    have still : (s.perform (.write call change)).Still :=
      ⟨idle, waiters, runner, periodic, (Engine.write_bell ..).symm ▸ woken⟩
    exact accounts.enter still accounts.alone rfl (Engine.write_clock ..) balances
  | sleep ms => exact accounts.wait _ _
  | drain => exact accounts.wait _ _
  | abandon =>
    let given : Simulation := { s with letters := s.letters.abandon }
    have entered : given.Accounts start grace (story ++ [(s.clock, .abandoned)]) :=
      accounts.enter ⟨idle, waiters, runner, periodic, woken⟩ accounts.alone rfl rfl
        balances.abandon
    have waited := entered.wait lettersEmpty none
    rw [List.append_assoc] at waited
    exact waited

theorem performAll (accounts : s.Accounts start grace story) (calls : List LetterCall) :
    (s.performAll calls).Accounts start grace (story ++ s.story calls) := by
  induction calls generalizing s story with
  | nil =>
    rw [Simulation.story, List.append_nil]
    exact accounts
  | cons call rest ih =>
    rw [Simulation.story, ← List.append_assoc]
    exact ih (accounts.perform call)

end Accounts

/-! ## What the calls ask for -/

/-- The confirmations that are scheduled, with the times of the calls. -/
def requests (s : Simulation) : List LetterCall → List (Nat × Confirmation)
  | [] => []
  | .schedule id diedAt :: rest =>
    (s.clock, ⟨id, diedAt, s.clock + s.letters.grace⟩) ::
      (s.perform (.schedule id diedAt)).requests rest
  | call :: rest => (s.perform call).requests rest

/-- When it is abandoned what waits. -/
def withdrawals (s : Simulation) : List LetterCall → List Nat
  | [] => []
  | .abandon :: rest => s.clock :: (s.perform .abandon).withdrawals rest
  | call :: rest => (s.perform call).withdrawals rest

theorem tells_settles (s : Simulation) : ∀ event ∈ s.tells, event.settles = true := by
  intro event mem
  rw [tells] at mem
  split at mem
  · cases mem
  · rcases List.mem_append.mp mem with mem | mem
    · rw [drops] at mem
      split at mem
      · obtain ⟨c, -, rfl⟩ := List.mem_map.mp mem
        rfl
      · cases mem
    · obtain ⟨taken, -, rfl⟩ := Option.map_eq_some_iff.mp (Option.mem_toList.mp mem)
      rfl

theorem told_settles (done : Simulation → Bool) (limit : Option Nat) (fuel : Nat)
    (s : Simulation) : ∀ entry ∈ told done limit fuel s, entry.2.settles = true := by
  induction fuel generalizing s with
  | zero => simp [told]
  | succ fuel ih =>
    intro entry mem
    unfold told at mem
    split at mem
    · cases mem
    · rcases List.mem_append.mp mem with mem | mem
      · obtain ⟨event, told, rfl⟩ := List.mem_map.mp mem
        exact s.tells_settles event told
      · split at mem
        · exact ih _ entry mem
        · cases mem

/-- Only calls schedule and abandon. -/
theorem enter_story (s : Simulation) (calls : List LetterCall) (ledger : Ledger) :
    let later := (s.story calls).foldl (fun ledger entry => ledger.enter entry.1 entry.2) ledger
    later.scheduled = ledger.scheduled ++ s.requests calls ∧
      later.abandonments = ledger.abandonments ++ s.withdrawals calls := by
  induction calls generalizing s ledger with
  | nil => simp [story, requests, withdrawals]
  | cons call rest ih =>
    have waited (s : Simulation) (done : Simulation → Bool) (limit : Option Nat)
        (ledger : Ledger) :=
      Story.enter_settles (told_settles done limit s.allowance s) ledger
    simp only [story, List.foldl_append, ih]
    cases call with
    | schedule id diedAt => simp [chapter, Ledger.enter, requests, withdrawals]
    | write call change => simp [chapter, Ledger.enter, requests, withdrawals]
    | sleep ms =>
      obtain ⟨scheduled, abandonments⟩ := waited s (fun later => s.clock + ms ≤ later.clock)
        (some (s.clock + ms)) ledger
      simp only [chapter, waitStory, scheduled, abandonments, requests, withdrawals, and_self]
    | drain =>
      obtain ⟨scheduled, abandonments⟩ := waited s lettersEmpty none ledger
      simp only [chapter, waitStory, scheduled, abandonments, requests, withdrawals, and_self]
    | abandon =>
      obtain ⟨scheduled, abandonments⟩ := waited { s with letters := s.letters.abandon }
        lettersEmpty none (ledger.enter s.clock .abandoned)
      simp only [chapter, waitStory, List.foldl_cons]
      rw [scheduled, abandonments]
      simp [Ledger.enter, requests, withdrawals]

/-! ## Pools that shut down -/

namespace Shows

variable {s : Simulation} {w : World}

theorem closePool (shows : s.Shows w) : s.closePool.Shows (w.apply .close) := by
  simp only [Simulation.closePool, shows.pool]
  exact ⟨shows.engine, rfl, shows.waiters, shows.runner, shows.letters, shows.periodic⟩

/-- When the workers have stopped nobody is left at the bell. -/
theorem still (shows : s.Shows w) (attentive : w.Attentive) (idle : s.poolIdle = true) :
    s.Still := by
  refine ⟨idle, shows.waiters, shows.runner, shows.periodic, ?_⟩
  rw [List.eq_nil_iff_forall_not_mem]
  intro t woken
  rw [shows.engine] at woken
  obtain ⟨index, rfl, parked⟩ :=
    (attentive.seats.seated t).mp (List.mem_append_right _ woken)
  simp only [poolIdle, shows.pool, List.all_eq_true] at idle
  have stopped := idle _ (List.mem_of_getElem? parked)
  cases stopped

end Shows

/-- The pool is removed when no confirmation of its own is left. -/
def LeavesNone (s : Simulation) : Prop :=
  let settled := s.closePool.joinWorkers.settleConfirmations
  s.shutdownPool = settled.removePool ∧ settled.poolLettersEmpty = true

/-- A pool that shuts down leaves no confirmation behind, once its workers have stopped. -/
theorem shutdown_leaves_none (origin : World) (moves : List Move) (s : Simulation)
    (launched : origin.Launched) (parked : origin.engine.bell.parked = [])
    (woken : origin.engine.bell.woken = []) (shows : s.Shows (origin.run moves))
    (idle : s.closePool.joinWorkers.poolIdle = true) : s.LeavesNone := by
  obtain ⟨more, joined⟩ := shows.closePool.wait poolIdle none
  have attentive := (launched.starts.attentive parked woken).run moves
  have running : ¬s.pool.isNone = true := by simp [shows.pool]
  refine ⟨if_neg running, ?_⟩
  exact (joined.still ((attentive.apply .close).run more) idle).settleConfirmations

/-! ## All confirmations -/

theorem accounts_story {s : Simulation} {grace : Nat} (still : s.Still)
    (alone : s.poolLettersEmpty = true) (fresh : s.letters = { grace })
    (calls : List LetterCall) :
    (s.performAll calls).Accounts s.engine grace (s.story calls) := by
  have starts : s.Accounts s.engine grace [] := by
    refine ⟨still, alone, rfl, ?_⟩
    rw [fresh]
    exact .fresh grace s.clock
  exact starts.performAll calls

/-- A scheduler is used where nobody else is at work. The engine is what the deliveries at their
times and the writes of the user make of it. A confirmation waits, was delivered or was dropped; it
is delivered as often as it was scheduled, each time exactly after the grace delay, if nothing was
abandoned by then, and otherwise never, also if it is scheduled later. Nothing is left after a
drain or an abandonment, and a pool that shuts down leaves none (`shutdown_leaves_none`). -/
theorem confirmed_once {s : Simulation} {grace : Nat} (still : s.Still)
    (alone : s.poolLettersEmpty = true) (fresh : s.letters = { grace }) (positive : 0 < grace)
    (calls : List LetterCall) :
    let ledger := (s.story calls).ledger
    let last := s.performAll calls
    (ledger.scheduled = s.requests calls ∧ ledger.abandonments = s.withdrawals calls ∧
      last.engine = { (s.story calls).replay s.engine with clock := last.clock }) ∧
    ledger.scheduled.length =
      last.letters.pending + ledger.delivered.length + ledger.dropped.length ∧
    (∀ entry ∈ ledger.scheduled, entry.2.due = entry.1 + grace) ∧
    (∀ c, last.clock < c.due → ledger.deliveries c = []) ∧
    (∀ c, (∀ time ∈ ledger.abandonments, c.due < time) →
      c.due < last.clock ∨ last.letters.waiting = [] →
        ledger.deliveries c = List.replicate (ledger.schedulings c) c.due) ∧
    (∀ c, (∃ time ∈ ledger.abandonments, time < c.due) → ledger.deliveries c = []) ∧
    (∀ entry ∈ ledger.scheduled, (∃ time ∈ ledger.abandonments, time ≤ entry.1) →
      ledger.deliveries entry.2 = []) ∧
    (∀ ms, (last.perform (.sleep ms)).clock = last.clock + ms) ∧
    (last.perform .drain).letters.waiting = [] ∧
    (last.perform .abandon).letters.waiting = [] ∧
    ∀ (origin : World) (moves : List Move) (service : Simulation), origin.Launched →
      origin.engine.bell.parked = [] → origin.engine.bell.woken = [] →
      service.Shows (origin.run moves) → service.closePool.joinWorkers.poolIdle = true →
        service.LeavesNone := by
  obtain ⟨scheduled, abandonments⟩ := s.enter_story calls {}
  obtain ⟨stays, -, engine, balances⟩ := accounts_story still alone fresh calls
  have given : ({ s.performAll calls with
      letters := (s.performAll calls).letters.abandon } : Simulation).Still :=
    ⟨stays.idle, stays.waiters, stays.runner, stays.periodic, stays.woken⟩
  refine ⟨⟨scheduled, abandonments, engine⟩, balances.length_scheduled, balances.due,
    fun c => balances.not_early, fun c => balances.on_time, fun c => balances.not_abandoned,
    fun entry mem => ?_, fun ms => ?_, stays.lettersEmpty_wait, given.lettersEmpty_wait,
    shutdown_leaves_none⟩
  · rintro ⟨time, there, before⟩
    have due := balances.due entry mem
    exact balances.not_abandoned ⟨time, there, by omega⟩
  · exact (stays.sleepUntil (Nat.le_add_right ..)).2

/-- One confirmation is delivered before all is abandoned, one waits then, and one comes after. A
pool with a confirmation that waits shuts down without one. -/
theorem confirmed_once_abandoned :
    let s : Simulation := { engine := { clock := 0 }, letters := { grace := 2000 } }
    let calls : List LetterCall := [.schedule (.ofNat 1) (.ofMillis 0), .sleep 2500,
      .schedule (.ofNat 2) (.ofMillis 2500), .sleep 500, .abandon,
      .schedule (.ofNat 3) (.ofMillis 3000), .sleep 3000]
    let ledger := (s.story calls).ledger
    let w := (World.workshop World.hopeless).run (World.lastRites.take 15)
    let service : Simulation :=
      { engine := w.engine, pool := some w.pool, letters := { grace := 2000 } }
    (s.Still ∧ s.poolLettersEmpty = true ∧ s.letters = { grace := 2000 } ∧ 0 < 2000) ∧
      ledger.deliveries ⟨.ofNat 1, .ofMillis 0, 2000⟩ = [2000] ∧
      ledger.deliveries ⟨.ofNat 2, .ofMillis 2500, 4500⟩ = [] ∧
      ledger.deliveries ⟨.ofNat 3, .ofMillis 3000, 5000⟩ = [] ∧
      service.closePool.joinWorkers.poolLettersEmpty = false ∧
      service.closePool.joinWorkers.settleConfirmations.poolLettersEmpty = true := by
  intro s calls ledger w service
  have still : s.Still := ⟨rfl, rfl, rfl, rfl, rfl⟩
  obtain ⟨⟨scheduled, abandonments, -⟩, -, -, -, once, never, later, -, -, -, shutdown⟩ :=
    confirmed_once still rfl rfl (by decide) calls
  have asked : s.requests calls = [(0, ⟨.ofNat 1, .ofMillis 0, 2000⟩),
      (2500, ⟨.ofNat 2, .ofMillis 2500, 4500⟩), (3000, ⟨.ofNat 3, .ofMillis 3000, 5000⟩)] := by
    decide +kernel
  have given : s.withdrawals calls = [3000] := by decide +kernel
  have clock : (s.performAll calls).clock = 6000 := by decide +kernel
  have scheduled := scheduled.trans asked
  have abandonments := abandonments.trans given
  have often : ledger.schedulings ⟨.ofNat 1, .ofMillis 0, 2000⟩ = 1 := by
    rw [Ledger.schedulings, scheduled]
    decide +kernel
  have kept := once ⟨.ofNat 1, .ofMillis 0, 2000⟩ (by simp [abandonments])
    (.inl (by rw [clock]; decide))
  rw [often] at kept
  have idle : service.closePool.joinWorkers.poolIdle = true := by decide +kernel
  refine ⟨⟨still, rfl, rfl, by decide⟩, kept, ?_, ?_, by decide +kernel, ?_⟩
  · exact never _ ⟨3000, by simp [abandonments], by decide⟩
  · exact later (3000, ⟨.ofNat 3, .ofMillis 3000, 5000⟩) (by simp [scheduled])
      ⟨3000, by simp [abandonments], by decide⟩
  · have shows : service.Shows w := ⟨rfl, rfl, rfl, rfl, rfl, rfl⟩
    exact (shutdown _ _ service (World.workshop_launched _) rfl rfl shows idle).2

end Simulation

end JobEngine
