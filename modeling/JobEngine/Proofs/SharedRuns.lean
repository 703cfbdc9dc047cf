import JobEngine.Proofs.ArtifactLookups
import JobEngine.Proofs.RemainingWork
import JobEngine.Proofs.SoleRuns
import Mathlib.Logic.Function.Basic

/-!
# Deliveries that take turns

Several deliveries go on side by side, each of them step by step, in any order.
Between two turns others may do what they like to the tracker, the queue, the
logs and the clock. Where the deliveries share one store, the artifacts change
only by what a turn does to them: a delivery removes one, or someone else pushes
or removes one in a turn of his own.
-/
namespace JobEngine

/-- Whose turn it is. -/
inductive Turn (ι : Type)
  | step (i : ι)
  /-- Someone else changes the artifacts. -/
  | change (c : StoreChange)

structure SharedRun (ι : Type) where
  terms : Terms
  start : ι → Delivery
  turns : Nat → Turn ι
  /-- What each turn meets. -/
  met : Nat → Engine × DeadLetters

/-- A call that reads the artifacts of a repository, or removes one. -/
inductive Access
  | list (repository : String)
  | delete (repository digest : String)
deriving DecidableEq

namespace Access

def change? : Access → Option StoreChange
  | .list _ => none
  | .delete repository digest => some (.delete repository digest)

end Access

/-- The call that the next action makes. -/
def Activity.access? : Activity → Option Access
  | .list repository _ => some (.list repository)
  | .delete repository digest _ => some (.delete repository digest)
  | _ => none

def Delivery.access? (d : Delivery) : Option Access :=
  match d.stage with
  | .active _ rest => rest.access?
  | _ => none

theorem Delivery.access?_active {d : Delivery} {log : OpenLog} {rest : Activity}
    (active : d.stage = .active log rest) : d.access? = rest.access? := by
  rw [access?, active]

/-- Of the artifacts a step changes what its call changes. -/
theorem Delivery.store_step {e : Engine} (serves : e.storeOutage = []) (d : Delivery)
    (terms : Terms) (letters : DeadLetters) :
    (d.step terms e letters).2.1.store =
      (d.access?.bind Access.change?).elim e.store e.store.change := by
  obtain ⟨record, job, stage⟩ := d
  cases stage with
  | fetched | ended outcome => exact Engine.write_store _ _ _
  | announced =>
    simp only [step, prepare, access?]
    split
    · rfl
    · split <;> rfl
  | active log rest =>
    cases rest with
    | delete repository digest next => exact (Engine.deleteArtifact_serving serves _ _).2
    | checkIn message next => exact Engine.write_store _ _ _
    | order command next =>
      show (e.sendCommand record.id command).2.store = e.store
      exact Engine.write_store _ _ _
    | _ => rfl
  | reported outcome =>
    simp only [step]
    split <;> rfl
  | decided result => rfl

theorem Tracker.Silent.heard {e : Engine} (silent : e.tracker.Silent) (id : JobId) :
    e.heard id = none := by
  unfold Engine.heard Engine.command?
  by_cases refuses : .ctlCommand ∈ e.trackerOutage
  · simp only [refuses, if_true]
  · simp only [refuses, if_false, silent.command? id]

/-- A step writes no command, unless the job orders one for itself. -/
theorem Delivery.silent_step {d : Delivery} {e : Engine} (silent : e.tracker.Silent)
    (obeys : ∀ log command next, d.stage ≠ .active log (.order command next)) (terms : Terms)
    (letters : DeadLetters) : (d.step terms e letters).2.1.tracker.Silent := by
  have marked (id : JobId) (status : Status) : (e.setStatus id status).2.tracker.Silent := by
    unfold Engine.setStatus Engine.write
    split
    · exact silent
    · exact silent.setStatus id status e.now
  obtain ⟨record, job, stage⟩ := d
  cases stage with
  | fetched | ended outcome => exact marked _ _
  | announced =>
    simp only [step, prepare]
    split
    · exact silent
    · split <;> exact silent
  | active log rest =>
    cases rest with
    | checkIn message next =>
      show (e.checkIn record.id message).2.tracker.Silent
      unfold Engine.checkIn Engine.write
      split
      · exact silent
      · split
        · rename_i tracker written
          exact silent.checkIn written
        · exact silent
    | order command next => exact absurd rfl (obeys log command next)
    | delete repository digest next =>
      show (e.deleteArtifact repository digest).2.tracker.Silent
      unfold Engine.deleteArtifact
      split
      · exact silent
      · split <;> exact silent
    | _ => exact silent
  | reported outcome =>
    simp only [step]
    split <;> exact silent
  | decided result => exact silent

/-- The job's code has come to its end. -/
def Stage.isOver : Stage → Bool
  | .ended _ | .reported _ | .decided _ => true
  | _ => false

theorem Delivery.isOver_step {d : Delivery} (past : d.stage.isOver = true) (terms : Terms)
    (e : Engine) (letters : DeadLetters) : (d.step terms e letters).1.stage.isOver = true := by
  obtain ⟨record, job, stage⟩ := d
  cases stage with
  | fetched | announced | active => cases past
  | reported outcome =>
    simp only [step]
    split <;> rfl
  | ended | decided => rfl

theorem Delivery.access?_of_isOver {d : Delivery} (past : d.stage.isOver = true) :
    d.access? = none := by
  obtain ⟨record, job, stage⟩ := d
  cases stage with
  | fetched | announced | active => cases past
  | ended | reported | decided => rfl

namespace SharedRun

variable {ι : Type} [DecidableEq ι] (run : SharedRun ι)

/-- The deliveries after the first `n` turns. -/
def hand (run : SharedRun ι) : Nat → ι → Delivery
  | 0 => run.start
  | n + 1 =>
    match run.turns n with
    | .step i => Function.update (run.hand n) i
      ((run.hand n i).step run.terms (run.met n).1 (run.met n).2).1
    | .change _ => run.hand n

/-- What turn `n` makes of the engine it meets. -/
def leaves (n : Nat) : Engine :=
  match run.turns n with
  | .step i => ((run.hand n i).step run.terms (run.met n).1 (run.met n).2).2.1
  | .change c => { (run.met n).1 with store := (run.met n).1.store.change c }

/-- The artifacts that turn `n` meets. -/
def store (n : Nat) : ArtifactStore := (run.met n).1.store

/-- Turn `n` is one of the delivery, and this is the call it makes. -/
structure Makes (i : ι) (n : Nat) (access : Access) : Prop where
  turn : run.turns n = .step i
  access : (run.hand n i).access? = some access

/-- In turn `n` the delivery reads these artifacts. -/
structure Reads (i : ι) (n : Nat) (repository : String) (listed : List Artifact) : Prop where
  makes : run.Makes i n (.list repository)
  answer : (run.store n).list repository = .ok listed

/-- In turn `n` the delivery takes the artifact out of the repository. -/
structure Removes (i : ι) (n : Nat) (repository : String) (a : Artifact) : Prop where
  makes : run.Makes i n (.delete repository a.digest)
  found : (run.store n).lookup? repository a.digest = some a

/-- The store answers, and only the turns change the artifacts. -/
structure OnOneStore : Prop where
  serves : ∀ n, (run.met n).1.storeOutage = []
  sound : (run.store 0).Sound
  kept : ∀ n, run.store (n + 1) = (run.leaves n).store

/-- What turn `n` does to the artifacts. -/
def change? (n : Nat) : Option StoreChange :=
  match run.turns n with
  | .step i => (run.hand n i).access?.bind Access.change?
  | .change c => some c

/-- The delivery has its turn again and again. -/
def Fair (i : ι) : Prop := ∀ n, ∃ m ≥ n, run.turns m = .step i

section Hands

variable {run} {i : ι} {n : Nat}

theorem hand_step (turn : run.turns n = .step i) :
    run.hand (n + 1) i = ((run.hand n i).step run.terms (run.met n).1 (run.met n).2).1 := by
  rw [hand, turn]
  exact Function.update_self ..

theorem hand_other (turn : run.turns n ≠ .step i) : run.hand (n + 1) i = run.hand n i := by
  rw [hand]
  cases other : run.turns n with
  | step j =>
    have differs : i ≠ j := by
      rintro rfl
      exact turn other
    exact Function.update_of_ne differs ..
  | change c => rfl

theorem hand_cases (run : SharedRun ι) (i : ι) (n : Nat) :
    run.turns n = .step i ∧
        run.hand (n + 1) i = ((run.hand n i).step run.terms (run.met n).1 (run.met n).2).1 ∨
      run.turns n ≠ .step i ∧ run.hand (n + 1) i = run.hand n i := by
  by_cases turn : run.turns n = .step i
  · exact .inl ⟨turn, hand_step turn⟩
  · exact .inr ⟨turn, hand_other turn⟩

theorem hand_id (run : SharedRun ι) (i : ι) (n : Nat) :
    (run.hand n i).record.id = (run.start i).record.id := by
  induction n with
  | zero => rfl
  | succ n ih =>
    rcases run.hand_cases i n with ⟨-, next⟩ | ⟨-, next⟩
    · rw [next, Delivery.step_id, ih]
    · rw [next, ih]

/-- One turn makes one call. -/
theorem Makes.same {j : ι} {access other : Access} (makes : run.Makes i n access)
    (also : run.Makes j n other) : i = j ∧ access = other := by
  obtain rfl : i = j := Turn.step.inj (makes.turn.symm.trans also.turn)
  exact ⟨rfl, Option.some.inj (makes.access.symm.trans also.access)⟩

theorem isOver_later (past : (run.hand n i).stage.isOver = true) {m : Nat} (later : n ≤ m) :
    (run.hand m i).stage.isOver = true := by
  induction m, later using Nat.le_induction with
  | base => exact past
  | succ m le ih =>
    rcases run.hand_cases i m with ⟨-, next⟩ | ⟨-, next⟩
    · rw [next]
      exact Delivery.isOver_step ih ..
    · rw [next]
      exact ih

/-- Whoever makes a call is not over yet. -/
theorem Makes.before {m : Nat} {access : Access} (makes : run.Makes i m access)
    (past : (run.hand n i).stage.isOver = true) : m < n := by
  by_contra late
  have none := Delivery.access?_of_isOver (isOver_later past (not_lt.mp late))
  rw [makes.access] at none
  cases none

/-! ## Coming to an end -/

/-- Until its next turn a delivery stays as it is. -/
theorem next_turn (fair : run.Fair i) (n : Nat) :
    ∃ m ≥ n, run.turns m = .step i ∧ run.hand m i = run.hand n i := by
  obtain ⟨last, later, turn⟩ := fair n
  obtain ⟨k, rfl⟩ := Nat.exists_eq_add_of_le later
  induction k generalizing n with
  | zero => exact ⟨n, le_refl n, turn, rfl⟩
  | succ k ih =>
    rcases run.hand_cases i n with ⟨here, -⟩ | ⟨-, same⟩
    · exact ⟨n, le_refl n, here, rfl⟩
    · obtain ⟨m, after, own, kept⟩ := ih (n + 1) (by omega) (by
        rwa [Nat.add_assoc, Nat.add_comm 1])
      exact ⟨m, by omega, own, kept.trans same⟩

/-- A turn of a running delivery is one action of the job's code. -/
theorem hand_acts {log : OpenLog} {rest : Activity} (turn : run.turns n = .step i)
    (active : (run.hand n i).stage = .active log rest) :
    (run.hand (n + 1) i).stage =
      (Delivery.act (run.hand n i).record (run.met n).1 log rest).1 := by
  rw [hand_step turn, Delivery.step, active]

/-- The job's code comes to its end. -/
theorem ends_later {log : OpenLog} {rest : Activity} (fair : run.Fair i)
    (active : (run.hand n i).stage = .active log rest) :
    ∃ m outcome, (run.hand m i).stage = .ended outcome := by
  -- with each turn less is left to do
  induction depth : rest.depth using WellFoundedLT.induction generalizing n log rest with
  | ind d ih =>
    obtain ⟨m, -, turn, same⟩ := next_turn fair n
    have acts := hand_acts turn (same ▸ active)
    rcases Delivery.act_stage (run.hand m i).record (run.met m).1 log rest with
      ⟨outcome, ends⟩ | ⟨later, next, goes, less⟩
    · exact ⟨m + 1, outcome, acts.trans ends⟩
    · exact ih next.depth (depth ▸ less) (acts.trans goes) rfl

end Hands

/-! ## Artifacts from turn to turn -/

/-- Turn `n` puts something under the name, or takes it away. -/
def Touches (n : Nat) (repository digest : String) : Prop :=
  ∃ c, run.change? n = some c ∧ c.key = (repository, digest)

/-- Before turn `n`, turn `k` was the last to touch the name, and made this change. -/
structure Last (k n : Nat) (repository digest : String) (c : StoreChange) : Prop where
  before : k < n
  change : run.change? k = some c
  key : c.key = (repository, digest)
  since : ∀ l, k < l → l < n → ¬run.Touches l repository digest

namespace OnOneStore

variable {run} (one : run.OnOneStore) {j n : Nat} {repository digest : String}

include one

theorem store_succ (n : Nat) :
    run.store (n + 1) = (run.change? n).elim (run.store n) (run.store n).change := by
  rw [one.kept, leaves, change?]
  cases run.turns n with
  | step i => exact Delivery.store_step (one.serves n) ..
  | change c => rfl

theorem sound_at (n : Nat) : (run.store n).Sound := by
  induction n with
  | zero => exact one.sound
  | succ n ih =>
    rw [one.store_succ]
    cases run.change? n with
    | none => exact ih
    | some c => exact ih.change c

theorem known_later {name : String} (known : name ∈ (run.store j).names) (later : j ≤ n) :
    name ∈ (run.store n).names := by
  induction n, later using Nat.le_induction with
  | base => exact known
  | succ n le ih =>
    rw [one.store_succ]
    cases run.change? n with
    | none => exact ih
    | some c => exact (ArtifactStore.mem_names_change c).mpr (.inl ih)

theorem lookup?_touched {c : StoreChange} (change : run.change? n = some c)
    (key : c.key = (repository, digest)) :
    (run.store (n + 1)).lookup? repository digest = c.brings := by
  rw [one.store_succ, change, Option.elim_some, (one.sound_at n).lookup?_change, if_pos key]

theorem lookup?_untouched (untouched : ¬run.Touches n repository digest) :
    (run.store (n + 1)).lookup? repository digest =
      (run.store n).lookup? repository digest := by
  rw [one.store_succ]
  cases change : run.change? n with
  | none => rfl
  | some c =>
    rw [Option.elim_some, (one.sound_at n).lookup?_change, if_neg]
    exact fun key => untouched ⟨c, change, key⟩

/-- What is found under a name is what the last change brought, else what was found before. -/
theorem lookup?_last (later : j ≤ n) (repository digest : String) :
    ((∀ k, j ≤ k → k < n → ¬run.Touches k repository digest) ∧
        (run.store n).lookup? repository digest = (run.store j).lookup? repository digest) ∨
      ∃ k c, j ≤ k ∧ run.Last k n repository digest c ∧
        (run.store n).lookup? repository digest = c.brings := by
  induction n, later using Nat.le_induction with
  | base => exact .inl ⟨fun k after before => absurd before (not_lt.mpr after), rfl⟩
  | succ n le ih =>
    by_cases touches : run.Touches n repository digest
    · obtain ⟨c, change, key⟩ := touches
      have none (l : Nat) (after : n < l) (before : l < n + 1) :
          ¬run.Touches l repository digest := by omega
      exact .inr ⟨n, c, le, ⟨n.lt_succ_self, change, key, none⟩, one.lookup?_touched change key⟩
    · have before (l : Nat) (early : l < n + 1)
          (other : l < n → ¬run.Touches l repository digest) :
          ¬run.Touches l repository digest := by
        rcases Nat.lt_succ_iff_lt_or_eq.mp early with less | rfl
        · exact other less
        · exact touches
      rw [one.lookup?_untouched touches]
      rcases ih with ⟨none, same⟩ | ⟨k, c, after, last, brought⟩
      · exact .inl ⟨fun k after early => before k early (none k after), same⟩
      · exact .inr ⟨k, c, after, ⟨last.before.trans n.lt_succ_self, last.change, last.key,
          fun l after early => before l early (last.since l after)⟩, brought⟩

end OnOneStore

/-! ## Runs without others -/

/-- Nobody else changes the artifacts. -/
def OnlySteps : Prop := ∀ n, ∃ i, run.turns n = .step i

section OnlySteps

variable {run} {i : ι} {j n : Nat} {repository digest : String} {a : Artifact}

theorem OnlySteps.makes_of_change (only : run.OnlySteps) {c : StoreChange}
    (change : run.change? n = some c) :
    ∃ i, run.Makes i n (.delete c.key.1 c.key.2) ∧ c = .delete c.key.1 c.key.2 := by
  obtain ⟨i, turn⟩ := only n
  rw [change?, turn] at change
  obtain ⟨access, makes, changes⟩ := Option.bind_eq_some_iff.mp change
  cases access with
  | list repository => cases changes
  | delete repository digest =>
    obtain rfl := Option.some.inj changes
    exact ⟨i, ⟨turn, makes⟩, rfl⟩

/-- What is found was there before. -/
theorem OnlySteps.found_before (only : run.OnlySteps) (one : run.OnOneStore)
    (found : (run.store (n + 1)).lookup? repository digest = some a) :
    (run.store n).lookup? repository digest = some a := by
  by_cases touches : run.Touches n repository digest
  · obtain ⟨c, change, key⟩ := touches
    obtain ⟨-, -, delete⟩ := only.makes_of_change change
    rw [one.lookup?_touched change key, delete] at found
    cases found
  · rwa [one.lookup?_untouched touches] at found

theorem OnlySteps.found_earlier (only : run.OnlySteps) (one : run.OnOneStore) (later : j ≤ n)
    (found : (run.store n).lookup? repository digest = some a) :
    (run.store j).lookup? repository digest = some a := by
  induction n, later using Nat.le_induction with
  | base => exact found
  | succ n le ih => exact ih (only.found_before one found)

/-- What is no longer found was removed by one of the deliveries. -/
theorem OnlySteps.removed_between (only : run.OnlySteps) (one : run.OnOneStore) (later : j ≤ n)
    (found : (run.store j).lookup? repository digest = some a)
    (gone : (run.store n).lookup? repository digest = none) :
    ∃ i k, j ≤ k ∧ k < n ∧ run.Removes i k repository a := by
  induction n, later using Nat.le_induction with
  | base =>
    rw [found] at gone
    cases gone
  | succ n le ih =>
    by_cases early : (run.store n).lookup? repository digest = none
    · obtain ⟨i, k, after, before, removes⟩ := ih early
      exact ⟨i, k, after, by omega, removes⟩
    · obtain ⟨b, there⟩ := Option.ne_none_iff_exists'.mp early
      have same := only.found_earlier one le there
      obtain rfl : a = b := Option.some.inj (found.symm.trans same)
      obtain rfl := ArtifactStore.digest_of_lookup? there
      have touches : run.Touches n repository a.digest := by
        by_contra untouched
        rw [one.lookup?_untouched untouched, there] at gone
        cases gone
      obtain ⟨c, change, key⟩ := touches
      obtain ⟨i, makes, -⟩ := only.makes_of_change change
      rw [key] at makes
      exact ⟨i, n, le, n.lt_succ_self, makes, there⟩

end OnlySteps

section Calls

variable {run} {i : ι} {n : Nat} {repository : String} {a : Artifact}

theorem makes_active {log : OpenLog} {rest : Activity} {access : Access}
    (turn : run.turns n = .step i) (active : (run.hand n i).stage = .active log rest)
    (calls : rest.access? = some access) : run.Makes i n access :=
  ⟨turn, (Delivery.access?_active active).trans calls⟩

theorem not_makes_active {log : OpenLog} {rest : Activity}
    (active : (run.hand n i).stage = .active log rest) (calls : rest.access? = none)
    (access : Access) : ¬run.Makes i n access := fun makes => by
  have made := makes.access
  rw [Delivery.access?_active active, calls] at made
  cases made

theorem Makes.change? {access : Access} (makes : run.Makes i n access) :
    run.change? n = access.change? := by
  rw [SharedRun.change?, makes.turn]
  exact congrArg (Option.bind · Access.change?) makes.access

/-- After a removal nothing is found. -/
theorem Makes.gone {digest : String} (makes : run.Makes i n (.delete repository digest))
    (one : run.OnOneStore) : (run.store (n + 1)).lookup? repository digest = none :=
  one.lookup?_touched makes.change? rfl

/-- Only the first removal finds the artifact. -/
theorem OnlySteps.found_once (only : run.OnlySteps) (one : run.OnOneStore) {j : ι} {m : Nat}
    {digest : String} {b : Artifact} (early : run.Makes i n (.delete repository digest))
    (found : (run.store n).lookup? repository digest = some a)
    (late : run.Makes j m (.delete repository digest))
    (also : (run.store m).lookup? repository digest = some b) : m = n := by
  rcases lt_trichotomy m n with before | same | after
  · have there := only.found_earlier one before found
    rw [late.gone one] at there
    cases there
  · exact same
  · have there := only.found_earlier one after also
    rw [early.gone one] at there
    cases there

end Calls

/-! ## Undisturbed runs -/

/-- What a turn makes of the deliveries and of what is around them. -/
def taken (terms : Terms) (hand : ι → Delivery) (e : Engine) (letters : DeadLetters) :
    Turn ι → (ι → Delivery) × Engine × DeadLetters
  | .step i =>
    let (d, e, letters) := (hand i).step terms e letters
    (Function.update hand i d, e, letters)
  | .change c => (hand, { e with store := e.store.change c }, letters)

/-- What is there after `n` turns, if nobody else does anything. -/
def together (terms : Terms) (start : ι → Delivery) (turns : Nat → Turn ι) (e : Engine)
    (letters : DeadLetters) : Nat → (ι → Delivery) × Engine × DeadLetters
  | 0 => (start, e, letters)
  | n + 1 =>
    let (hand, e, letters) := together terms start turns e letters n
    taken terms hand e letters (turns n)

def quiet (terms : Terms) (start : ι → Delivery) (turns : Nat → Turn ι) (e : Engine)
    (letters : DeadLetters) : SharedRun ι :=
  { terms, start, turns, met := fun n => (together terms start turns e letters n).2 }

section Quiet

variable (terms : Terms) (start : ι → Delivery) (turns : Nat → Turn ι) (e : Engine)
  (letters : DeadLetters)

theorem hand_quiet (n : Nat) :
    (quiet terms start turns e letters).hand n = (together terms start turns e letters n).1 := by
  induction n with
  | zero => rfl
  | succ n ih =>
    simp only [hand, ih, together]
    cases turn : turns n <;> simp only [quiet, turn, taken]

theorem leaves_quiet (n : Nat) :
    (quiet terms start turns e letters).leaves n =
      (together terms start turns e letters (n + 1)).2.1 := by
  simp only [leaves, hand_quiet, together]
  cases turn : turns n <;> simp only [quiet, turn, taken]

/-- Where no job orders a command for itself none is met, if there was none at first. -/
theorem heard_quiet {e : Engine} (silent : e.tracker.Silent)
    (obeys : ∀ n i log command next,
      ((quiet terms start turns e letters).hand n i).stage ≠ .active log (.order command next))
    (n : Nat) (id : JobId) : ((quiet terms start turns e letters).met n).1.heard id = none := by
  have still : ((quiet terms start turns e letters).met n).1.tracker.Silent := by
    induction n with
    | zero => exact silent
    | succ n ih =>
      have here := obeys n
      rw [hand_quiet] at here
      simp only [quiet, together] at ih ⊢
      cases turns n with
      | step i =>
        simp only [taken]
        exact Delivery.silent_step ih (here i) _ _
      | change c => exact ih
  exact still.heard id

theorem onOneStore_quiet {e : Engine} (serves : e.storeOutage = []) (sound : e.store.Sound) :
    (quiet terms start turns e letters).OnOneStore where
  serves n := by
    induction n with
    | zero => exact serves
    | succ n ih =>
      simp only [quiet, together] at ih ⊢
      cases turns n with
      | step i => exact (Delivery.step_beyond _ _ _ _).storeOutage.trans ih
      | change c => exact ih
  sound := sound
  kept n := by
    rw [leaves_quiet]
    rfl

end Quiet

end SharedRun

end JobEngine
