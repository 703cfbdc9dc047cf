import JobEngine.Proofs.Interleaving
import JobEngine.Proofs.TrackerEntries

/-!
# The life of one job

Seen from one job the world is small: where its record is, its entry in the
tracker, the confirmation that waits, and the story of what has happened to
it. The steps of such a life are listed here one by one. Everything about the
entry can be read off the story, except whether it was evicted, and where the
record is limits what the story can be.
-/
namespace JobEngine

/-- Where a record is, and in whose hands. -/
inductive Station
  /-- Announced by its submitter, and about to be appended. -/
  | appending
  | queued
  | fetched (job : Job)
  | running (job : Job)
  | reported (job : Job) (outcome : Outcome)
  | decided (job : Job) (result : Except JobError Unit)
  | stray
  | strayMarked
  | completed
  | buried

structure Life where
  record : Record
  station : Station
  entry : Option Stats
  /-- The confirmations that wait. -/
  waiting : List Confirmation
  story : List Event
  clock : Nat

namespace Life

def now (l : Life) : Time.Timestamp := .ofMillis l.clock

/-- The entry after a status; it is created if it is not there. -/
def marked (l : Life) (status : Status) : Option Stats :=
  some ((l.entry.getD (.first l.record.id l.now)).mark status l.now)

/-- The confirmation that would be scheduled now. -/
def confirmation (l : Life) (grace : Nat) : Confirmation := ⟨l.record.id, l.now, l.clock + grace⟩

def counted (l : Life) : Record := { l.record with fails := countFailure l.record.fails }

end Life

/-- The lives of jobs under the registry, the policy, the thresholds and the grace of a world. -/
inductive Lived (origin : World) : Life → Prop
  | submitted {request : Request} {id : JobId} {clock : Nat} {job : Job}
      (known : origin.engine.registry.find? request.jobType = some job)
      (valid : job.validate request.parameters = .ok ()) :
      Lived origin ⟨.ofRequest request id (.ofMillis clock), .appending,
        some ((Stats.first id (.ofMillis clock)).mark .pending (.ofMillis clock)), [],
        [.created (.ofRequest request id (.ofMillis clock)), .announced id], clock⟩
  | offered (record : Record) (clock : Nat) :
      Lived origin ⟨record, .queued, none, [], [.created record, .handed record], clock⟩
  | handed {l : Life} (lived : Lived origin l) (here : l.station = .appending) :
      Lived origin { l with station := .queued, story := l.story ++ [.handed l.record] }
  | taken {l : Life} {job : Job} (lived : Lived origin l) (here : l.station = .queued)
      (known : origin.engine.registry.find? l.record.jobType = some job) :
      Lived origin { l with station := .fetched job, story := l.story ++ [.taken l.record] }
  | strayed {l : Life} (lived : Lived origin l) (here : l.station = .queued)
      (unknown : origin.engine.registry.find? l.record.jobType = none) :
      Lived origin { l with station := .stray, story := l.story ++ [.taken l.record] }
  | marked {l : Life} (lived : Lived origin l) (here : l.station = .stray) :
      Lived origin { l with
        station := .strayMarked
        entry := l.marked .error
        story := l.story ++ [.strayed l.record.id] }
  | cast {l : Life} (lived : Lived origin l) (here : l.station = .strayMarked) :
      Lived origin { l with station := .buried, story := l.story ++ [.buried l.record] }
  | began {l : Life} {job : Job} (lived : Lived origin l) (here : l.station = .fetched job) :
      Lived origin { l with
        station := .running job
        entry := l.marked .running
        story := l.story ++ [.began l.record.id] }
  | checkedIn {l : Life} {job : Job} (message : String) (lived : Lived origin l)
      (here : l.station = .running job) :
      Lived origin { l with
        entry := l.entry.map fun s =>
          { s with checkIn := some message, checkInAt := some l.now, updatedAt := l.now } }
  | ended {l : Life} {job : Job} (outcome : Outcome) (lived : Lived origin l)
      (here : l.station = .running job) :
      Lived origin { l with
        station := .reported job outcome
        entry := l.marked outcome.status
        story := l.story ++ [.ended l.record.id outcome] }
  | doomed {l : Life} {job : Job} {outcome : Outcome} (lived : Lived origin l)
      (here : l.station = .reported job outcome)
      (hopeless : outcome.deadLetters origin.pool.terms.policy job l.record = true) :
      Lived origin { l with
        record := { l.record with fails := deadLetterFails }
        station := .decided job outcome.result
        waiting := l.waiting ++ [l.confirmation origin.pool.letters.grace]
        story := l.story ++ [.doomed (l.confirmation origin.pool.letters.grace)] }
  | spared {l : Life} {job : Job} {outcome : Outcome} (lived : Lived origin l)
      (here : l.station = .reported job outcome)
      (hopeful : outcome.deadLetters origin.pool.terms.policy job l.record = false) :
      Lived origin { l with station := .decided job outcome.result }
  | completed {l : Life} {job : Job} (lived : Lived origin l)
      (here : l.station = .decided job (.ok ())) :
      Lived origin { l with station := .completed, story := l.story ++ [.completed l.record] }
  | requeued {l : Life} {job : Job} {err : JobError} (lived : Lived origin l)
      (here : l.station = .decided job (.error err))
      (under : l.counted.fails.toNat < (origin.engine.queue.threshold l.record).toNat) :
      Lived origin { l with
        record := l.counted
        station := .queued
        story := l.story ++ [.requeued l.counted] }
  | buried {l : Life} {job : Job} {err : JobError} (lived : Lived origin l)
      (here : l.station = .decided job (.error err))
      (spent : (origin.engine.queue.threshold l.record).toNat ≤ l.counted.fails.toNat) :
      Lived origin { l with
        record := l.counted
        station := .buried
        story := l.story ++ [.buried l.counted] }
  | commanded {l : Life} {s : Stats} (command : Command) (lived : Lived origin l)
      (tracked : l.entry = some s) :
      Lived origin { l with
        entry := some { s with command := some command, updatedAt := l.now }
        story := l.story ++ [.commanded l.record.id command] }
  | confirmed {l : Life} {c : Confirmation} (lived : Lived origin l) (waits : c ∈ l.waiting)
      (due : c.due ≤ l.clock) :
      Lived origin { l with
        entry := l.entry.map fun s => { s with dieAt := some c.diedAt, updatedAt := l.now }
        waiting := l.waiting.erase c
        story := l.story ++ [.confirmed c] }
  | dropped {l : Life} (lived : Lived origin l) :
      Lived origin { l with waiting := [], story := l.story ++ l.waiting.map .dropped }
  | evicted {l : Life} {s : Stats} (lived : Lived origin l) (tracked : l.entry = some s)
      (settled : s.isSettled = true) : Lived origin { l with entry := none }
  | passed {l : Life} (ms : Nat) (lived : Lived origin l) :
      Lived origin { l with clock := l.clock + ms }

/-! ## What a story tells -/

/-- What has become of the retries of a job. -/
inductive Fate
  | open
  | doomed (c : Confirmation)
  | confirmed (c : Confirmation)
  | dropped (c : Confirmation)
deriving DecidableEq

namespace Fate

def waiting : Fate → List Confirmation
  | .doomed c => [c]
  | _ => []

def diedAt? : Fate → Option Time.Timestamp
  | .confirmed c => some c.diedAt
  | _ => none

end Fate

/-- What a story comes to. -/
structure Account where
  status : Option Status := none
  command : Option Command := none
  fate : Fate := .open
deriving DecidableEq

namespace Account

/-- A final status takes the command away, whatever follows it. -/
def after (a : Account) (event : Event) : Account :=
  match event with
  | .announced _ => { a with status := some .pending }
  | .began _ => { a with status := some .running }
  | .ended _ outcome => { a with status := some outcome.status, command := none }
  | .strayed _ => { a with status := some .error, command := none }
  | .commanded _ command => { a with command := some command }
  | .doomed c => { a with fate := .doomed c }
  | .confirmed c => { a with fate := .confirmed c }
  | .dropped c => { a with fate := .dropped c }
  | .created _ | .handed _ | .taken _ | .completed _ | .requeued _ | .buried _ => a

def of (story : List Event) : Account := story.foldl after {}

@[simp] theorem of_append (story : List Event) (event : Event) :
    of (story ++ [event]) = (of story).after event := by
  simp [of]

/-- Nothing will be written to the entry any more but by an operator. -/
def settled (a : Account) : Bool :=
  match a.status with
  | some .success | some .stopped => true
  | some .error | some .cancelled => a.fate.diedAt?.isSome
  | _ => false

/-- The entry that belongs to it, unless that one was evicted. -/
def Matches (a : Account) (id : JobId) : Option Stats → Prop
  | some s => s.jobId = id ∧ some s.status = a.status ∧ s.command = a.command ∧
      s.dieAt = a.fate.diedAt?
  | none => a = {} ∨ a.settled = true

/-- What it can be while the record is where it is. -/
def Fits (a : Account) (record : Record) : Station → Prop
  | .appending | .queued | .fetched _ | .stray =>
    a.fate = .open ∧ a.status ≠ some .success ∧ a.status ≠ some .stopped
  | .running _ => a.fate = .open ∧ a.status = some .running
  | .reported _ outcome => a.fate = .open ∧ a.status = some outcome.status
  | .decided _ (.ok ()) | .completed =>
    a.fate = .open ∧ (a.status = some .success ∨ a.status = some .stopped)
  | .decided _ (.error _) =>
    (a.status = some .error ∨ a.status = some .cancelled) ∧
      (a.fate = .open ∨ record.fails = deadLetterFails)
  | .strayMarked => a.fate = .open ∧ a.status = some .error
  | .buried => a.status = some .error ∨ a.status = some .cancelled

namespace Matches

variable {a : Account} {id : JobId} {entry : Option Stats}

theorem isSettled {s : Stats} (matched : a.Matches id (some s)) : s.isSettled = a.settled := by
  obtain ⟨-, status, -, died⟩ := matched
  simp only [Stats.isSettled, settled, ← status, died]
  cases s.status <;> rfl

/-- A status meets an entry that is there, or the job was never heard of. -/
theorem mark (matched : a.Matches id entry) (unsettled : a.settled = false) (status : Status)
    (now : Time.Timestamp) :
    Matches { a with
        status := some status
        command := if status.isOpen then a.command else none }
      id (some ((entry.getD (.first id now)).mark status now)) := by
  cases entry with
  | some s =>
    obtain ⟨job, -, command, died⟩ := matched
    exact ⟨job, rfl, by simp only [Option.getD_some, Stats.mark, command], died⟩
  | none =>
    obtain rfl : a = {} := matched.resolve_right (by simp [unsettled])
    exact ⟨rfl, rfl, by simp [Stats.first, Stats.mark], rfl⟩

theorem ended (matched : a.Matches id entry) (unsettled : a.settled = false) (outcome : Outcome)
    (now : Time.Timestamp) :
    Matches { a with status := some outcome.status, command := none }
      id (some ((entry.getD (.first id now)).mark outcome.status now)) := by
  have closed : outcome.status.isOpen = false := by cases outcome <;> rfl
  have marked := matched.mark unsettled outcome.status now
  simpa only [closed, Bool.false_eq_true, if_false] using marked

end Matches

/-- A job that was heard of and is not settled has its entry. -/
theorem Matches.tracked {a : Account} {id : JobId} {entry : Option Stats}
    (matched : a.Matches id entry) (unsettled : a.settled = false) {status : Status}
    (heard : a.status = some status) : ∃ s, entry = some s := by
  cases entry with
  | some s => exact ⟨s, rfl⟩
  | none =>
    rcases matched with rfl | settled
    · cases heard
    · rw [unsettled] at settled
      cases settled

theorem settled_of_failed {a : Account} (died : a.fate.diedAt? = none)
    (failed : a.status = some .error ∨ a.status = some .cancelled) : a.settled = false := by
  rcases failed with status | status <;> simp [settled, status, died]

theorem settled_of_open {a : Account} (fate : a.fate = .open) (success : a.status ≠ some .success)
    (stopped : a.status ≠ some .stopped) : a.settled = false := by
  simp only [settled]
  rw [fate]
  split <;> simp_all [Fate.diedAt?]

end Account

/-- Entry, waiting confirmation and place agree with the story. -/
structure Life.Accords (l : Life) : Prop where
  entry : (Account.of l.story).Matches l.record.id l.entry
  waiting : l.waiting = (Account.of l.story).fate.waiting
  station : (Account.of l.story).Fits l.record l.station

/-- One more event is told of the job. -/
theorem Life.Accords.told {story : List Event} {event : Event} {record : Record}
    {station : Station} {entry : Option Stats} {waiting : List Confirmation} {clock : Nat}
    (matched : ((Account.of story).after event).Matches record.id entry)
    (waits : waiting = ((Account.of story).after event).fate.waiting)
    (fits : ((Account.of story).after event).Fits record station) :
    Life.Accords ⟨record, station, entry, waiting, story ++ [event], clock⟩ := by
  rw [← Account.of_append] at matched waits fits
  exact ⟨matched, waits, fits⟩

theorem Outcome.failed_of_deadLetters {policy : RetryPolicy} {job : Job} {record : Record}
    {outcome : Outcome} (hopeless : outcome.deadLetters policy job record = true) :
    (outcome.status = .error ∨ outcome.status = .cancelled) ∧
      ∃ err, outcome.result = .error err := by
  cases outcome with
  | succeeded | stopped => cases hopeless
  | cancelled e => exact ⟨Or.inr rfl, e, rfl⟩
  | failed e | buildFailed e => exact ⟨Or.inl rfl, e, rfl⟩

/-- A confirmation that waits is the only one. -/
theorem Life.Accords.of_waiting {l : Life} (accords : l.Accords) {c : Confirmation}
    (waits : c ∈ l.waiting) :
    (Account.of l.story).fate = .doomed c ∧ l.waiting = [c] ∧ (∃ s, l.entry = some s) ∧
      ∀ fate, Account.Fits { Account.of l.story with fate } l.record l.station := by
  obtain ⟨entry, waiting, fits⟩ := accords
  have fate : (Account.of l.story).fate = .doomed c := by
    rw [waiting] at waits
    cases fate : (Account.of l.story).fate with
    | doomed other =>
      rw [fate] at waits
      rw [List.mem_singleton.mp waits]
    | «open» | confirmed | dropped =>
      rw [fate] at waits
      cases waits
  have failed : ((Account.of l.story).status = some .error ∨
      (Account.of l.story).status = some .cancelled) ∧
      ∀ fate, Account.Fits { Account.of l.story with fate } l.record l.station := by
    cases station : l.station with
    | decided job result =>
      cases result with
      | ok => simp [station, Account.Fits, fate] at fits
      | error err =>
        rw [station] at fits
        exact ⟨fits.1, fun _ => ⟨fits.1, Or.inr (fits.2.resolve_left (by simp [fate]))⟩⟩
    | buried =>
      rw [station] at fits
      exact ⟨fits, fun _ => fits⟩
    | _ => simp [station, Account.Fits, fate] at fits
  refine ⟨fate, by rw [waiting, fate]; rfl, ?_, failed.2⟩
  have unsettled := Account.settled_of_failed (by rw [fate]; rfl) failed.1
  rcases failed.1 with status | status
  · exact entry.tracked unsettled status
  · exact entry.tracked unsettled status

namespace Lived

variable {origin : World}

/-- The budget of no record reaches the count that disables retries. -/
theorem spent_of_doomed {l : Life} (doomed : l.record.fails = deadLetterFails) :
    ¬ l.counted.fails.toNat < (origin.engine.queue.threshold l.record).toNat := by
  have counted : l.counted.fails.toNat = 10000000001 := by
    simp only [Life.counted, doomed]
    decide
  have bound := (origin.engine.queue.threshold l.record).toNat_lt_size
  have small : UInt32.size < 10000000001 := by decide
  omega

/-- The induction is on the steps of the life. -/
theorem accords {l : Life} (lived : Lived origin l) : l.Accords := by
  induction lived with
  | submitted => exact ⟨⟨rfl, rfl, rfl, rfl⟩, rfl, rfl, by simp [Account.of, Account.after]⟩
  | offered => exact ⟨Or.inl rfl, rfl, rfl, by simp [Account.of, Account.after]⟩
  | handed lived here ih | taken lived here known ih | strayed lived here unknown ih
  | completed lived here ih =>
    obtain ⟨entry, waiting, fits⟩ := ih
    rw [here] at fits
    exact .told entry waiting fits
  | marked lived here ih =>
    obtain ⟨entry, waiting, fits⟩ := ih
    rw [here] at fits
    obtain ⟨fate, success, stopped⟩ := fits
    have unsettled := Account.settled_of_open fate success stopped
    exact .told (entry.mark unsettled .error _) waiting ⟨fate, rfl⟩
  | cast lived here ih =>
    obtain ⟨entry, waiting, fits⟩ := ih
    rw [here] at fits
    exact .told entry waiting (Or.inl fits.2)
  | began lived here ih =>
    obtain ⟨entry, waiting, fits⟩ := ih
    rw [here] at fits
    obtain ⟨fate, success, stopped⟩ := fits
    have unsettled := Account.settled_of_open fate success stopped
    exact .told (entry.mark unsettled .running _) waiting ⟨fate, rfl⟩
  | @checkedIn l job message lived here ih =>
    obtain ⟨entry, waiting, fits⟩ := ih
    refine ⟨?_, waiting, fits⟩
    cases known : l.entry with
    | none => rwa [known] at entry
    | some s => rwa [known] at entry
  | ended outcome lived here ih =>
    obtain ⟨entry, waiting, fits⟩ := ih
    rw [here] at fits
    obtain ⟨fate, running⟩ := fits
    have unsettled : (Account.of _).settled = false :=
      Account.settled_of_open fate (by simp [running]) (by simp [running])
    exact .told (entry.ended unsettled outcome _) waiting ⟨fate, rfl⟩
  | @doomed l job outcome lived here hopeless ih =>
    obtain ⟨entry, waiting, fits⟩ := ih
    rw [here] at fits
    obtain ⟨fate, status⟩ := fits
    obtain ⟨failed, err, result⟩ := Outcome.failed_of_deadLetters hopeless
    have failed : (Account.of l.story).status = some .error ∨
        (Account.of l.story).status = some .cancelled := by
      simpa only [status, Option.some.injEq] using failed
    have unsettled := Account.settled_of_failed (by rw [fate]; rfl) failed
    obtain ⟨s, tracked⟩ := entry.tracked unsettled status
    rw [tracked] at entry
    obtain ⟨id, same, command, died⟩ := entry
    apply Life.Accords.told
    · rw [tracked]
      exact ⟨id, same, command, by rw [died, fate]; rfl⟩
    · simp only [waiting, fate, Fate.waiting, Account.after, List.nil_append]
    · rw [result]
      exact ⟨failed, Or.inr rfl⟩
  | @spared l job outcome lived here hopeful ih =>
    obtain ⟨entry, waiting, fits⟩ := ih
    rw [here] at fits
    obtain ⟨fate, status⟩ := fits
    refine ⟨entry, waiting, ?_⟩
    cases outcome with
    | succeeded => exact ⟨fate, Or.inl status⟩
    | stopped => exact ⟨fate, Or.inr status⟩
    | cancelled e => exact ⟨Or.inr status, Or.inl fate⟩
    | failed e | buildFailed e => exact ⟨Or.inl status, Or.inl fate⟩
  | requeued lived here under ih =>
    obtain ⟨entry, waiting, fits⟩ := ih
    rw [here] at fits
    obtain ⟨status, fate | doomed⟩ := fits
    · refine .told entry waiting ?_
      rcases status with status | status
      · exact ⟨fate, by simp [Account.after, status], by simp [Account.after, status]⟩
      · exact ⟨fate, by simp [Account.after, status], by simp [Account.after, status]⟩
    · exact absurd under (spent_of_doomed doomed)
  | buried lived here spent ih =>
    obtain ⟨entry, waiting, fits⟩ := ih
    rw [here] at fits
    exact .told entry waiting fits.1
  | commanded command lived tracked ih =>
    obtain ⟨entry, waiting, fits⟩ := ih
    rw [tracked] at entry
    obtain ⟨job, status, -, died⟩ := entry
    exact .told ⟨job, status, rfl, died⟩ waiting fits
  | @confirmed l c lived waits due ih =>
    obtain ⟨fate, single, ⟨s, tracked⟩, fits⟩ := ih.of_waiting waits
    obtain ⟨entry, -, -⟩ := ih
    rw [tracked] at entry
    obtain ⟨job, status, command, -⟩ := entry
    apply Life.Accords.told
    · rw [tracked]
      exact ⟨job, status, command, rfl⟩
    · simp only [single, List.erase_cons_head, Account.after, Fate.waiting]
    · exact fits (.confirmed c)
  | @dropped l lived ih =>
    cases waiting : l.waiting with
    | nil =>
      simp only [List.map_nil, List.append_nil]
      exact ⟨ih.entry, waiting ▸ ih.waiting, ih.station⟩
    | cons c rest =>
      obtain ⟨fate, single, ⟨s, tracked⟩, fits⟩ := ih.of_waiting (waiting ▸ List.mem_cons_self)
      obtain rfl : rest = [] := (List.cons.inj (waiting.symm.trans single)).2
      obtain ⟨entry, -, -⟩ := ih
      rw [tracked] at entry
      obtain ⟨job, status, command, died⟩ := entry
      rw [List.map_singleton]
      apply Life.Accords.told
      · rw [tracked]
        exact ⟨job, status, command, by rw [died, fate]; rfl⟩
      · rfl
      · exact fits (.dropped c)
  | evicted lived tracked settled ih =>
    obtain ⟨entry, waiting, fits⟩ := ih
    rw [tracked] at entry
    exact ⟨Or.inr (entry.isSettled ▸ settled), waiting, fits⟩
  | passed ms lived ih => exact ⟨ih.entry, ih.waiting, ih.station⟩

end Lived

end JobEngine
