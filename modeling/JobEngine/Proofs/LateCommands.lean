import JobEngine.Proofs.Acceptance

/-!
# Commands that come too late

A client looks at the job and sends its command in two steps. A status that
ends a run takes the command away that was there, but the job may come to its
end between the look and the command, and what is written after the last
status stays. So a job that is through shows a command exactly if a client had
found it open and sent its command when it was through.
-/
namespace JobEngine

/-- Something is written to the status or the command of the job. -/
def Event.writes : Event → Bool
  | .announced _ | .began _ | .ended _ _ | .strayed _ | .commanded _ _ => true
  | _ => false

namespace Account

theorem after_quiet (a : Account) {event : Event} (quiet : event.writes = false) :
    (a.after event).status = a.status ∧ (a.after event).command = a.command := by
  cases event with
  | announced | began | ended | strayed | commanded => cases quiet
  | _ => exact ⟨rfl, rfl⟩

theorem of_quiet (story : List Event) {events : List Event}
    (quiet : ∀ event ∈ events, event.writes = false) :
    (of (story ++ events)).status = (of story).status ∧
      (of (story ++ events)).command = (of story).command := by
  induction events using List.reverseRecOn with
  | nil => simp
  | append_singleton events event ih =>
    obtain ⟨status, command⟩ := ih fun other mem => quiet other (List.mem_append_left _ mem)
    have last := after_quiet (of (story ++ events)) (quiet event (by simp))
    rw [← List.append_assoc, of_append]
    exact ⟨last.1.trans status, last.2.trans command⟩

/-- Who becomes through loses the command. -/
theorem after_through (a : Account) {event : Event} {last : Status}
    (before : a.status ≠ some last) (after : (a.after event).status = some last)
    (terminal : last.isTerminal = true) : (a.after event).command = none := by
  cases event with
  | announced | began =>
    cases after
    cases terminal
  | ended | strayed => rfl
  | _ => exact absurd after before

end Account

theorem Engine.commandEvents_cases (e : Engine) (id : JobId) (command : Command) :
    e.commandEvents id command = [] ∨
      e.commandEvents id command = [.commanded id command] ∧
        (e.tracker.find? id).isSome := by
  simp only [commandEvents, sendCommand, write, Tracker.sendCommand, Tracker.update]
  by_cases outage : TrackerCall.sendCommand ∈ e.trackerOutage
  · simp [outage]
  · cases known : e.tracker.find? id <;> simp [outage]

namespace World

/-- What the story of the job comes to. -/
def account (s : World) (id : JobId) : Account := .of (s.history.filter (·.job = id))

/-- What a move tells, and who writes: a submitter to a new job, a worker to the job whose attempt
it has in hand, or a client that sends the command it means to send. -/
inductive Tells (s : World) (move : Move) : List Event → Prop
  | quiet {events : List Event} (silent : ∀ event ∈ events, event.writes = false) :
      Tells s move events
  | submitted {record : Record} (new : record.id ∉ s.issued) :
      Tells s move [.created record, .announced record.id]
  | worked {token : Token} {event : Event} (there : token ∈ s.tokens)
      (unwritten : token.2.isOpen = true) (own : event.job = token.1.id) : Tells s move [event]
  | sent {index : Nat} {id : JobId} {command : Command} (made : move = .proceed index)
      (ordering : s.callers[index]? = some (.ordering id command))
      (known : (s.engine.tracker.find? id).isSome) : Tells s move [.commanded id command]

variable {origin s : World} {id : JobId} {move : Move}

theorem settleEvents_quiet (record : Record) (result : Except JobError Unit) (q : Queue) :
    ∀ event ∈ Worker.settleEvents record result q, event.writes = false := by
  cases result with
  | ok => simp [Worker.settleEvents, Event.writes]
  | error err =>
    simp only [Worker.settleEvents]
    split <;> simp [Event.writes]

theorem tells_work {index : Nat} {w : Worker} (here : s.pool.workers[index]? = some w) :
    s.Tells (.work index) (w.events s.pool.terms s.engine s.pool.letters) := by
  have held := List.mem_of_getElem? here
  cases w with
  | carrying d =>
    obtain ⟨record, job, stage⟩ := d
    cases stage with
    | fetched => exact .worked (token_of_worker held rfl) rfl rfl
    | announced => exact .quiet (by simp [Worker.events, Delivery.result?, Delivery.events])
    | active log rest =>
      rw [Worker.events_carrying rfl]
      cases rest with
      | order command next =>
        simp only [Delivery.events]
        rcases s.engine.commandEvents_cases record.id command with silent | ⟨written, -⟩
        · rw [silent]
          exact .quiet (by simp)
        · rw [written]
          exact .worked (token_of_worker held rfl) rfl rfl
      | _ => exact .quiet (by simp [Delivery.events])
    | ended outcome => exact .worked (token_of_worker held rfl) rfl rfl
    | reported outcome =>
      refine .quiet ?_
      rw [Worker.events_carrying rfl]
      simp only [Delivery.events]
      split <;> simp [Event.writes]
    | decided result => exact .quiet fun event => settleEvents_quiet record result _ event
  | stray record => exact .worked (token_of_worker held rfl) rfl rfl
  | asking =>
    refine .quiet ?_
    simp only [Worker.events]
    split <;> simp [Event.writes]
  | _ => exact .quiet (by simp [Worker.events, Event.writes])

theorem tells_proceed {index : Nat} {c : Caller} (here : s.callers[index]? = some c) :
    s.Tells (.proceed index) (c.events s.engine) := by
  cases c with
  | ordering id command =>
    have told := s.engine.commandEvents_cases id command
    simp only [Caller.events]
    rcases told with silent | ⟨written, known⟩
    · rw [silent]
      exact .quiet (by simp)
    · rw [written]
      exact .sent rfl here known
  | _ => exact .quiet (by simp [Caller.events, Event.writes])

theorem tells_apply (s : World) (move : Move) :
    ∃ events, (s.apply move).history = s.history ++ events ∧ s.Tells move events := by
  have nothing : ∃ events, s.history = s.history ++ events ∧ s.Tells move events :=
    ⟨[], by simp, .quiet (by simp)⟩
  cases move with
  | work index =>
    simp only [apply]
    cases here : s.pool.workers[index]? with
    | none => simpa only [work, here] using nothing
    | some w =>
      rw [work_eq here]
      exact ⟨_, rfl, tells_work here⟩
  | proceed index =>
    simp only [apply]
    cases here : s.callers[index]? with
    | none => simpa only [proceed, here] using nothing
    | some c =>
      rw [proceed_eq here]
      exact ⟨_, rfl, tells_proceed here⟩
  | submit request id =>
    simp only [apply, submit]
    split
    · exact nothing
    · rename_i new
      split
      · exact ⟨_, rfl, @Tells.submitted s _ (.ofRequest request id s.engine.now) new⟩
      · exact nothing
  | hand record =>
    simp only [apply, hand]
    split
    · exact nothing
    · exact ⟨_, rfl, .quiet (by simp [Event.writes])⟩
  | confirm c =>
    simp only [apply, confirm]
    split
    · exact ⟨_, rfl, .quiet (by simp [Event.writes])⟩
    · exact nothing
  | drop =>
    refine ⟨_, rfl, .quiet ?_⟩
    split <;> simp [Event.writes]
  | order id command =>
    simp only [apply, order]
    split
    · exact ⟨[], rfl, .quiet (by simp)⟩
    · exact nothing
  | wake index =>
    simp only [apply, wake]
    split
    · split <;> exact nothing
    · exact nothing
  | retire index =>
    simp only [apply, retire]
    split
    · split <;> exact nothing
    · exact nothing
  | pass ms | close | abandon | stock store => exact nothing

/-! ## The account of a job that is through -/

theorem through_account : s.Through id ↔
    ∃ last, (s.account id).status = some last ∧ last.isTerminal = true := by
  rw [account, Account.status_eq]
  rfl

theorem account_of_entry (tracked : Tracked origin s) {stats : Stats}
    (known : s.engine.tracker.find? id = some stats) : stats.command = (s.account id).command := by
  have issued : id ∈ s.issued := by
    by_contra new
    rw [(tracked.blank id new).entry] at known
    cases known
  obtain ⟨token, there, rfl⟩ := tracked.exists_token issued
  have matched := (tracked.lived _ there).accords.entry
  rw [show (s.life token).entry = some stats from known] at matched
  exact matched.2.2.1

theorem account_told {later : World} {events : List Event}
    (told : later.history = s.history ++ events) (id : JobId) :
    later.account id = .of (s.history.filter (·.job = id) ++ events.filter (·.job = id)) := by
  rw [account, told, List.filter_append]

theorem account_aside {later : World} {events : List Event}
    (told : later.history = s.history ++ events) (others : ∀ event ∈ events, event.job ≠ id) :
    later.account id = s.account id := by
  have none : events.filter (·.job = id) = [] := by simpa [List.filter_eq_nil_iff] using others
  rw [account_told told, none, List.append_nil, account]

theorem account_quiet {later : World} {events : List Event}
    (told : later.history = s.history ++ events) (silent : ∀ event ∈ events, event.writes = false)
    (id : JobId) : (later.account id).status = (s.account id).status ∧
      (later.account id).command = (s.account id).command := by
  rw [account_told told]
  refine Account.of_quiet (s.history.filter (·.job = id)) ?_
  intro event mem
  exact silent event (List.mem_filter.mp mem).1

theorem account_one {later : World} {event : Event} (told : later.history = s.history ++ [event])
    (own : event.job = id) : later.account id = (s.account id).after event := by
  have one : [event].filter (·.job = id) = [event] := by simp [own]
  rw [account_told told, one, Account.of_append, account]

namespace Through

theorem issued (tracked : Tracked origin s) (through : s.Through id) : id ∈ s.issued := by
  by_contra new
  obtain ⟨last, written, -⟩ := through
  simp [statuses, (tracked.blank id new).story] at written

/-- Nothing is still to be written of the attempt. -/
theorem closed (tracked : Tracked origin s) {token : Token} (there : token ∈ s.tokens)
    (through : s.Through token.1.id) : token.2.isOpen = false := by
  obtain ⟨last, written, terminal⟩ := through_account.mp through
  have fits : (s.account token.1.id).Fits token.1 token.2 :=
    (tracked.lived token there).accords.station
  have ends : last = .success ∨ last = .stopped := by
    cases last with
    | success => exact .inl rfl
    | stopped => exact .inr rfl
    | _ => cases terminal
  obtain ⟨record, station⟩ := token
  cases station with
  | appending | queued | fetched | stray | running =>
    rcases ends with rfl | rfl <;> simp [Account.Fits, written] at fits
  | _ => rfl

/-- A job that is through stays so, and only a client that sends what it meant to send still writes
a command. -/
theorem apply (tracked : Tracked origin s) (through : s.Through id) (move : Move) :
    (s.apply move).Through id ∧
      (((s.apply move).account id).command = (s.account id).command ∨
        ∃ index command, move = .proceed index ∧
          s.callers[index]? = some (.ordering id command) ∧
          (s.engine.tracker.find? id).isSome ∧
          ((s.apply move).account id).command = some command) := by
  obtain ⟨events, told, tells⟩ := s.tells_apply move
  have aside (others : ∀ event ∈ events, event.job ≠ id) :
      (s.apply move).Through id ∧
        ((s.apply move).account id).command = (s.account id).command := by
    have same := account_aside told others
    rw [through_account, same, ← through_account]
    exact ⟨through, rfl⟩
  cases tells with
  | quiet silent =>
    obtain ⟨status, command⟩ := account_quiet told silent id
    rw [through_account, status]
    exact ⟨through_account.mp through, .inl command⟩
  | submitted new =>
    have differ : ∀ record : Record, record.id ∉ s.issued → record.id ≠ id := by
      rintro record new rfl
      exact new (through.issued tracked)
    obtain ⟨still, same⟩ := aside (by simpa [Event.job] using differ _ new)
    exact ⟨still, .inl same⟩
  | @worked token event there unwritten own =>
    have differ : event.job ≠ id := by
      rintro rfl
      rw [own] at through
      have closed := through.closed tracked there
      rw [unwritten] at closed
      cases closed
    obtain ⟨still, same⟩ := aside (by simpa using differ)
    exact ⟨still, .inl same⟩
  | @sent index other command made ordering known =>
    by_cases same : other = id
    · subst same
      have story : (s.apply move).account other =
          (s.account other).after (.commanded other command) := account_one told rfl
      rw [through_account, story]
      exact ⟨through_account.mp through, .inr ⟨index, command, made, ordering, known, rfl⟩⟩
    · obtain ⟨still, same⟩ := aside (by simpa [Event.job] using same)
      exact ⟨still, .inl same⟩

/-- Who becomes through has no command. -/
theorem cleared (before : ¬ s.Through id) (after : (s.apply move).Through id) :
    ((s.apply move).account id).command = none := by
  obtain ⟨events, told, tells⟩ := s.tells_apply move
  have changed (same : ((s.apply move).account id).status = (s.account id).status) : False := by
    rw [through_account, same, ← through_account] at after
    exact before after
  have aside (others : ∀ event ∈ events, event.job ≠ id) : False :=
    changed (by rw [account_aside told others])
  cases tells with
  | quiet silent =>
    exact (changed (account_quiet told silent id).1).elim
  | @submitted record new =>
    by_cases same : record.id = id
    · have both : [Event.created record, .announced record.id].filter (·.job = id) =
          [.created record] ++ [.announced record.id] := by simp [Event.job, same]
      obtain ⟨last, written, terminal⟩ := through_account.mp after
      rw [account_told told, both, ← List.append_assoc, Account.of_append] at written
      cases written
      cases terminal
    · exact (aside (by simpa [Event.job] using same)).elim
  | @worked token event there unwritten own =>
    by_cases same : event.job = id
    · have story := account_one told same
      obtain ⟨last, written, terminal⟩ := through_account.mp after
      rw [story] at written ⊢
      refine Account.after_through _ ?_ written terminal
      intro already
      exact before (through_account.mpr ⟨last, already, terminal⟩)
    · exact (aside (by simpa using same)).elim
  | @sent index other command made ordering known =>
    by_cases same : other = id
    · have story := account_one told same
      exact (changed (by rw [story]; rfl)).elim
    · exact (aside (by simpa [Event.job] using same)).elim

end Through

/-! ## Looks and commands -/

theorem step_not_ordering (c : Caller) (e : Engine) (id : JobId) (command : Command) :
    (c.step e).1 ≠ .ordering id command := by
  cases c <;> simp [Caller.step]

/-- One comes, one goes on, or all stay as they are; who comes to send a command has found the job
open. -/
theorem callers_apply (s : World) (move : Move) :
    (s.apply move).callers = s.callers ∨
      (∃ index c, (s.apply move).callers = s.callers.set index (Caller.step c s.engine).1) ∨
      ∃ c, (s.apply move).callers = s.callers ++ [c] ∧ ∀ id command, c = .ordering id command →
        move = .order id command ∧ Client.checkOpen s.engine id = .ok () := by
  cases move with
  | work index =>
    simp only [apply]
    cases here : s.pool.workers[index]? with
    | none => exact .inl (by simp only [work, here])
    | some w => exact .inl (by rw [work_eq here]; rfl)
  | proceed index =>
    simp only [apply]
    cases here : s.callers[index]? with
    | none => exact .inl (by simp only [proceed, here])
    | some c => exact .inr (.inl ⟨index, c, by rw [proceed_eq here]; rfl⟩)
  | submit request id =>
    simp only [apply, submit]
    split
    · exact .inl rfl
    · split
      · exact .inr (.inr ⟨_, rfl, by simp⟩)
      · exact .inl rfl
  | hand record =>
    simp only [apply, hand]
    split
    · exact .inl rfl
    · exact .inr (.inr ⟨_, rfl, by simp⟩)
  | order id command =>
    simp only [apply, order]
    split
    · rename_i unfinished
      refine .inr (.inr ⟨_, rfl, ?_⟩)
      rintro _ _ same
      cases same
      exact ⟨rfl, unfinished⟩
    · exact .inl rfl
  | wake index =>
    simp only [apply, wake]
    split
    · split <;> exact .inl rfl
    · exact .inl rfl
  | retire index =>
    simp only [apply, retire]
    split
    · split <;> exact .inl rfl
    · exact .inl rfl
  | confirm c =>
    simp only [apply, confirm]
    split <;> exact .inl rfl
  | drop | pass ms | close | abandon | stock store => exact .inl rfl

/-- Who means to send a command has just come, or meant to before. -/
theorem ordering_apply {index : Nat} {command : Command}
    (here : (s.apply move).callers[index]? = some (.ordering id command)) :
    s.callers[index]? = some (.ordering id command) ∨
      index = s.callers.length ∧ move = .order id command ∧
        Client.checkOpen s.engine id = .ok () := by
  rcases s.callers_apply move with same | ⟨other, c, stepped⟩ | ⟨c, joined, looked⟩
  · rw [same] at here
    exact .inl here
  · rw [stepped, List.getElem?_set] at here
    split at here
    · split at here
      · exact absurd (Option.some.inj here) (step_not_ordering c _ _ _)
      · cases here
    · exact .inl here
  · rw [joined, List.getElem?_append] at here
    split at here
    · exact .inl here
    · rename_i beyond
      obtain ⟨first, own⟩ := List.getElem?_eq_some_iff.mp here
      have last : index = s.callers.length := by
        simp only [List.length_singleton] at first
        omega
      subst last
      simp only [Nat.sub_self, List.getElem_cons_zero] at own
      exact .inr ⟨rfl, looked id command own⟩

/-- Every command that is about to be sent goes back to a look at an open job. -/
theorem ordering_run (alone : origin.callers = []) {moves : List Move} {index : Nat}
    {command : Command}
    (here : (origin.run moves).callers[index]? = some (.ordering id command)) :
    ∃ before between, moves = before ++ .order id command :: between ∧
      index = (origin.run before).callers.length ∧
      Client.checkOpen (origin.run before).engine id = .ok () := by
  induction moves using List.reverseRecOn with
  | nil => simp [run, alone] at here
  | append_singleton moves move ih =>
    rw [run_append] at here
    rcases ordering_apply here with earlier | ⟨last, rfl, unfinished⟩
    · obtain ⟨before, between, rfl, own, unfinished⟩ := ih earlier
      exact ⟨before, between ++ [move], by simp, own, unfinished⟩
    · exact ⟨moves, [], rfl, last, unfinished⟩

/-- A client found the job open and sends its command when it is through. -/
def Late (origin : World) (moves : List Move) (id : JobId) : Prop :=
  ∃ before command between rest,
    let looks := origin.run before
    let sends := looks.run (.order id command :: between)
    moves = before ++ .order id command :: between ++ .proceed looks.callers.length :: rest ∧
      Client.checkOpen looks.engine id = .ok () ∧
      sends.callers[looks.callers.length]? = some (.ordering id command) ∧
      (sends.engine.tracker.find? id).isSome ∧ sends.Through id

theorem Late.append {moves : List Move} (late : Late origin moves id) (more : List Move) :
    Late origin (moves ++ more) id := by
  obtain ⟨before, command, between, rest, rfl, sent⟩ := late
  exact ⟨before, command, between, rest ++ more, by simp, sent⟩

/-- The induction is on the moves from the last one on: the command was there before it, or it is
the one that was sent too late. -/
theorem late_of_command (launched : origin.Launched) {moves : List Move}
    (through : (origin.run moves).Through id)
    (commanded : ((origin.run moves).account id).command.isSome) : Late origin moves id := by
  induction moves using List.reverseRecOn with
  | nil =>
    obtain ⟨last, written, -⟩ := through
    simp [statuses, run, launched.starts.silent] at written
  | append_singleton moves move ih =>
    have applied : origin.run (moves ++ [move]) = (origin.run moves).apply move :=
      run_append origin moves [move]
    rw [applied] at through commanded
    by_cases before : (origin.run moves).Through id
    · obtain ⟨-, same | ⟨index, command, rfl, ordering, known, written⟩⟩ :=
        before.apply (launched.tracked_run moves) move
      · rw [same] at commanded
        exact (ih before commanded).append [move]
      · obtain ⟨first, between, rfl, rfl, unfinished⟩ :=
          ordering_run launched.starts.alone ordering
        rw [run_append] at ordering known before
        exact ⟨first, command, between, [], rfl, unfinished, ordering, known, before⟩
    · rw [Through.cleared before through] at commanded
      cases commanded

/-- A command of a job that is through is not taken away. -/
theorem Through.run (tracked : Tracked origin s) (through : s.Through id)
    (commanded : (s.account id).command.isSome) (moves : List Move) :
    ((s.run moves).account id).command.isSome := by
  induction moves generalizing s with
  | nil => exact commanded
  | cons move rest ih =>
    obtain ⟨still, same | ⟨index, command, -, -, -, written⟩⟩ := through.apply tracked move
    · exact ih (tracked.apply move) still (same ▸ commanded)
    · exact ih (tracked.apply move) still (by rw [written]; rfl)

theorem account_sent {index : Nat} {command : Command} (online : s.engine.trackerOutage = [])
    (ordering : s.callers[index]? = some (.ordering id command))
    (known : (s.engine.tracker.find? id).isSome) :
    ((s.proceed index).account id).command = some command := by
  obtain ⟨stats, known⟩ := Option.isSome_iff_exists.mp known
  have told : (s.proceed index).history = s.history ++ [.commanded id command] := by
    rw [proceed_eq ordering]
    simp only [called, Caller.events, Engine.commandEvents_known online known command]
  have story : (s.proceed index).account id = (s.account id).after (.commanded id command) :=
    account_one told rfl
  rw [story]
  rfl

theorem Late.command (launched : origin.Launched) {moves : List Move}
    (late : Late origin moves id) : ((origin.run moves).account id).command.isSome := by
  obtain ⟨before, command, between, rest, rfl, -, ordering, known, through⟩ := late
  have tracked := (launched.tracked_run before).run (.order id command :: between)
  have written := account_sent tracked.online ordering known
  rw [run_append, run_append]
  exact (through.apply tracked _).1.run (tracked.apply _) (by simp only [apply, written]; rfl) rest

/-- An entry that says Success or Stopped shows a command exactly if a client had found the job open
and sent its command when it was through. -/
theorem late_command_iff (launched : origin.Launched) (moves : List Move) {stats : Stats}
    (known : (origin.run moves).engine.tracker.find? id = some stats)
    (terminal : stats.status = .success ∨ stats.status = .stopped) :
    stats.command.isSome ↔ Late origin moves id := by
  have tracked := launched.tracked_run moves
  have through : (origin.run moves).Through id := by
    rw [through_iff tracked known]
    rcases terminal with status | status <;> rw [status] <;> rfl
  rw [account_of_entry tracked known]
  exact ⟨late_of_command launched through, Late.command launched⟩

/-- A job comes to its end between the look of a client and its command. -/
def crossing : List Move :=
  [.submit ⟨"idle", [], none⟩ (.ofNat 7), .proceed 0, .work 0, .work 0, .order (.ofNat 7) .stop,
    .work 0, .work 0, .work 0, .proceed 1]

theorem late_command_iff_idle :
    let s := (workshop (.idle "idle")).run crossing
    (workshop (.idle "idle")).Launched ∧
      ∃ stats, s.engine.tracker.find? (.ofNat 7) = some stats ∧ stats.status = .success ∧
        stats.command = some .stop ∧ Late (workshop (.idle "idle")) crossing (.ofNat 7) := by
  intro s
  obtain ⟨stats, known, status, command⟩ : ∃ stats,
      s.engine.tracker.find? (.ofNat 7) = some stats ∧ stats.status = .success ∧
        stats.command = some .stop := ⟨_, rfl, rfl, rfl⟩
  have late := (late_command_iff (workshop_launched (.idle "idle")) crossing known
    (.inl status)).mp (by rw [command]; rfl)
  exact ⟨workshop_launched (.idle "idle"), stats, known, status, command, late⟩

/-- The look finds a running job, the command is accepted, and the job that succeeded has it. -/
theorem stop_after_success :
    let looks := (workshop (.idle "idle")).run (crossing.take 4)
    let sends := (workshop (.idle "idle")).run (crossing.take 8)
    let s := (workshop (.idle "idle")).run crossing
    (workshop (.idle "idle")).Launched ∧
      (looks.engine.tracker.find? (.ofNat 7)).map (·.status) = some .running ∧
      Client.checkOpen looks.engine (.ofNat 7) = .ok () ∧
      sends.callers[1]? = some (.ordering (.ofNat 7) .stop) ∧
      (sends.engine.sendCommand (.ofNat 7) .stop).1 = .ok () ∧
      (s.engine.tracker.find? (.ofNat 7)).map (fun stats => (stats.status, stats.command)) =
        some (.success, some .stop) :=
  ⟨workshop_launched (.idle "idle"), rfl, rfl, rfl, rfl, rfl⟩

end World

end JobEngine
