import JobEngine.Proofs.Projection
import JobEngine.Proofs.Settlement

/-!
# Runs keep the lives apart

Every move of the world is checked against the steps of a life. By induction
the projection holds after any run from a start.
-/
namespace JobEngine

open World

theorem Engine.take?_some {e later : Engine} {record : Record}
    (taken : e.take? = some (record, later)) :
    ∃ rest, e.queue.pending = record :: rest ∧ later.queue = { e.queue with pending := rest } ∧
      later.registry = e.registry ∧ later.clock = e.clock ∧
      later.trackerOutage = e.trackerOutage ∧ later.tracker = e.tracker := by
  simp only [take?, Queue.take?] at taken
  cases pending : e.queue.pending with
  | nil =>
    rw [pending] at taken
    cases taken
  | cons first rest =>
    rw [pending] at taken
    obtain ⟨rfl, rfl⟩ := Prod.mk.inj (Option.some.inj taken)
    refine ⟨rest, rfl, ?_⟩
    split <;> exact ⟨rfl, rfl, rfl, rfl, rfl⟩

theorem Client.check_ok {registry : Registry} {request : Request}
    (accepted : Client.check registry request = .ok ()) :
    ∃ job, registry.find? request.jobType = some job ∧ job.validate request.parameters = .ok () := by
  simp only [Client.check] at accepted
  split at accepted
  · cases accepted
  · rename_i job known
    split at accepted
    · exact ⟨job, known, by assumption⟩
    · cases accepted
    · cases accepted

theorem Queue.tokens_cons {q : Queue} {record : Record} {rest : List Record}
    (pending : q.pending = record :: rest) :
    q.tokens = (record, .queued) ::ₘ Queue.tokens { q with pending := rest } := by
  simp [tokens, pending]

@[simp] theorem Queue.tokens_append (q : Queue) (record : Record) :
    (q.append record).tokens = (record, .queued) ::ₘ q.tokens := by
  simp only [tokens, append, List.map_append, List.map_cons, List.map_nil, ← Multiset.coe_add,
    add_comm]
  rfl

@[simp] theorem Queue.tokens_complete (q : Queue) (record : Record) :
    (q.complete record).tokens = q.tokens := by
  simp only [tokens, complete]

@[simp] theorem Queue.tokens_bury (q : Queue) (record : Record) (lastError : Option String) :
    (q.bury record lastError).tokens = q.tokens := by
  simp only [tokens, bury]

theorem Queue.thresholds_complete (q : Queue) (record : Record) :
    (q.complete record).thresholds = q.thresholds := by
  simp only [complete]

theorem Queue.thresholds_bury (q : Queue) (record : Record) (lastError : Option String) :
    (q.bury record lastError).thresholds = q.thresholds := by
  simp only [bury]

namespace Tracked

variable {origin s : World} {index : Nat}

theorem terms (tracked : Tracked origin s) : s.pool.terms = origin.pool.terms := by
  simp only [Pool.terms, tracked.kept.settings]

theorem threshold (tracked : Tracked origin s) (record : Record) :
    s.engine.queue.threshold record = origin.engine.queue.threshold record :=
  Queue.threshold_congr tracked.kept.thresholds record

theorem work_asking (tracked : Tracked origin s)
    (here : s.pool.workers[index]? = some .asking) : Tracked origin (s.work index) := by
  rw [work_eq here]
  cases taken : s.engine.take? with
  | none =>
    simp only [Worker.step, Worker.events, taken]
    exact tracked.stepped_unnoticed here rfl rfl rfl rfl rfl rfl
  | some pair =>
    obtain ⟨record, engine⟩ := pair
    obtain ⟨rest, pending, queue, registry, clock, outage, tracker⟩ := Engine.take?_some taken
    have spares : s.engine.Spares record.id engine :=
      .of_tracker registry clock (by rw [queue]) outage tracker
    have same : engine.registry.find? record.jobType =
        origin.engine.registry.find? record.jobType := by
      rw [registry, tracked.kept.registry]
    simp only [Worker.step, Worker.events, taken, Worker.receive, same]
    cases known : origin.engine.registry.find? record.jobType with
    | some job =>
      refine tracked.stepped (record, .queued) (record, .fetched job) engine.queue.tokens here spares
        rfl (fun _ _ => rfl) (by simp [Event.job, Event.created?]) ?_ ?_ rfl rfl rfl rfl ?_
      · rw [Queue.tokens_cons pending, ← queue]
        rfl
      · simp [Worker.token?, Stage.station, Event.token?]
      · intro lived
        rw [tracker]
        exact lived.taken rfl known
    | none =>
      refine tracked.stepped (record, .queued) (record, .stray) engine.queue.tokens here spares
        rfl (fun _ _ => rfl) (by simp [Event.job, Event.created?]) ?_ ?_ rfl rfl rfl rfl ?_
      · rw [Queue.tokens_cons pending, ← queue]
        rfl
      · simp [Worker.token?, Event.token?]
      · intro lived
        rw [tracker]
        exact lived.strayed rfl known

theorem work_fetched {record : Record} {job : Job} (tracked : Tracked origin s)
    (here : s.pool.workers[index]? = some (.carrying ⟨record, job, .fetched⟩)) :
    Tracked origin (s.work index) := by
  rw [work_eq here]
  simp only [Worker.step, Worker.events, Delivery.result?, Delivery.step, Delivery.events]
  refine tracked.stepped (record, .fetched job) (record, .running job) s.engine.queue.tokens here
    (Engine.spares_setStatus s.engine record.id .running) rfl (fun _ _ => rfl)
    (by simp [Event.job, Event.created?]) rfl ?_ rfl rfl
    (Engine.find?_setStatus tracked.online tracked.listed record.id .running) rfl
    fun lived => lived.began rfl
  rw [Engine.setStatus, Engine.write_queue]
  simp [Worker.token?, Stage.station, Event.token?]

theorem work_announced {record : Record} {job : Job} (tracked : Tracked origin s)
    (here : s.pool.workers[index]? = some (.carrying ⟨record, job, .announced⟩)) :
    Tracked origin (s.work index) := by
  rw [work_eq here]
  simp only [Worker.step, Worker.events, Delivery.result?, Delivery.step, Delivery.events,
    Delivery.prepare]
  cases s.engine.logs.openLog s.pool.terms.target record with
  | error err => exact tracked.stepped_unnoticed here rfl rfl rfl rfl rfl rfl
  | ok pair =>
    cases job.validate record.parameters with
    | error f => exact tracked.stepped_unnoticed here rfl rfl rfl rfl rfl rfl
    | ok => exact tracked.stepped_unnoticed here rfl rfl rfl rfl rfl rfl

theorem work_active {record : Record} {job : Job} {log : OpenLog} {rest : Activity}
    (tracked : Tracked origin s)
    (here : s.pool.workers[index]? = some (.carrying ⟨record, job, .active log rest⟩)) :
    Tracked origin (s.work index) := by
  rw [work_eq here]
  cases rest with
  | checkIn message next =>
    simp only [Worker.step_active, Worker.events, Delivery.result?, Delivery.act, Delivery.events]
    refine tracked.stepped (record, .running job) (record, .running job) s.engine.queue.tokens here
      (Engine.spares_update s.engine record.id .checkIn (by intro s; rfl)) rfl (fun _ _ => rfl)
      (by simp) rfl ?_ rfl rfl
      (Engine.find?_write_update tracked.online record.id .checkIn (by intro s; rfl)) rfl
      fun lived => by rw [List.append_nil]; exact lived.checkedIn message rfl
    rw [Engine.checkIn, Engine.write_queue]
    simp [Worker.token?, Stage.station]
  | order command next =>
    simp only [Worker.step_active, Worker.events, Delivery.result?, Delivery.act, Delivery.events]
    cases known : s.engine.tracker.find? record.id with
    | none =>
      obtain ⟨silent, same⟩ := Engine.commandEvents_unknown tracked.online known command
      rw [silent, same]
      exact tracked.stepped_unnoticed here rfl rfl rfl rfl rfl rfl
    | some stats =>
      rw [Engine.commandEvents_known tracked.online known command]
      refine tracked.stepped (record, .running job) (record, .running job) s.engine.queue.tokens
        here (Engine.spares_update s.engine record.id .sendCommand (by intro s; rfl)) rfl
        (fun _ _ => rfl) (by simp [Event.job, Event.created?]) rfl ?_ rfl rfl
        (Engine.find?_write_update tracked.online record.id .sendCommand (by intro s; rfl)) rfl ?_
      · rw [Engine.sendCommand, Engine.write_queue]
        simp [Worker.token?, Stage.station, Event.token?]
      · rw [known]
        exact fun lived => lived.commanded command known
  | delete repository digest next =>
    simp only [Worker.step_active, Worker.events, Delivery.result?, Delivery.act, Delivery.events,
      Engine.deleteArtifact]
    split
    · exact tracked.stepped_unnoticed here rfl rfl rfl rfl rfl rfl
    · split <;> exact tracked.stepped_unnoticed here rfl rfl rfl rfl rfl rfl
  | _ =>
    simp only [Worker.step_active, Worker.events, Delivery.result?, Delivery.act, Delivery.events]
    exact tracked.stepped_unnoticed here rfl rfl rfl rfl rfl rfl

theorem work_ended {record : Record} {job : Job} {outcome : Outcome} (tracked : Tracked origin s)
    (here : s.pool.workers[index]? = some (.carrying ⟨record, job, .ended outcome⟩)) :
    Tracked origin (s.work index) := by
  rw [work_eq here]
  simp only [Worker.step, Worker.events, Delivery.result?, Delivery.step, Delivery.events]
  refine tracked.stepped (record, .running job) (record, .reported job outcome)
    s.engine.queue.tokens here (Engine.spares_setStatus s.engine record.id outcome.status) rfl
    (fun _ _ => rfl) (by simp [Event.job, Event.created?]) rfl ?_ rfl rfl
    (Engine.find?_setStatus tracked.online tracked.listed record.id outcome.status) rfl
    fun lived => lived.ended outcome rfl
  rw [Engine.setStatus, Engine.write_queue]
  simp [Worker.token?, Stage.station, Event.token?]

theorem work_reported {record : Record} {job : Job} {outcome : Outcome}
    (tracked : Tracked origin s)
    (here : s.pool.workers[index]? = some (.carrying ⟨record, job, .reported outcome⟩)) :
    Tracked origin (s.work index) := by
  rw [work_eq here]
  simp only [Worker.step, Worker.events, Delivery.result?, Delivery.step, Delivery.events]
  cases hopeless : outcome.deadLetters s.pool.terms.policy job record with
  | true =>
    simp only [if_true]
    refine tracked.stepped (record, .reported job outcome)
      ({ record with fails := deadLetterFails }, .decided job outcome.result)
      s.engine.queue.tokens here (.of_tracker rfl rfl rfl rfl rfl) rfl ?_
      (by simp [Event.job, Event.created?]) rfl ?_ rfl rfl rfl rfl ?_
    · intro other differ
      simp [DeadLetters.schedule, List.filter_append, Ne.symm differ]
    · simp [Worker.token?, Stage.station, Event.token?]
    · intro lived
      have doomed := lived.doomed rfl (tracked.terms ▸ hopeless)
      simpa [World.life, Life.confirmation, Life.now, Engine.now, tracked.kept.grace,
        DeadLetters.schedule, List.filter_append] using doomed
  | false =>
    simp only [Bool.false_eq_true, if_false]
    refine tracked.stepped (record, .reported job outcome) (record, .decided job outcome.result)
      s.engine.queue.tokens here (.of_tracker rfl rfl rfl rfl rfl) rfl (fun _ _ => rfl) (by simp)
      rfl ?_ rfl rfl rfl rfl ?_
    · simp [Worker.token?, Stage.station]
    · intro lived
      rw [List.append_nil]
      exact lived.spared rfl (tracked.terms ▸ hopeless)

theorem work_decided {record : Record} {job : Job} {result : Except JobError Unit}
    (tracked : Tracked origin s)
    (here : s.pool.workers[index]? = some (.carrying ⟨record, job, .decided result⟩)) :
    Tracked origin (s.work index) := by
  rw [work_eq here]
  cases result with
  | ok =>
    simp only [Worker.step, Worker.events, Delivery.result?, Worker.settle, Worker.settleEvents]
    refine tracked.stepped (record, .decided job (.ok ())) (record, .completed)
      s.engine.queue.tokens here (.of_tracker rfl rfl (Queue.thresholds_complete ..) rfl rfl) rfl
      (fun _ _ => rfl) (by simp [Event.job, Event.created?]) rfl ?_ rfl rfl rfl rfl
      fun lived => lived.completed rfl
    rw [Queue.tokens_complete]
    simp [Worker.token?, Event.token?]
  | error err =>
    simp only [Worker.step, Worker.events, Delivery.result?, Worker.settleEvents]
    rcases Nat.lt_or_ge (countFailure record.fails).toNat
      (s.engine.queue.threshold record).toNat with under | spent
    · rw [Worker.settle_under err under, Queue.fail_of_lt err under]
      refine tracked.stepped (record, .decided job (.error err))
        ({ record with fails := countFailure record.fails }, .queued) s.engine.queue.tokens here
        (.of_tracker rfl rfl rfl rfl rfl) rfl (fun _ _ => rfl)
        (by simp [Event.job, Event.created?]) rfl ?_ rfl rfl rfl rfl
        fun lived => lived.requeued rfl (tracked.threshold record ▸ under)
      rw [Queue.tokens_append]
      simp [Worker.token?, Event.token?]
    · rw [Worker.settle_spent err spent, Queue.fail_of_le err spent]
      refine tracked.stepped (record, .decided job (.error err))
        ({ record with fails := countFailure record.fails }, .buried) s.engine.queue.tokens here
        (.of_tracker rfl rfl (Queue.thresholds_bury ..) rfl rfl) rfl (fun _ _ => rfl)
        (by simp [Event.job, Event.created?]) rfl ?_ rfl rfl rfl rfl
        fun lived => lived.buried rfl (tracked.threshold record ▸ spent)
      rw [Queue.tokens_bury]
      simp [Worker.token?, Event.token?]

theorem work_stray {record : Record} (tracked : Tracked origin s)
    (here : s.pool.workers[index]? = some (.stray record)) : Tracked origin (s.work index) := by
  rw [work_eq here]
  simp only [Worker.step, Worker.events]
  refine tracked.stepped (record, .stray) (record, .strayMarked) s.engine.queue.tokens here
    (Engine.spares_setStatus s.engine record.id .error) rfl (fun _ _ => rfl)
    (by simp [Event.job, Event.created?]) rfl ?_ rfl rfl
    (Engine.find?_setStatus tracked.online tracked.listed record.id .error) rfl
    fun lived => lived.marked rfl
  rw [Engine.setStatus, Engine.write_queue]
  simp [Worker.token?, Event.token?]

theorem work_strayMarked {record : Record} (tracked : Tracked origin s)
    (here : s.pool.workers[index]? = some (.strayMarked record)) :
    Tracked origin (s.work index) := by
  rw [work_eq here]
  simp only [Worker.step, Worker.events]
  refine tracked.stepped (record, .strayMarked) (record, .buried) s.engine.queue.tokens here
    (.of_tracker rfl rfl (Queue.thresholds_bury ..) rfl rfl) rfl (fun _ _ => rfl)
    (by simp [Event.job, Event.created?]) rfl ?_ rfl rfl rfl rfl fun lived => lived.cast rfl
  rw [Queue.tokens_bury]
  simp [Worker.token?, Event.token?]

theorem work (tracked : Tracked origin s) (index : Nat) : Tracked origin (s.work index) := by
  cases here : s.pool.workers[index]? with
  | none =>
    simpa only [World.work, here] using tracked
  | some w =>
    cases w with
    | asking => exact tracked.work_asking here
    | carrying d =>
      obtain ⟨record, job, stage⟩ := d
      cases stage with
      | fetched => exact tracked.work_fetched here
      | announced => exact tracked.work_announced here
      | active log rest => exact tracked.work_active here
      | ended outcome => exact tracked.work_ended here
      | reported outcome => exact tracked.work_reported here
      | decided result => exact tracked.work_decided here
    | stray record => exact tracked.work_stray here
    | strayMarked record => exact tracked.work_strayMarked here
    | emptyHanded =>
      rw [work_eq here]
      simp only [Worker.step, Worker.events]
      refine tracked.stepped_unnoticed here ?_ rfl rfl rfl rfl rfl
      split <;> rfl
    | parked | ringing | stopped =>
      rw [work_eq here]
      exact tracked.stepped_unnoticed here rfl rfl rfl rfl rfl rfl

/-! ## Callers -/

theorem proceed (tracked : Tracked origin s) (index : Nat) : Tracked origin (s.proceed index) := by
  cases here : s.callers[index]? with
  | none => simpa only [World.proceed, here] using tracked
  | some c =>
    rw [proceed_eq here]
    obtain ⟨rest, before, after⟩ := tokens_called here
    cases c with
    | appending record =>
      refine tracked.step (record, .appending) (record, .queued) (s.engine.queue.tokens + rest)
        (.of_tracker rfl rfl rfl rfl rfl) rfl rfl rfl (fun _ _ => rfl) rfl
        (by simp [Caller.events, Event.job, Event.created?]) ?_ ?_ rfl rfl rfl rfl
        fun lived => lived.handed rfl
      · rw [before]
        simp [Caller.token?]
      · rw [after]
        simp [Caller.step, Caller.events, Caller.token?, Event.token?, Engine.append]
    | ringing | done =>
      refine tracked.unnoticed ⟨rfl, rfl, rfl, rfl, rfl, rfl⟩ rfl rfl rfl (List.append_nil _) ?_
      rw [after, before]
      simp [Caller.step, Caller.events, Caller.token?, Engine.ring]
    | ordering id command =>
      cases known : s.engine.tracker.find? id with
      | none =>
        obtain ⟨silent, same⟩ := Engine.commandEvents_unknown tracked.online known command
        simp only [Caller.step, Caller.events, silent, same]
        refine tracked.unnoticed ⟨rfl, rfl, rfl, rfl, rfl, rfl⟩ rfl rfl rfl (List.append_nil _) ?_
        rw [after, before]
        simp [Caller.token?]
      | some stats =>
        have issued : id ∈ s.issued := by
          by_contra new
          rw [(tracked.blank id new).entry] at known
          cases known
        simp only [Caller.step, Caller.events,
          Engine.commandEvents_known tracked.online known command]
        refine tracked.touched issued
          (Engine.spares_update s.engine id .sendCommand (by intro s; rfl)) rfl rfl rfl
          (fun _ _ => rfl) rfl (by simp [Event.job, Event.created?]) ?_
          (Engine.find?_write_update tracked.online id .sendCommand (by intro s; rfl)) rfl ?_
        · rw [after, before, Engine.sendCommand, Engine.write_queue]
          simp [Caller.token?, Event.token?]
        · rintro token rfl lived
          rw [known]
          exact lived.commanded command known

/-! ## Other moves -/

theorem setWorker (tracked : Tracked origin s) {w : Worker}
    (here : s.pool.workers[index]? = some w) (next : Worker) (bell : Bell Taker)
    (same : next.token? = w.token?) : Tracked origin (s.setWorker index next bell) := by
  have stepped : s.setWorker index next bell =
      s.stepped index next { s.engine with bell } s.pool.letters [] := by
    simp only [World.setWorker, World.stepped, List.append_nil]
  rw [stepped]
  exact tracked.stepped_unnoticed here same rfl rfl rfl rfl rfl

theorem wake (tracked : Tracked origin s) (index : Nat) : Tracked origin (s.wake index) := by
  simp only [World.wake]
  split
  · rename_i here
    split
    · exact tracked.setWorker here _ _ rfl
    · exact tracked
  · exact tracked

theorem retire (tracked : Tracked origin s) (index : Nat) : Tracked origin (s.retire index) := by
  simp only [World.retire]
  split
  · split
    · rename_i here
      exact tracked.setWorker here _ _ rfl
    · rename_i here
      exact tracked.setWorker here _ _ rfl
    · exact tracked
  · exact tracked

theorem submit (tracked : Tracked origin s) (request : Request) (id : JobId) :
    Tracked origin (s.submit request id) := by
  by_cases fresh : id ∈ s.issued
  · simpa only [World.submit, fresh, if_true] using tracked
  cases accepted : Client.check s.engine.registry request with
  | error f => simpa only [World.submit, fresh, if_false, accepted] using tracked
  | ok =>
    obtain ⟨job, known, valid⟩ := Client.check_ok accepted
    rw [tracked.kept.registry] at known
    obtain ⟨entry, waiting, story⟩ := tracked.blank id fresh
    have marked := Engine.find?_setStatus tracked.online tracked.listed id .pending
    rw [entry] at marked
    obtain ⟨rest, before, after⟩ := tokens_joined s
    have spares := Engine.spares_setStatus s.engine id .pending
    have own : (Record.ofRequest request id s.engine.now).id = id := rfl
    have about : ∀ event ∈ [Event.created (.ofRequest request id s.engine.now), .announced id],
        event.job = id := by simp [Event.job, own]
    have submitted : s.submit request id =
        s.joined (.appending (.ofRequest request id s.engine.now))
          (s.engine.setStatus id .pending).2
          [.created (.ofRequest request id s.engine.now), .announced id] := by
      simp only [World.submit, fresh, if_false, accepted, Engine.setStatus_online tracked.online]
    rw [submitted]
    refine tracked.enter (.ofRequest request id s.engine.now, .appending)
      (.of_spares spares rfl rfl rfl) (.of_spares spares (fun _ _ => rfl) rfl about) fresh
      (by simp [World.issued, World.joined, Event.created?, own]) ?_ own ?_
    · rw [after, before, Engine.setStatus, Engine.write_queue]
      simp [Caller.token?, Event.token?]
    · rw [life_eq s (s.joined _ _ _) _ spares.clock rfl about own marked waiting, story]
      exact .submitted known valid

theorem hand (tracked : Tracked origin s) (record : Record) : Tracked origin (s.hand record) := by
  simp only [World.hand]
  split
  · exact tracked
  · rename_i fresh
    obtain ⟨entry, waiting, story⟩ := tracked.blank record.id fresh
    obtain ⟨rest, before, after⟩ := tokens_joined s
    have about : ∀ event ∈ [Event.created record, .handed record], event.job = record.id := by
      simp [Event.job]
    refine tracked.enter (record, .queued) ⟨rfl, rfl, rfl, rfl, rfl, rfl⟩
      (.of_spares (.of_tracker rfl rfl rfl rfl rfl) (fun _ _ => rfl) rfl about)
      fresh (by simp [World.issued, World.joined, Event.created?]) ?_ rfl ?_
    · rw [after, before]
      simp [Caller.token?, Event.token?, Engine.append]
    · have life := life_eq s (s.joined .ringing (s.engine.append record) _) (record, .queued) rfl rfl
        about rfl entry waiting
      rw [life, story]
      exact .offered record s.engine.clock

theorem order (tracked : Tracked origin s) (id : JobId) (command : Command) :
    Tracked origin (s.order id command) := by
  simp only [World.order]
  split
  · obtain ⟨rest, before, after⟩ := tokens_joined s
    refine tracked.unnoticed ⟨rfl, rfl, rfl, rfl, rfl, rfl⟩ rfl rfl rfl (List.append_nil _) ?_
    rw [after, before]
    simp [Caller.token?]
  · exact tracked

theorem confirm (tracked : Tracked origin s) (c : Confirmation) :
    Tracked origin (s.confirm c) := by
  simp only [World.confirm]
  split
  · rename_i ready
    obtain ⟨waits, due⟩ := ready
    have issued : c.id ∈ s.issued := by
      by_contra new
      have none := (tracked.blank c.id new).waiting
      simpa using List.filter_eq_nil_iff.mp none c waits
    refine tracked.touched issued
      (Engine.spares_update s.engine c.id .markDeadAt (by intro s; rfl)) rfl rfl rfl ?_ rfl
      (by simp [Event.job, Event.created?]) ?_
      (Engine.find?_write_update tracked.online c.id .markDeadAt (by intro s; rfl))
      List.erase_filter.symm ?_
    · intro other differ
      rw [← List.erase_filter, List.erase_of_not_mem]
      simpa using fun _ => Ne.symm differ
    · simp [World.tokens, Engine.markDeadAt, Engine.write_queue, List.filterMap_cons, Event.token?]
    · rintro token own lived
      have there : c ∈ (s.life token).waiting := by simpa [World.life, own] using waits
      simpa only [World.life, Life.now, Engine.now, own] using lived.confirmed there due
  · exact tracked

theorem drop (tracked : Tracked origin s) : Tracked origin s.drop := by
  cases abandoned : s.pool.letters.abandoned with
  | false =>
    have same : s.drop = s := by
      simp [World.drop, DeadLetters.dropAbandoned, abandoned]
    rw [same]
    exact tracked
  | true =>
    have issued : s.drop.issued = s.issued := by
      simp [World.drop, World.issued, abandoned, List.filterMap_map, Function.comp_def,
        Event.created?]
    have tokens : s.drop.tokens = s.tokens := by
      simp [World.drop, World.tokens, abandoned, List.filterMap_map, Function.comp_def,
        Event.token?]
    have story (id : JobId) : s.drop.history.filter (·.job = id) =
        s.history.filter (·.job = id) ++
          (s.pool.letters.waiting.filter (·.id = id)).map .dropped := by
      simp only [World.drop, abandoned, if_true, List.filter_append, List.filter_map]
      rfl
    have empty : s.drop.pool.letters.waiting = [] := by
      simp [World.drop, DeadLetters.dropAbandoned, abandoned]
    have life (token : Token) : s.drop.life token = { s.life token with
        waiting := []
        story := (s.life token).story ++ (s.life token).waiting.map .dropped } := by
      simp only [World.life, story, empty, List.filter_nil]
      rfl
    refine ⟨tracked.kept.trans ⟨rfl, rfl, rfl, rfl, ?_, rfl⟩, tracked.online, tracked.listed,
      issued ▸ tracked.distinct, ?_, ?_, ?_⟩
    · simp [World.drop, DeadLetters.dropAbandoned, abandoned]
    · rw [tokens, issued, tracked.jobs]
    · intro token mem
      rw [life]
      exact (tracked.lived token (tokens ▸ mem)).dropped
    · intro id new
      obtain ⟨entry, waiting, silent⟩ := tracked.blank id (issued ▸ new)
      refine ⟨entry, ?_, ?_⟩
      · rw [empty, List.filter_nil]
      · rw [story, silent, waiting, List.map_nil, List.append_nil]

theorem pass (tracked : Tracked origin s) (ms : Nat) : Tracked origin (s.apply (.pass ms)) :=
  ⟨tracked.kept.trans ⟨rfl, rfl, rfl, rfl, rfl, rfl⟩, tracked.online, tracked.listed,
    tracked.distinct, tracked.jobs, fun token mem => (tracked.lived token mem).passed ms,
    fun id new => ⟨(tracked.blank id new).entry, (tracked.blank id new).waiting,
      (tracked.blank id new).story⟩⟩

theorem apply (tracked : Tracked origin s) (move : Move) : Tracked origin (s.apply move) := by
  cases move with
  | work index => exact tracked.work index
  | wake index => exact tracked.wake index
  | retire index => exact tracked.retire index
  | submit request id => exact tracked.submit request id
  | hand record => exact tracked.hand record
  | order id command => exact tracked.order id command
  | proceed index => exact tracked.proceed index
  | confirm c => exact tracked.confirm c
  | pass ms => exact tracked.pass ms
  | drop => exact tracked.drop
  | close | abandon | stock store =>
    exact tracked.unnoticed ⟨rfl, rfl, rfl, rfl, rfl, rfl⟩ rfl rfl rfl rfl rfl

/-- The induction is on the moves. -/
theorem run (tracked : Tracked origin s) (moves : List Move) : Tracked origin (s.run moves) := by
  induction moves generalizing s with
  | nil => exact tracked
  | cons move rest ih => exact ih (tracked.apply move)

end Tracked

/-! ## The start -/

/-- The state in which a run starts. -/
structure World.Starts (s : World) : Prop where
  fresh : s.engine.Fresh
  alone : s.callers = []
  silent : s.history = []
  staffed : 0 < s.pool.settings.workers
  idle : s.pool.workers = List.replicate s.pool.settings.workers .asking
  letters : s.pool.letters = { grace := s.pool.settings.grace }
  agree : ∀ (record : Record) (job : Job), s.engine.registry.find? record.jobType = some job →
    s.engine.queue.threshold record = s.pool.terms.policy.effectiveBudget job record

namespace World.Launched

variable {origin : World}

theorem starts (launched : origin.Launched) : origin.Starts := by
  obtain ⟨settings, before, fresh, launched⟩ := launched
  simp only [World.launch] at launched
  split at launched
  · rename_i pool engine start
    obtain rfl := Except.ok.inj launched
    have agree (record : Record) (job : Job)
        (known : before.registry.find? record.jobType = some job) :=
      Pool.threshold_of_start start fresh.built known
    obtain ⟨staffed, rfl, logs, rfl⟩ := Pool.start_ok start
    obtain ⟨thresholds, registered⟩ :=
      Pool.registerThresholds_eq ⟨settings.defaultMaxFails⟩ { before with logs }
    rw [registered] at agree ⊢
    exact ⟨⟨fresh.pending, fresh.completed, fresh.dead, fresh.untracked, fresh.online, fresh.built⟩,
      rfl, rfl, staffed, rfl, rfl, agree⟩
  · cases launched

theorem tracked (launched : origin.Launched) : Tracked origin origin := by
  obtain ⟨fresh, alone, silent, -, idle, letters, -⟩ := launched.starts
  have asking : origin.pool.workers.filterMap Worker.token? = [] := by
    simp [idle, List.filterMap_replicate, Worker.token?]
  have empty : origin.tokens = 0 := by
    simp [World.tokens, Queue.tokens, alone, silent, asking, fresh.pending]
  have issued : origin.issued = [] := by simp [World.issued, silent]
  refine ⟨.refl _, fresh.online, ?_, by simp [issued], ?_, ?_, ?_⟩
  · simp [Tracker.Listed, fresh.untracked]
  · rw [empty, issued]
    rfl
  · rw [empty]
    intro token mem
    cases mem
  · intro id _
    exact ⟨by simp [Tracker.find?, fresh.untracked], by simp [letters], by simp [silent]⟩

/-- From its start on the world is tracked. -/
theorem tracked_run (launched : origin.Launched) (moves : List Move) :
    Tracked origin (origin.run moves) := launched.tracked.run moves

end World.Launched

namespace World

/-- The engine of a service that knows one job. -/
def bench (job : Job) : Engine := { registry := ⟨[job]⟩, clock := 0 }

/-- A pool of one worker over a service that knows one job. -/
def workshop (job : Job) : World where
  engine := Pool.registerThresholds {} (bench job)
  pool := ⟨{ workers := 1 }, [.asking], { grace := 2000 }, false⟩

theorem workshop_launched (job : Job) : (workshop job).Launched :=
  ⟨{ workers := 1 }, bench job, ⟨rfl, rfl, rfl, rfl, rfl, .grown .empty rfl⟩, rfl⟩

end World

end JobEngine
