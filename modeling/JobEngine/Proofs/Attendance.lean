import JobEngine.Proofs.RemainingWork

/-!
# Someone looks after what waits

The workers of a pool take from its queue as any calls do. As long as the pool
takes records, one that waits has a ring to come or a worker that is about to
look. When no one can go on any more, nothing is in hand, and nothing waits.
-/
namespace JobEngine

/-- About to look into the queue, or to ring and look then. -/
def Worker.isAlert : Worker → Bool
  | .asking | .ringing => true
  | _ => false

namespace World

variable {s : World} {index : Nat} {w next : Worker} {engine : Engine} {letters : DeadLetters}
  {events : List Event}

def Waits (s : World) (t : Taker) : Prop :=
  ∃ index, t = .worker index ∧ s.pool.workers[index]? = some .parked

/-- There is a ring that was not answered, a ring to come, or one who will look. -/
def Attended (s : World) : Prop :=
  s.engine.bell.Rung ∨
    (∃ (index : Nat) (w : Worker), s.pool.workers[index]? = some w ∧ w.isAlert = true) ∨
      ∃ index : Nat, s.callers[index]? = some .ringing

/-- The seats at the bell are those of the workers that are parked, and a pool that takes records
attends to them. -/
structure Attentive (s : World) : Prop where
  seats : s.engine.bell.Seats s.Waits
  attended : s.pool.closing = false → s.engine.queue.pending ≠ [] → s.Attended
  staffed : s.pool.closing = false → .stopped ∉ s.pool.workers

/-! ## Steps of workers -/

theorem worker_stepped (here : s.pool.workers[index]? = some w) (other : Nat) :
    (s.stepped index next engine letters events).pool.workers[other]? =
      if other = index then some next else s.pool.workers[other]? := by
  obtain ⟨bound, -⟩ := List.getElem?_eq_some_iff.mp here
  simp only [stepped, List.getElem?_set, bound, if_true, eq_comm]

theorem waits_stepped (here : s.pool.workers[index]? = some w) (t : Taker) :
    (s.stepped index next engine letters events).Waits t ↔
      s.Waits t ∧ t ≠ .worker index ∨ next = .parked ∧ t = .worker index := by
  simp only [Waits, worker_stepped here]
  constructor
  · rintro ⟨other, rfl, parked⟩
    split at parked
    · rename_i same
      exact Or.inr ⟨Option.some.inj parked, by rw [same]⟩
    · rename_i differ
      exact Or.inl ⟨⟨other, rfl, parked⟩, fun same => differ (Taker.worker.inj same)⟩
  · rintro (⟨⟨other, rfl, parked⟩, differ⟩ | ⟨rfl, rfl⟩)
    · exact ⟨other, rfl, by rwa [if_neg fun same => differ (by rw [same])]⟩
    · exact ⟨index, rfl, by rw [if_pos rfl]⟩

/-- Someone who does not wait goes on without waiting. -/
theorem seats_stepped (seats : engine.bell.Seats s.Waits)
    (here : s.pool.workers[index]? = some w) (before : w ≠ .parked) (after : next ≠ .parked) :
    engine.bell.Seats (s.stepped index next engine letters events).Waits := by
  refine seats.congr fun t => ?_
  rw [waits_stepped here]
  constructor
  · rintro ⟨other, rfl, parked⟩
    refine Or.inl ⟨⟨other, rfl, parked⟩, fun same => before ?_⟩
    rw [Taker.worker.inj same, here] at parked
    exact Option.some.inj parked
  · rintro (⟨waits, -⟩ | ⟨parked, -⟩)
    · exact waits
    · exact absurd parked after

theorem attended_of_alert (here : s.pool.workers[index]? = some w) (alert : next.isAlert = true) :
    (s.stepped index next engine letters events).Attended :=
  Or.inr (Or.inl ⟨index, next, by rw [worker_stepped here, if_pos rfl], alert⟩)

/-- Who was not about to look leaves those who are. -/
theorem Attended.stepped (attended : s.Attended) (here : s.pool.workers[index]? = some w)
    (dull : w.isAlert = false) (rung : s.engine.bell.Rung → engine.bell.Rung) :
    (s.stepped index next engine letters events).Attended := by
  rcases attended with heard | ⟨other, alert, there, looks⟩ | caller
  · exact Or.inl (rung heard)
  · have differ : other ≠ index := by
      rintro rfl
      rw [here] at there
      rw [Option.some.inj there, looks] at dull
      cases dull
    exact Or.inr (Or.inl ⟨other, alert, by rwa [worker_stepped here, if_neg differ], looks⟩)
  · exact Or.inr (Or.inr caller)

namespace Attentive

theorem staffed_stepped (attentive : s.Attentive) (going : next ≠ .stopped)
    (taking : s.pool.closing = false) :
    .stopped ∉ (s.stepped index next engine letters events).pool.workers := by
  intro mem
  rcases List.mem_or_eq_of_mem_set mem with earlier | same
  · exact attentive.staffed taking earlier
  · exact going same.symm

/-- What a worker does with a record it has, and how it comes back without one. -/
theorem stepped (attentive : s.Attentive) (here : s.pool.workers[index]? = some w)
    (dull : w.isAlert = false) (before : w ≠ .parked) (after : next ≠ .parked)
    (going : next ≠ .stopped) (bell : engine.bell = s.engine.bell)
    (kept : next.isAlert = true ∨ engine.queue.pending = s.engine.queue.pending) :
    (s.stepped index next engine letters events).Attentive := by
  have seats : engine.bell.Seats s.Waits := bell ▸ attentive.seats
  refine ⟨seats_stepped seats here before after, fun taking waits => ?_,
    attentive.staffed_stepped going⟩
  rcases kept with alert | same
  · exact attended_of_alert here alert
  · have earlier : s.engine.queue.pending ≠ [] := same ▸ waits
    exact (attentive.attended taking earlier).stepped here dull fun rung => bell ▸ rung

/-- Who takes a record rings if others are left. -/
theorem work_asking (attentive : s.Attentive) (here : s.pool.workers[index]? = some .asking) :
    (s.work index).Attentive := by
  rw [work_eq here]
  cases taken : s.engine.take? with
  | none =>
    have empty := Engine.take?_none taken
    simp only [Worker.step, taken]
    exact ⟨seats_stepped attentive.seats here (by simp) (by simp),
      fun _ waits => absurd empty waits, attentive.staffed_stepped (by simp)⟩
  | some pair =>
    obtain ⟨record, later⟩ := pair
    obtain ⟨rest, -, left, bell⟩ := Engine.take?_bell taken
    have seats : later.bell.Seats s.Waits := by
      rcases bell with ⟨-, same⟩ | rung
      · exact same ▸ attentive.seats
      · exact rung ▸ attentive.seats.ring
    have unparked : Worker.receive later.registry record ≠ .parked ∧
        Worker.receive later.registry record ≠ .stopped := by
      simp only [Worker.receive]
      split <;> exact ⟨by simp, by simp⟩
    simp only [Worker.step, taken]
    refine ⟨seats_stepped seats here (by simp) unparked.1, fun _ waits => ?_,
      attentive.staffed_stepped unparked.2⟩
    rcases bell with ⟨last, -⟩ | rung
    · exact absurd (left.trans last) waits
    · have heard : later.bell.Rung := rung ▸ Bell.rung_ring _
      exact Or.inl heard

theorem work_emptyHanded (attentive : s.Attentive)
    (here : s.pool.workers[index]? = some .emptyHanded) : (s.work index).Attentive := by
  rw [work_eq here]
  have free : ¬ s.Waits (.worker index) := by
    rintro ⟨other, same, parked⟩
    rw [← Taker.worker.inj same, here] at parked
    cases parked
  have seats := attentive.seats.park free
  cases remembered : s.engine.bell.pending with
  | true =>
    simp only [Worker.step, Bell.park, remembered, if_true] at seats ⊢
    refine ⟨?_, fun _ _ => attended_of_alert here rfl, attentive.staffed_stepped (by simp)⟩
    exact seats_stepped (seats.congr fun t => by simp) here (by simp) (by simp)
  | false =>
    simp only [Worker.step, Bell.park, remembered, Bool.false_eq_true, if_false, if_true]
      at seats ⊢
    refine ⟨seats.congr fun t => ?_, fun taking waits => ?_, attentive.staffed_stepped (by simp)⟩
    · rw [waits_stepped here]
      constructor
      · rintro (waits | ⟨-, same⟩)
        · exact Or.inl ⟨waits, fun same => free (same ▸ waits)⟩
        · exact Or.inr ⟨rfl, same⟩
      · rintro (⟨waits, -⟩ | ⟨-, same⟩)
        · exact Or.inl waits
        · exact Or.inr ⟨trivial, same⟩
    · refine (attentive.attended taking waits).stepped here rfl fun rung => ?_
      rwa [Bell.Rung, remembered] at rung

/-- A record that failed and is appended again is looked for by the one who appends it. -/
theorem work_decided {record : Record} {job : Job} {result : Except JobError Unit}
    (attentive : s.Attentive)
    (here : s.pool.workers[index]? = some (.carrying ⟨record, job, .decided result⟩)) :
    (s.work index).Attentive := by
  rw [work_eq here]
  simp only [Worker.step, Delivery.result?]
  cases result with
  | ok =>
    simp only [Worker.settle]
    exact attentive.stepped here rfl (by simp) (by simp) (by simp) rfl (Or.inl rfl)
  | error err =>
    rcases Nat.lt_or_ge (countFailure record.fails).toNat
      (s.engine.queue.threshold record).toNat with under | spent
    · rw [Worker.settle_under err under]
      exact attentive.stepped here rfl (by simp) (by simp) (by simp) rfl (Or.inl rfl)
    · rw [Worker.settle_spent err spent]
      exact attentive.stepped here rfl (by simp) (by simp) (by simp) rfl (Or.inl rfl)

theorem work (attentive : s.Attentive) (index : Nat) : (s.work index).Attentive := by
  cases here : s.pool.workers[index]? with
  | none => simpa only [World.work, here] using attentive
  | some w =>
    cases w with
    | asking => exact attentive.work_asking here
    | emptyHanded => exact attentive.work_emptyHanded here
    | parked | stopped =>
      rw [work_asleep here rfl]
      exact attentive
    | carrying d =>
      cases result : d.result? with
      | some result =>
        obtain ⟨record, job, stage⟩ := d
        cases stage <;> cases result
        exact attentive.work_decided here
      | none =>
        rw [work_eq here]
        simp only [Worker.step, result]
        exact attentive.stepped here rfl (by simp) (by simp) (by simp) (d.step_beyond ..).bell
          (Or.inr (congrArg _ (d.step_beyond ..).queue))
    | stray record =>
      rw [work_eq here]
      simp only [Worker.step]
      exact attentive.stepped here rfl (by simp) (by simp) (by simp) (Engine.write_bell ..)
        (Or.inr (congrArg _ (Engine.write_queue ..)))
    | strayMarked record =>
      rw [work_eq here]
      simp only [Worker.step]
      exact attentive.stepped here rfl (by simp) (by simp) (by simp) rfl (Or.inl rfl)
    | ringing =>
      rw [work_eq here]
      simp only [Worker.step]
      exact ⟨seats_stepped attentive.seats.ring here (by simp) (by simp),
        fun _ _ => attended_of_alert here rfl, attentive.staffed_stepped (by simp)⟩

/-! ## Other moves -/

theorem ringing_called {c next : Caller} (here : s.callers[index]? = some c) (dull : c ≠ .ringing)
    {engine : Engine} {events : List Event} {other : Nat}
    (there : s.callers[other]? = some .ringing) :
    (s.called index next engine events).callers[other]? = some .ringing := by
  have differ : index ≠ other := by
    rintro rfl
    exact dull (Option.some.inj (here.symm.trans there))
  simp only [called, List.getElem?_set_ne differ, there]

/-- Of what the workers and the bell know nothing has changed. -/
theorem untouched {later : World} (attentive : s.Attentive)
    (workers : later.pool.workers = s.pool.workers) (bell : later.engine.bell = s.engine.bell)
    (pending : later.engine.queue.pending = s.engine.queue.pending)
    (closing : later.pool.closing = false → s.pool.closing = false)
    (callers : ∀ index : Nat, s.callers[index]? = some .ringing →
      ∃ other : Nat, later.callers[other]? = some .ringing) : later.Attentive := by
  refine ⟨?_, fun taking waits => ?_, fun taking => workers ▸ attentive.staffed (closing taking)⟩
  · rw [bell]
    exact attentive.seats.congr fun t => by simp only [Waits, workers]
  · rw [pending] at waits
    rcases attentive.attended (closing taking) waits with rung | alert | ⟨index, there⟩
    · exact Or.inl (bell ▸ rung)
    · exact Or.inr (Or.inl (workers ▸ alert))
    · exact Or.inr (Or.inr (callers index there))

theorem proceed (attentive : s.Attentive) (index : Nat) : (s.proceed index).Attentive := by
  cases here : s.callers[index]? with
  | none => simpa only [World.proceed, here] using attentive
  | some c =>
    rw [proceed_eq here]
    cases c with
    | appending record =>
      have rings : (s.called index .ringing (s.engine.append record)
          [.handed record]).callers[index]? = some .ringing := by
        obtain ⟨bound, -⟩ := List.getElem?_eq_some_iff.mp here
        simp only [called, List.getElem?_set_self bound]
      exact ⟨attentive.seats, fun _ _ => Or.inr (Or.inr ⟨index, rings⟩), attentive.staffed⟩
    | ringing =>
      exact ⟨attentive.seats.ring, fun _ _ => Or.inl (Bell.rung_ring _), attentive.staffed⟩
    | ordering id command =>
      exact attentive.untouched rfl (Engine.write_bell ..) (congrArg _ (Engine.write_queue ..))
        (fun taking => taking) fun other there => ⟨other, ringing_called here (by simp) there⟩
    | done =>
      exact attentive.untouched rfl rfl rfl id
        fun other there => ⟨other, ringing_called here (by simp) there⟩

theorem wake (attentive : s.Attentive) (index : Nat) : (s.wake index).Attentive := by
  simp only [World.wake]
  split
  · rename_i here
    split
    · rename_i woken
      rw [setWorker_eq]
      refine ⟨(attentive.seats.resume woken).congr fun t => ?_,
        fun _ _ => attended_of_alert here rfl, attentive.staffed_stepped (by simp)⟩
      rw [waits_stepped here]
      simp
    · exact attentive
  · exact attentive

/-- A pool that takes no records any more owes none of them a worker. -/
theorem retire (attentive : s.Attentive) (index : Nat) : (s.retire index).Attentive := by
  simp only [World.retire]
  split
  · rename_i closing
    have closed {P : Prop} (taking : s.pool.closing = false) : P := by
      rw [closing] at taking
      cases taking
    split
    · rename_i here
      rw [setWorker_eq]
      exact ⟨seats_stepped attentive.seats here (by simp) (by simp), closed, closed⟩
    · rename_i here
      rw [setWorker_eq]
      refine ⟨(attentive.seats.leave _).congr fun t => ?_, closed, closed⟩
      rw [waits_stepped here]
      simp
    · exact attentive
  · exact attentive

theorem joined (attentive : s.Attentive) (c : Caller) {engine : Engine} (events : List Event)
    (bell : engine.bell = s.engine.bell)
    (pending : engine.queue.pending = s.engine.queue.pending) :
    (s.joined c engine events).Attentive := by
  refine attentive.untouched rfl bell pending id fun index there => ⟨index, ?_⟩
  obtain ⟨bound, -⟩ := List.getElem?_eq_some_iff.mp there
  simpa only [World.joined, List.getElem?_append_left bound] using there

theorem submit (attentive : s.Attentive) (request : Request) (id : JobId) :
    (s.submit request id).Attentive := by
  simp only [World.submit]
  split
  · exact attentive
  · split
    · rename_i engine _ written
      have announced : (s.engine.setStatus id .pending).2 = engine := by rw [written]
      rw [← announced]
      exact attentive.joined _ _ (Engine.write_bell ..) (congrArg _ (Engine.write_queue ..))
    · exact attentive

theorem hand (attentive : s.Attentive) (record : Record) : (s.hand record).Attentive := by
  simp only [World.hand]
  split
  · exact attentive
  · have rings : (s.joined .ringing (s.engine.append record)
        [.created record, .handed record]).callers[s.callers.length]? = some .ringing := by
      simp [World.joined]
    exact ⟨attentive.seats, fun _ _ => Or.inr (Or.inr ⟨_, rings⟩), attentive.staffed⟩

theorem apply (attentive : s.Attentive) (move : Move) : (s.apply move).Attentive := by
  cases move with
  | work index => exact attentive.work index
  | wake index => exact attentive.wake index
  | retire index => exact attentive.retire index
  | submit request id => exact attentive.submit request id
  | hand record => exact attentive.hand record
  | proceed index => exact attentive.proceed index
  | order id command =>
    simp only [World.apply, World.order]
    split
    · exact attentive.joined _ _ rfl rfl
    · exact attentive
  | confirm c =>
    simp only [World.apply, World.confirm]
    split
    · exact attentive.untouched rfl (Engine.write_bell ..) (congrArg _ (Engine.write_queue ..)) id
        fun index there => ⟨index, there⟩
    · exact attentive
  | pass ms | abandon | drop | stock store =>
    exact attentive.untouched rfl rfl rfl id fun index there => ⟨index, there⟩
  | close =>
    exact attentive.untouched rfl rfl rfl (by rintro ⟨⟩) fun index there => ⟨index, there⟩

theorem run (attentive : s.Attentive) (moves : List Move) : (s.run moves).Attentive := by
  induction moves generalizing s with
  | nil => exact attentive
  | cons move rest ih => exact ih (attentive.apply move)

end Attentive

/-- A pool starts attentive when no one else is at the bell. -/
theorem Starts.attentive (starts : s.Starts) (parked : s.engine.bell.parked = [])
    (woken : s.engine.bell.woken = []) : s.Attentive := by
  have asking {index : Nat} {w : Worker} (here : s.pool.workers[index]? = some w) :
      w = .asking := by
    have mem := List.mem_of_getElem? here
    rw [starts.idle] at mem
    exact List.eq_of_mem_replicate mem
  refine ⟨⟨by simp [parked, woken], fun t => ?_, fun _ => parked⟩,
    fun _ waits => absurd starts.fresh.pending waits, fun _ mem => ?_⟩
  · simp only [parked, woken, List.append_nil, List.not_mem_nil, false_iff]
    rintro ⟨index, -, here⟩
    cases asking here
  · obtain ⟨index, here⟩ := List.mem_iff_getElem?.mp mem
    cases asking here

/-! ## When no one can go on -/

/-- No record is in hand or is being appended, and none waits that is still to be taken. -/
structure Rested (s : World) : Prop where
  hands : s.pool.workers.filterMap Worker.record? = []
  submitted : ∀ record, .appending record ∉ s.callers
  pending : s.pool.closing = false → s.engine.queue.pending = []

theorem not_due_asleep (stuck : ∀ move, ¬ s.Due move) (mem : w ∈ s.pool.workers) :
    w = .parked ∨ w = .stopped := by
  obtain ⟨index, here⟩ := List.mem_iff_getElem?.mp mem
  cases w with
  | parked => exact Or.inl rfl
  | stopped => exact Or.inr rfl
  | _ => exact absurd (Due.work here rfl) (stuck _)

namespace Attentive

/-- When no one can go on, nobody has a ring to answer. -/
theorem silent (attentive : s.Attentive) (stuck : ∀ move, ¬ s.Due move) :
    s.engine.bell.woken = [] := by
  rw [List.eq_nil_iff_forall_not_mem]
  intro t woken
  obtain ⟨index, rfl, here⟩ := (attentive.seats.seated t).mp (List.mem_append_right _ woken)
  exact stuck _ (Due.wake here woken)

theorem unattended (attentive : s.Attentive) (staff : s.pool.workers ≠ [])
    (taking : s.pool.closing = false) (stuck : ∀ move, ¬ s.Due move) : ¬ s.Attended := by
  rintro ((remembered | woken) | ⟨index, w, here, alert⟩ | ⟨index, here⟩)
  · obtain ⟨w, mem⟩ := List.exists_mem_of_ne_nil _ staff
    rcases not_due_asleep stuck mem with rfl | rfl
    · obtain ⟨index, here⟩ := List.mem_iff_getElem?.mp mem
      have seated := (attentive.seats.seated (.worker index)).mpr ⟨index, rfl, here⟩
      rw [attentive.seats.heard remembered, attentive.silent stuck] at seated
      cases seated
    · exact attentive.staffed taking mem
  · exact woken (attentive.silent stuck)
  · rcases not_due_asleep stuck (List.mem_of_getElem? here) with rfl | rfl <;> cases alert
  · exact stuck _ (Due.proceed here rfl)

theorem rested (attentive : s.Attentive) (staff : s.pool.workers ≠ [])
    (stuck : ∀ move, ¬ s.Due move) : s.Rested := by
  refine ⟨?_, fun record mem => ?_, fun taking => ?_⟩
  · refine List.filterMap_eq_nil_iff.mpr fun w mem => ?_
    rcases not_due_asleep stuck mem with rfl | rfl <;> rfl
  · obtain ⟨index, here⟩ := List.mem_iff_getElem?.mp mem
    exact stuck _ (Due.proceed here rfl)
  · by_contra waits
    exact attentive.unattended staff taking stuck (attentive.attended taking waits)

end Attentive

end World

end JobEngine
