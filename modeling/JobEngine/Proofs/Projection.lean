import JobEngine.Proofs.Places

/-!
# Each job sees its own life

Whatever the order of moves, what a run of the world does to one job is a
life of that job, and every job that was submitted has exactly one. A move is
a step in the life of at most one job; to all others it is nothing, except
that their settled entries may be evicted. The clock and the abandoning of
confirmations are common to all.
-/
namespace JobEngine

namespace World

/-- The world, as the job of a record sees it. -/
def life (s : World) (token : Token) : Life where
  record := token.1
  station := token.2
  entry := s.engine.tracker.find? token.1.id
  waiting := s.pool.letters.waiting.filter (·.id = token.1.id)
  story := s.history.filter (·.job = token.1.id)
  clock := s.engine.clock

/-- What no move changes. -/
structure Kept (s later : World) : Prop where
  registry : later.engine.registry = s.engine.registry
  thresholds : later.engine.queue.thresholds = s.engine.queue.thresholds
  outage : later.engine.trackerOutage = s.engine.trackerOutage
  settings : later.pool.settings = s.pool.settings
  grace : later.pool.letters.grace = s.pool.letters.grace
  staff : later.pool.workers.length = s.pool.workers.length

theorem Kept.refl (s : World) : Kept s s := ⟨rfl, rfl, rfl, rfl, rfl, rfl⟩

theorem Kept.trans {r s t : World} (first : Kept r s) (second : Kept s t) : Kept r t :=
  ⟨second.registry.trans first.registry, second.thresholds.trans first.thresholds,
    second.outage.trans first.outage, second.settings.trans first.settings,
    second.grace.trans first.grace, second.staff.trans first.staff⟩

/-- What others see of a step in the life of one job. -/
structure Aside (id : JobId) (s later : World) : Prop where
  clock : later.engine.clock = s.engine.clock
  listed : s.engine.tracker.Listed → later.engine.tracker.Listed
  entry : s.engine.tracker.Listed → ∀ other ≠ id,
    later.engine.tracker.find? other = s.engine.tracker.find? other ∨
      later.engine.tracker.find? other = none ∧
        ∃ stats, s.engine.tracker.find? other = some stats ∧ stats.isSettled = true
  waiting : ∀ other ≠ id, later.pool.letters.waiting.filter (·.id = other) =
    s.pool.letters.waiting.filter (·.id = other)
  story : ∀ other ≠ id, later.history.filter (·.job = other) = s.history.filter (·.job = other)

/-- Nothing is known of the job. -/
structure Blank (s : World) (id : JobId) : Prop where
  entry : s.engine.tracker.find? id = none
  waiting : s.pool.letters.waiting.filter (·.id = id) = []
  story : s.history.filter (·.job = id) = []

end World

open World

/-- Every job leads a life. -/
structure Tracked (origin s : World) : Prop where
  kept : Kept origin s
  online : s.engine.trackerOutage = []
  listed : s.engine.tracker.Listed
  distinct : s.issued.Nodup
  jobs : s.tokens.map (·.1.id) = s.issued
  lived : ∀ token ∈ s.tokens, Lived origin (s.life token)
  blank : ∀ id ∉ s.issued, s.Blank id

namespace Tracked

variable {origin s later : World} {id : JobId}

theorem mem_issued (tracked : Tracked origin s) {token : Token} (mem : token ∈ s.tokens) :
    token.1.id ∈ s.issued := by
  have mapped := Multiset.mem_map_of_mem (·.1.id) mem
  rw [tracked.jobs] at mapped
  exact Multiset.mem_coe.mp mapped

theorem exists_token (tracked : Tracked origin s) (known : id ∈ s.issued) :
    ∃ token ∈ s.tokens, token.1.id = id := by
  have mapped : id ∈ s.tokens.map (·.1.id) := by
    rw [tracked.jobs]
    exact Multiset.mem_coe.mpr known
  exact Multiset.mem_map.mp mapped

/-- Two places for one job there are not. -/
theorem apart (tracked : Tracked origin s) {token other : Token} {rest : Multiset Token}
    (before : s.tokens = token ::ₘ rest) (mem : other ∈ rest) : other.1.id ≠ token.1.id := by
  have nodup : (s.tokens.map (·.1.id)).Nodup := by
    rw [tracked.jobs]
    exact Multiset.coe_nodup.mpr tracked.distinct
  rw [before, Multiset.map_cons, Multiset.nodup_cons] at nodup
  intro same
  exact nodup.1 (same ▸ Multiset.mem_map_of_mem (·.1.id) mem)

/-- The record of a job is in one place. -/
theorem token_unique (tracked : Tracked origin s) {token other : Token} (there : token ∈ s.tokens)
    (also : other ∈ s.tokens) (same : token.1.id = other.1.id) : token = other := by
  have nodup : (s.tokens.map (·.1.id)).Nodup := by
    rw [tracked.jobs]
    exact Multiset.coe_nodup.mpr tracked.distinct
  exact Multiset.inj_on_of_nodup_map nodup token there other also same

/-- To the jobs aside life goes on. -/
theorem goes_on (tracked : Tracked origin s) (aside : Aside id s later) {token : Token}
    (mem : token ∈ s.tokens) (other : token.1.id ≠ id) : Lived origin (later.life token) := by
  have lived := tracked.lived token mem
  have same : later.life token =
      { s.life token with entry := later.engine.tracker.find? token.1.id } := by
    simp only [life, aside.clock, aside.waiting _ other, aside.story _ other]
  rw [same]
  rcases aside.entry tracked.listed _ other with entry | ⟨gone, stats, entry, settled⟩
  · rw [entry]
    exact lived
  · rw [gone]
    exact lived.evicted entry settled

theorem stays_blank (tracked : Tracked origin s) (aside : Aside id s later) {unknown : JobId}
    (new : unknown ∉ s.issued) (other : unknown ≠ id) : later.Blank unknown := by
  obtain ⟨entry, waiting, story⟩ := tracked.blank unknown new
  refine ⟨?_, by rw [aside.waiting _ other, waiting], by rw [aside.story _ other, story]⟩
  rcases aside.entry tracked.listed _ other with same | ⟨gone, -⟩
  · rw [same, entry]
  · exact gone

/-- One step in the life of one job. -/
theorem shift (tracked : Tracked origin s) (kept : Kept s later) (aside : Aside id s later)
    (issued : later.issued = s.issued) {old new : Token} {rest : Multiset Token}
    (before : s.tokens = old ::ₘ rest) (after : later.tokens = new ::ₘ rest)
    (own : old.1.id = id) (still : new.1.id = id)
    (goes : Lived origin (s.life old) → Lived origin (later.life new)) :
    Tracked origin later := by
  have mem : old ∈ s.tokens := before ▸ Multiset.mem_cons_self old rest
  refine ⟨tracked.kept.trans kept, kept.outage.trans tracked.online, aside.listed tracked.listed,
    issued ▸ tracked.distinct, ?_, ?_, ?_⟩
  · rw [issued, ← tracked.jobs, before, after, Multiset.map_cons, Multiset.map_cons, own, still]
  · intro token there
    rw [after] at there
    rcases Multiset.mem_cons.mp there with rfl | there
    · exact goes (tracked.lived old mem)
    · refine tracked.goes_on aside (before ▸ Multiset.mem_cons_of_mem there) ?_
      exact own ▸ tracked.apart before there
  · intro unknown new
    rw [issued] at new
    refine tracked.stays_blank aside new ?_
    rintro rfl
    exact new (own ▸ tracked.mem_issued mem)

/-- A job enters. -/
theorem enter (tracked : Tracked origin s) (token : Token) (kept : Kept s later)
    (aside : Aside id s later) (fresh : id ∉ s.issued) (issued : later.issued = s.issued ++ [id])
    (after : later.tokens = token ::ₘ s.tokens) (own : token.1.id = id)
    (born : Lived origin (later.life token)) : Tracked origin later := by
  refine ⟨tracked.kept.trans kept, kept.outage.trans tracked.online, aside.listed tracked.listed,
    ?_, ?_, ?_, ?_⟩
  · rw [issued]
    exact List.nodup_append.mpr ⟨tracked.distinct, List.nodup_singleton id, fun a mem b same => by
      rintro rfl
      exact fresh (List.mem_singleton.mp same ▸ mem)⟩
  · rw [after, Multiset.map_cons, tracked.jobs, own, issued, ← Multiset.coe_add, add_comm]
    rfl
  · intro other there
    rw [after] at there
    rcases Multiset.mem_cons.mp there with rfl | there
    · exact born
    · refine tracked.goes_on aside there ?_
      rintro same
      exact fresh (same ▸ tracked.mem_issued there)
  · intro unknown new
    rw [issued, List.mem_append, List.mem_singleton, not_or] at new
    exact tracked.stays_blank aside new.1 new.2

/-- A move that no job notices. -/
theorem unnoticed (tracked : Tracked origin s) (kept : Kept s later)
    (tracker : later.engine.tracker = s.engine.tracker)
    (clock : later.engine.clock = s.engine.clock)
    (waiting : later.pool.letters.waiting = s.pool.letters.waiting)
    (history : later.history = s.history) (tokens : later.tokens = s.tokens) :
    Tracked origin later := by
  have issued : later.issued = s.issued := by rw [World.issued, history, World.issued]
  have same (token : Token) : later.life token = s.life token := by
    simp only [life, tracker, waiting, history, clock]
  refine ⟨tracked.kept.trans kept, kept.outage.trans tracked.online, tracker ▸ tracked.listed,
    issued ▸ tracked.distinct, ?_, ?_, ?_⟩
  · rw [tokens, issued, tracked.jobs]
  · intro token mem
    rw [same]
    exact tracked.lived token (tokens ▸ mem)
  · intro unknown new
    obtain ⟨entry, waits, story⟩ := tracked.blank unknown (issued ▸ new)
    exact ⟨tracker ▸ entry, waiting ▸ waits, history ▸ story⟩

end Tracked

/-! ## Calls to the tracker -/

namespace Engine

/-- What a call for one job leaves of the engine. -/
structure Spares (id : JobId) (e later : Engine) : Prop where
  registry : later.registry = e.registry
  clock : later.clock = e.clock
  thresholds : later.queue.thresholds = e.queue.thresholds
  outage : later.trackerOutage = e.trackerOutage
  listed : e.tracker.Listed → later.tracker.Listed
  entry : e.tracker.Listed → ∀ other ≠ id,
    later.tracker.find? other = e.tracker.find? other ∨
      later.tracker.find? other = none ∧
        ∃ stats, e.tracker.find? other = some stats ∧ stats.isSettled = true

theorem Spares.of_tracker {e later : Engine} {id : JobId} (registry : later.registry = e.registry)
    (clock : later.clock = e.clock) (thresholds : later.queue.thresholds = e.queue.thresholds)
    (outage : later.trackerOutage = e.trackerOutage) (tracker : later.tracker = e.tracker) :
    Spares id e later :=
  ⟨registry, clock, thresholds, outage, fun listed => tracker ▸ listed,
    fun _ _ _ => Or.inl (by rw [tracker])⟩

theorem spares_write {e : Engine} {id : JobId} (call : TrackerCall)
    {change : Tracker → Except QueueError Tracker}
    (listed : ∀ t, change e.tracker = .ok t → e.tracker.Listed → t.Listed)
    (entry : ∀ t, change e.tracker = .ok t → e.tracker.Listed → ∀ other ≠ id,
      t.find? other = e.tracker.find? other ∨ t.find? other = none ∧
        ∃ stats, e.tracker.find? other = some stats ∧ stats.isSettled = true) :
    Spares id e (e.write call change).2 := by
  simp only [write]
  split
  · exact .of_tracker rfl rfl rfl rfl rfl
  · split
    · rename_i t changed
      exact ⟨rfl, rfl, rfl, rfl, listed t changed, entry t changed⟩
    · exact .of_tracker rfl rfl rfl rfl rfl

theorem spares_setStatus (e : Engine) (id : JobId) (status : Status) :
    Spares id e (e.setStatus id status).2 := by
  apply spares_write
  · rintro t changed listed
    obtain rfl := Except.ok.inj changed
    exact Tracker.listed_setStatus listed id status e.now
  · rintro t changed listed other differ
    obtain rfl := Except.ok.inj changed
    exact Tracker.find?_setStatus_other listed differ status e.now

theorem spares_update (e : Engine) (id : JobId) (call : TrackerCall) {f : Stats → Stats}
    (keeps : ∀ s, (f s).jobId = s.jobId) :
    Spares id e (e.write call fun t => t.update id f).2 := by
  apply spares_write
  · intro t changed listed
    exact Tracker.listed_update keeps changed listed
  · intro t changed _ other differ
    exact Or.inl (by rw [Tracker.find?_update keeps changed, if_neg differ])

section Online

variable {e : Engine} (online : e.trackerOutage = [])

include online

theorem setStatus_online (id : JobId) (status : Status) :
    e.setStatus id status =
      (.ok (), { e with tracker := e.tracker.setStatus id status e.now }) := by
  simp [setStatus, write, online]

theorem find?_setStatus (listed : e.tracker.Listed) (id : JobId) (status : Status) :
    (e.setStatus id status).2.tracker.find? id =
      some (((e.tracker.find? id).getD (.first id e.now)).mark status e.now) := by
  rw [setStatus_online online]
  exact Tracker.find?_setStatus_self listed id status e.now

theorem find?_write_update (id : JobId) (call : TrackerCall) {f : Stats → Stats}
    (keeps : ∀ s, (f s).jobId = s.jobId) :
    (e.write call fun t => t.update id f).2.tracker.find? id = (e.tracker.find? id).map f := by
  simp only [write]
  rw [if_neg (by simp [online])]
  split
  · rename_i t changed
    rw [Tracker.find?_update keeps changed, if_pos rfl]
  · rename_i err refused
    simp only [Tracker.update] at refused
    split at refused
    · cases refused
    · rename_i unknown
      rw [unknown]
      rfl

/-- A command is accepted exactly for a job that is known. -/
theorem commandEvents_known {id : JobId} {stats : Stats}
    (known : e.tracker.find? id = some stats) (command : Command) :
    e.commandEvents id command = [.commanded id command] := by
  simp [commandEvents, sendCommand, write, online, Tracker.sendCommand, Tracker.update, known]

theorem commandEvents_unknown {id : JobId} (unknown : e.tracker.find? id = none)
    (command : Command) :
    e.commandEvents id command = [] ∧ (e.sendCommand id command).2 = e := by
  simp [commandEvents, sendCommand, write, online, Tracker.sendCommand, Tracker.update, unknown]

end Online

end Engine

/-! ## Steps for one job -/

namespace World

variable {s later : World} {id : JobId}

theorem Kept.of_spares (spares : s.engine.Spares id later.engine)
    (settings : later.pool.settings = s.pool.settings)
    (staff : later.pool.workers.length = s.pool.workers.length)
    (grace : later.pool.letters.grace = s.pool.letters.grace) : Kept s later :=
  ⟨spares.registry, spares.thresholds, spares.outage, settings, grace, staff⟩

theorem Aside.of_spares {events : List Event} (spares : s.engine.Spares id later.engine)
    (others : ∀ other ≠ id, later.pool.letters.waiting.filter (·.id = other) =
      s.pool.letters.waiting.filter (·.id = other))
    (history : later.history = s.history ++ events) (about : ∀ event ∈ events, event.job = id) :
    Aside id s later := by
  refine ⟨spares.clock, spares.listed, spares.entry, others, fun other differ => ?_⟩
  have silent : events.filter (·.job = other) = [] := by
    refine List.filter_eq_nil_iff.mpr fun event mem => ?_
    simpa [about event mem] using Ne.symm differ
  rw [history, List.filter_append, silent, List.append_nil]

/-- The life of the job, told from before. -/
theorem life_eq (s later : World) (token : Token) {events : List Event}
    (clock : later.engine.clock = s.engine.clock)
    (history : later.history = s.history ++ events) (about : ∀ event ∈ events, event.job = id)
    (own : token.1.id = id) {entry : Option Stats}
    (known : later.engine.tracker.find? id = entry) {waiting : List Confirmation}
    (waits : later.pool.letters.waiting.filter (·.id = id) = waiting) :
    later.life token = ⟨token.1, token.2, entry, waiting,
      s.history.filter (·.job = id) ++ events, s.engine.clock⟩ := by
  have told : events.filter (·.job = id) = events :=
    List.filter_eq_self.mpr fun event mem => by simpa using about event mem
  simp only [life, clock, history, own, known, waits, List.filter_append, told]

end World

namespace Tracked

variable {origin s : World} {id : JobId} {index : Nat} {engine : Engine} {events : List Event}
  {entry : Option Stats} {waiting : List Confirmation}

/-- A step that concerns one job and tells of it alone. -/
theorem step {later : World} (tracked : Tracked origin s) (old new : Token)
    (common : Multiset Token)
    (spares : s.engine.Spares id later.engine) (settings : later.pool.settings = s.pool.settings)
    (staff : later.pool.workers.length = s.pool.workers.length)
    (grace : later.pool.letters.grace = s.pool.letters.grace)
    (others : ∀ other ≠ id, later.pool.letters.waiting.filter (·.id = other) =
      s.pool.letters.waiting.filter (·.id = other))
    (history : later.history = s.history ++ events)
    (about : ∀ event ∈ events, event.job = id ∧ event.created? = none)
    (before : s.tokens = old ::ₘ common) (after : later.tokens = new ::ₘ common)
    (own : old.1.id = id) (still : new.1.id = id)
    (known : later.engine.tracker.find? id = entry)
    (waits : later.pool.letters.waiting.filter (·.id = id) = waiting)
    (goes : Lived origin (s.life old) → Lived origin { s.life old with
      record := new.1, station := new.2, entry, waiting
      story := (s.life old).story ++ events }) :
    Tracked origin later := by
  have kept := Kept.of_spares spares settings staff grace
  have aside := Aside.of_spares spares others history fun event mem => (about event mem).1
  have issued : later.issued = s.issued := by
    have none : events.filterMap Event.created? = [] :=
      List.filterMap_eq_nil_iff.mpr fun event mem => (about event mem).2
    rw [World.issued, history, List.filterMap_append, none, List.append_nil, World.issued]
  have life := life_eq s later new spares.clock history (fun event mem => (about event mem).1) still
    known waits
  subst own
  refine tracked.shift kept aside issued before after rfl still fun lived => ?_
  rw [life]
  exact goes lived

/-- A step in the life of a job whose record stays where it is. -/
theorem touched {later : World} (tracked : Tracked origin s) (issued : id ∈ s.issued)
    (spares : s.engine.Spares id later.engine) (settings : later.pool.settings = s.pool.settings)
    (staff : later.pool.workers.length = s.pool.workers.length)
    (grace : later.pool.letters.grace = s.pool.letters.grace)
    (others : ∀ other ≠ id, later.pool.letters.waiting.filter (·.id = other) =
      s.pool.letters.waiting.filter (·.id = other))
    (history : later.history = s.history ++ events)
    (about : ∀ event ∈ events, event.job = id ∧ event.created? = none)
    (tokens : later.tokens = s.tokens) (known : later.engine.tracker.find? id = entry)
    (waits : later.pool.letters.waiting.filter (·.id = id) = waiting)
    (goes : ∀ token, token.1.id = id → Lived origin (s.life token) →
      Lived origin { s.life token with entry, waiting, story := (s.life token).story ++ events }) :
    Tracked origin later := by
  obtain ⟨token, mem, own⟩ := tracked.exists_token issued
  obtain ⟨rest, before⟩ := Multiset.exists_cons_of_mem mem
  exact tracked.step token token rest spares settings staff grace others history about before
    (tokens.trans before) own own known waits (goes token own)

/-- A worker takes a step in the life of one job. -/
theorem stepped {w next : Worker} {letters : DeadLetters} (tracked : Tracked origin s)
    (old new : Token) (common : Multiset Token)
    (here : s.pool.workers[index]? = some w) (spares : s.engine.Spares id engine)
    (grace : letters.grace = s.pool.letters.grace)
    (others : ∀ other ≠ id, letters.waiting.filter (·.id = other) =
      s.pool.letters.waiting.filter (·.id = other))
    (about : ∀ event ∈ events, event.job = id ∧ event.created? = none)
    (before : ↑w.token?.toList + s.engine.queue.tokens = old ::ₘ common)
    (after : ↑next.token?.toList + (↑(events.filterMap Event.token?) + engine.queue.tokens) =
      new ::ₘ common)
    (own : old.1.id = id) (still : new.1.id = id) (known : engine.tracker.find? id = entry)
    (waits : letters.waiting.filter (·.id = id) = waiting)
    (goes : Lived origin (s.life old) → Lived origin { s.life old with
      record := new.1, station := new.2, entry, waiting
      story := (s.life old).story ++ events }) :
    Tracked origin (s.stepped index next engine letters events) := by
  obtain ⟨rest, first, last⟩ := tokens_stepped here
  refine tracked.step old new (common + rest) spares rfl (List.length_set ..) grace others rfl
    about ?_ ?_ own still known waits goes
  · rw [first, ← add_assoc, before, Multiset.cons_add]
  · rw [last, ← Multiset.cons_add, ← after]
    abel

/-- A worker takes a step that no job notices. -/
theorem stepped_unnoticed {w next : Worker} (tracked : Tracked origin s)
    (here : s.pool.workers[index]? = some w) (same : next.token? = w.token?)
    (registry : engine.registry = s.engine.registry) (clock : engine.clock = s.engine.clock)
    (queue : engine.queue = s.engine.queue) (outage : engine.trackerOutage = s.engine.trackerOutage)
    (tracker : engine.tracker = s.engine.tracker) :
    Tracked origin (s.stepped index next engine s.pool.letters []) := by
  obtain ⟨rest, first, last⟩ := tokens_stepped here
  refine tracked.unnoticed ⟨registry, by rw [← queue]; rfl, outage, rfl, rfl, List.length_set ..⟩
    tracker clock rfl (List.append_nil _) ?_
  rw [first, last, same, queue]
  simp

end Tracked

end JobEngine
