import JobEngine.Proofs.QueueLedger
import Mathlib.Data.Nat.Find

/-!
# The index of the dead

Beside the archive of the dead stands an index of their identifiers. A record
that the archive forgets takes its identifier out of the index, and an
identifier that comes back with another record is entered once more. So the
index knows an identifier as long as one of its records was buried after the
last one was forgotten. Nothing forbids to bury an identifier twice, and then
the index may miss a record that the archive still shows.
-/
namespace JobEngine.Queue

/-! ## What one more record pushes out -/

/-- All but the newest `limit` items. -/
def forgotten {α : Type} (limit : Nat) (items : List α) : List α :=
  items.take (items.length - limit)

theorem map_forgotten {α β : Type} (f : α → β) (limit : Nat) (items : List α) :
    (forgotten limit items).map f = forgotten limit (items.map f) := by
  rw [forgotten, forgotten, List.map_take, List.length_map]

theorem newest_concat {α : Type} (limit : Nat) (items : List α) (item : α) :
    newest limit items ++ [item] = (items ++ [item]).drop (items.length - limit) := by
  rw [newest, List.drop_append_of_le_length (Nat.sub_le ..)]

/-- One more item than are kept lets the one go that came `limit` places before it. -/
theorem mem_forgotten {α : Type} (limit : Nat) (items : List α) (item gone : α) :
    gone ∈ forgotten limit (newest limit items ++ [item]) ↔
      limit ≤ items.length ∧ (items ++ [item])[items.length - limit]? = some gone := by
  rw [newest_concat, forgotten, List.length_drop, List.length_append, List.length_singleton]
  by_cases full : limit ≤ items.length
  · have one : items.length + 1 - (items.length - limit) - limit = 1 := by omega
    rw [one, List.take_one, List.head?_drop, Option.mem_toList]
    constructor
    · intro found
      exact ⟨full, found⟩
    · rintro ⟨-, found⟩
      exact found
  · have none : items.length + 1 - (items.length - limit) - limit = 0 := by omega
    rw [none, List.take_zero]
    constructor
    · intro found
      cases found
    · rintro ⟨reached, -⟩
      exact absurd reached full

/-! ## Which identifiers are listed -/

/-- A record of the identifier was buried after the last one was forgotten. The one at `place` is
forgotten when the one at `place + limit` comes. -/
def Listed (limit : Nat) (ids : List JobId) (id : JobId) : Prop :=
  ∃ latest, ids[latest]? = some id ∧
    ∀ place, ids[place]? = some id → place + limit < ids.length → place + limit < latest

theorem listed_concat (limit : Nat) (ids : List JobId) (new id : JobId) :
    Listed limit (ids ++ [new]) id ↔
      (id = new ∨ Listed limit ids id) ∧
        ¬(limit ≤ ids.length ∧ (ids ++ [new])[ids.length - limit]? = some id) := by
  have length : (ids ++ [new]).length = ids.length + 1 := List.length_append
  have early (place : Nat) (old : place < ids.length) : (ids ++ [new])[place]? = ids[place]? :=
    List.getElem?_append_left old
  constructor
  · rintro ⟨latest, found, after⟩
    have reached : latest < ids.length + 1 := by
      rw [← length]
      exact (List.getElem?_eq_some_iff.mp found).1
    constructor
    · by_cases old : latest < ids.length
      · refine .inr ⟨latest, early latest old ▸ found, fun place known gone => ?_⟩
        rw [← early place (by omega)] at known
        exact after place known (by omega)
      · have last : latest = ids.length := by omega
        rw [last, List.getElem?_concat_length, Option.some_inj] at found
        exact .inl found.symm
    · rintro ⟨full, gone⟩
      have later := after (ids.length - limit) gone (by omega)
      omega
  · rintro ⟨known, stays⟩
    -- the record that goes now is not one of the identifier
    have before (place : Nat) (found : (ids ++ [new])[place]? = some id)
        (gone : place + limit < (ids ++ [new]).length) : place + limit < ids.length := by
      by_contra reached
      have now : place = ids.length - limit := by omega
      rw [now] at found
      exact stays ⟨by omega, found⟩
    rcases known with rfl | ⟨latest, found, after⟩
    · exact ⟨ids.length, List.getElem?_concat_length, before⟩
    · have old : latest < ids.length := (List.getElem?_eq_some_iff.mp found).1
      refine ⟨latest, (early latest old).trans found, fun place known gone => ?_⟩
      have under := before place known gone
      exact after place (early place (by omega) ▸ known) under

/-- Whenever a record of the identifier was forgotten, another was buried later. -/
theorem listed_iff (limit : Nat) (ids : List JobId) (id : JobId) :
    Listed limit ids id ↔
      id ∈ newest limit ids ∧ ∀ place, ids[place]? = some id → place + limit < ids.length →
        ∃ later, place + limit < later ∧ ids[later]? = some id := by
  constructor
  · rintro ⟨latest, found, after⟩
    constructor
    · have kept : ids.length - limit ≤ latest := by
        by_contra gone
        have later := after latest found (by omega)
        omega
      rw [newest, List.mem_iff_getElem?]
      refine ⟨latest - (ids.length - limit), ?_⟩
      rwa [List.getElem?_drop, Nat.add_sub_cancel' kept]
    · intro place known gone
      exact ⟨latest, after place known gone, found⟩
  · rintro ⟨kept, renewed⟩
    obtain ⟨place, found⟩ := List.getElem?_of_mem (List.mem_of_mem_drop kept)
    have within (place : Nat) (found : ids[place]? = some id) : place ≤ ids.length :=
      (List.getElem?_eq_some_iff.mp found).1.le
    let latest := Nat.findGreatest (fun place => ids[place]? = some id) ids.length
    have last (place : Nat) (found : ids[place]? = some id) : place ≤ latest :=
      Nat.le_findGreatest (within place found) found
    have known : ids[latest]? = some id :=
      Nat.findGreatest_spec (P := fun place => ids[place]? = some id) (within place found) found
    refine ⟨latest, known, fun place found gone => ?_⟩
    obtain ⟨later, after, again⟩ := renewed place found gone
    exact Nat.lt_of_lt_of_le after (last later again)

theorem listed_of_nodup {limit : Nat} {ids : List JobId} (once : ids.Nodup) (id : JobId) :
    Listed limit ids id ↔ id ∈ newest limit ids := by
  rw [listed_iff]
  constructor
  · rintro ⟨kept, -⟩
    exact kept
  · intro kept
    refine ⟨kept, fun place known gone => ?_⟩
    rw [newest, List.mem_iff_getElem?] at kept
    obtain ⟨later, found⟩ := kept
    rw [List.getElem?_drop] at found
    have same : place = ids.length - limit + later :=
      (List.getElem?_inj (by omega) once).mp (known.trans found.symm)
    omega

/-! ## The index of a queue -/

theorem mem_deadIds_bury (q : Queue) (dead : DeadRecord) (id : JobId) :
    id ∈ (q.bury dead.record dead.lastError).deadIds ↔
      (id = dead.record.id ∨ id ∈ q.deadIds) ∧
        id ∉ forgotten deadLimit (q.dead.map (·.record.id) ++ [dead.record.id]) := by
  have entered : id ∈ (if dead.record.id ∈ q.deadIds then q.deadIds
      else dead.record.id :: q.deadIds) ↔ id = dead.record.id ∨ id ∈ q.deadIds := by
    split
    · constructor
      · exact .inr
      · rintro (rfl | known)
        · assumption
        · exact known
    · exact List.mem_cons
  have shown : q.dead.map (·.record.id) ++ [dead.record.id] =
      (q.dead ++ [dead]).map (·.record.id) := by
    rw [List.map_append, List.map_singleton]
  rw [shown, ← map_forgotten, forgotten]
  simp only [bury, List.mem_filter, entered, List.mem_map, Bool.not_eq_true', List.any_eq_false,
    decide_eq_true_eq, not_exists, not_and]

/-- A call buries one record, or it leaves the index as it is. -/
theorem call_cases (q : Queue) (c : Call) :
    (∃ answer later, q.call c = (answer, later) ∧ Exchange.buried? (c, answer) = none ∧
      later.deadIds = q.deadIds) ∨
    ∃ answer dead, q.call c = (answer, q.bury dead.record dead.lastError) ∧
      Exchange.buried? (c, answer) = some dead := by
  cases c with
  | push record => exact .inl ⟨.done, q.append record, rfl, rfl, rfl⟩
  | dequeue =>
    refine .inl ?_
    cases pending : q.pending with
    | nil => exact ⟨.served none, q, by simp only [call, take?, pending], rfl, rfl⟩
    | cons first rest =>
      exact ⟨.served (some first), { q with pending := rest },
        by simp only [call, take?, pending], rfl, rfl⟩
  | complete record => exact .inl ⟨.done, q.complete record, rfl, rfl, by simp only [Queue.complete]⟩
  | fail record e =>
    have counted := Exchange.counted_eq record
    rcases Nat.lt_or_ge (countFailure record.fails).toNat (q.threshold record).toNat
      with under | spent
    · refine .inl ⟨.failed .requeued, q.append (Exchange.counted record), ?_, rfl, rfl⟩
      simp only [call, fail_of_lt e under, counted]
    · refine .inr ⟨.failed .dead, ⟨Exchange.counted record, some e.message⟩, ?_, rfl⟩
      simp only [call, fail_of_le e spent, counted]
  | deadLetter record => exact .inr ⟨.done, ⟨record, none⟩, rfl, rfl⟩
  | setThreshold jobType maxFails =>
    exact .inl ⟨.done, q.setThreshold jobType maxFails, rfl, rfl, rfl⟩

namespace Ledger

variable {l : Ledger}

/-- The identifiers of all records that were buried, in this order. -/
def buriedIds (l : Ledger) : List JobId := l.buried.map (·.record.id)

def Indexed (l : Ledger) : Prop :=
  ∀ id, id ∈ l.queue.deadIds ↔ Listed deadLimit l.buriedIds id

theorem buriedIds_enter {c : Call} {answer : Answer} {later : Queue}
    (called : l.queue.call c = (answer, later)) :
    (l.enter c).buriedIds =
      l.buriedIds ++ ((Exchange.buried? (c, answer)).map (·.record.id)).toList := by
  rw [buriedIds, buried, filterMap_enter called, List.map_append, buriedIds, buried]
  cases Exchange.buried? (c, answer) <;> rfl

theorem Indexed.enter (indexed : l.Indexed) (kept : l.Kept) (c : Call) : (l.enter c).Indexed := by
  intro id
  rcases call_cases l.queue c with ⟨answer, later, called, none, same⟩ | ⟨answer, dead, called, some⟩
  · rw [buriedIds_enter called, none, Option.map_none, Option.toList_none, List.append_nil,
      enter_eq called, same]
    exact indexed id
  · rw [buriedIds_enter called, some, Option.map_some, Option.toList_some, listed_concat,
      ← indexed id, enter_eq called, mem_deadIds_bury, kept.dead, map_newest, mem_forgotten,
      buriedIds]

theorem Indexed.of (calls : List Call) : (Ledger.of calls).Indexed := by
  have both : (Ledger.of calls).Kept ∧ (Ledger.of calls).Indexed := by
    apply of_induction (P := fun l => l.Kept ∧ l.Indexed)
    · refine ⟨.of [], fun id => ?_⟩
      constructor
      · intro known
        cases known
      · rintro ⟨latest, found, -⟩
        cases found
    · rintro l c ⟨kept, indexed⟩
      exact ⟨kept.enter c, indexed.enter kept c⟩
  exact both.2

theorem mem_newest_buriedIds (kept : l.Kept) (id : JobId) :
    id ∈ newest deadLimit l.buriedIds ↔ ∃ dead ∈ l.queue.dead, dead.record.id = id := by
  rw [kept.dead, buriedIds, ← map_newest, List.mem_map]

theorem isDead_iff (indexed : l.Indexed) (id : JobId) :
    l.queue.isDead id = true ↔ Listed deadLimit l.buriedIds id := by
  rw [isDead, decide_eq_true_iff, indexed id]

end Ledger

/-- The index knows just those identifiers of the archive of which a record was buried after the
last one was forgotten: the one at `place` is forgotten when the one at `place + 1000` comes. -/
theorem index_exact (calls : List Call) (id : JobId) :
    let l := Ledger.of calls
    l.queue.isDead id = true ↔
      (∃ dead ∈ l.queue.dead, dead.record.id = id) ∧
        ∀ place, l.buriedIds[place]? = some id → place + 1000 < l.buriedIds.length →
          ∃ later, place + 1000 < later ∧ l.buriedIds[later]? = some id := by
  intro l
  rw [Ledger.isDead_iff (.of calls), listed_iff, Ledger.mem_newest_buriedIds (.of calls)]
  rfl

/-- The index agrees with the archive as long as no identifier is buried twice. -/
theorem index_agrees {calls : List Call} (once : (Ledger.of calls).buriedIds.Nodup) (id : JobId) :
    let l := Ledger.of calls
    l.queue.isDead id = true ↔ ∃ dead ∈ l.queue.dead, dead.record.id = id := by
  intro l
  rw [Ledger.isDead_iff (.of calls), listed_of_nodup once, Ledger.mem_newest_buriedIds (.of calls)]

theorem buriedIds_deadLetters (records : List Record) :
    (Ledger.of (records.map .deadLetter)).buriedIds = records.map (·.id) := by
  have grows (records : List Record) (l : Ledger) :
      ((records.map Call.deadLetter).foldl .enter l).buriedIds =
        l.buriedIds ++ records.map (·.id) := by
    induction records generalizing l with
    | nil => exact (List.append_nil _).symm
    | cons record rest ih =>
      have called : l.queue.call (.deadLetter record) = (.done, l.queue.bury record none) := rfl
      rw [List.map_cons, List.foldl_cons, ih, Ledger.buriedIds_enter called, List.append_assoc]
      rfl
  exact grows records {}

/-- The first of two records is forgotten and takes away the identifier that the second has, too. -/
theorem index_forgets :
    let record (n : Nat) : Record := ⟨.ofNat n, "broken", [], 0, none, ⟨0, 0⟩⟩
    let records := record 1 :: record 1 :: List.replicate 999 (record 2)
    let q := (Ledger.of (records.map .deadLetter)).queue
    (∃ dead ∈ q.dead, dead.record.id = .ofNat 1) ∧ q.isDead (.ofNat 1) = false := by
  intro record records q
  have ids : (Ledger.of (records.map .deadLetter)).buriedIds =
      .ofNat 1 :: .ofNat 1 :: List.replicate 999 (.ofNat 2) := by
    rw [buriedIds_deadLetters, List.map_cons, List.map_cons, List.map_replicate]
  have length : (JobId.ofNat 1 :: .ofNat 1 :: List.replicate 999 (JobId.ofNat 2)).length = 1001 := by
    simp only [List.length_cons, List.length_replicate, Nat.reduceAdd]
  constructor
  · rw [← Ledger.mem_newest_buriedIds (.of _), ids, newest, length]
    exact List.mem_cons_self
  · rw [← Bool.not_eq_true, Ledger.isDead_iff (.of _), ids]
    rintro ⟨latest, found, after⟩
    have late : 1000 < latest := Nat.zero_add 1000 ▸ after 0 rfl (by rw [length]; decide)
    obtain ⟨rest, rfl⟩ : ∃ rest, latest = rest + 2 := ⟨latest - 2, by omega⟩
    rw [List.getElem?_cons_succ, List.getElem?_cons_succ] at found
    have other := List.eq_of_mem_replicate (List.mem_of_getElem? found)
    exact absurd other (by decide)

end JobEngine.Queue
