import JobEngine.Proofs.TrackerEntries
import Mathlib.Data.Finmap

/-!
# The tracker as two tables

The entries can also be kept in two tables: the jobs in the order in which
they were first seen, and a map from jobs to entries. A new entry then starts
a scan of the order from its front, which takes settled jobs out one by one
until few enough are left. Both ways keep the same entries under any sequence
of writes. What a write changes is stated once for both: only a status creates
an entry, an entry is changed by the writes of its own job alone, and a new
one pushes out the first settled jobs, as many as there are too many.
-/
namespace JobEngine

open Time (Timestamp)

namespace Tracker

variable {t : Tracker} {id other : JobId}

/-- The jobs that have an entry, the one first seen first. -/
def order (t : Tracker) : List JobId := (t.entries.map (·.jobId)).reverse

/-- Those of them whose entries are settled. -/
def settledJobs (t : Tracker) : List JobId :=
  t.order.filter fun id => (t.find? id).any (·.isSettled)

/-- The jobs that a new entry pushes out: there will be one entry more, and it is not settled. -/
def outdated (t : Tracker) : List JobId :=
  t.settledJobs.take (min (t.size + 1 - 10000) t.settledJobs.length)

/-! ## Writes -/

inductive Write
  | status (id : JobId) (status : Status) (now : Timestamp)
  | checkIn (id : JobId) (message : String) (now : Timestamp)
  | death (id : JobId) (diedAt now : Timestamp)
  | command (id : JobId) (command : Command) (now : Timestamp)

namespace Write

def job : Write → JobId
  | .status id .. | .checkIn id .. | .death id .. | .command id .. => id

/-- What is made of the entry. -/
def change : Write → Stats → Stats
  | .status _ written now, s => s.mark written now
  | .checkIn _ message now, s =>
    { s with checkIn := some message, checkInAt := some now, updatedAt := now }
  | .death _ diedAt now, s => { s with dieAt := some diedAt, updatedAt := now }
  | .command _ sent now, s => { s with command := some sent, updatedAt := now }

/-- The entry that is created if there is none. -/
def fresh? : Write → Option Stats
  | .status id _ now => some (.first id now)
  | _ => none

theorem jobId_change (w : Write) (s : Stats) : (w.change s).jobId = s.jobId := by
  cases w <;> rfl

end Write

def write (t : Tracker) : Write → Except QueueError Tracker
  | .status id written now => .ok (t.setStatus id written now)
  | .checkIn id message now => t.checkIn id message now
  | .death id diedAt now => t.markDeadAt id diedAt now
  | .command id sent now => t.sendCommand id sent now

/-- The tracker after a write; one that is refused changes nothing. -/
def put (t : Tracker) (w : Write) : Tracker :=
  match t.write w with
  | .ok u => u
  | .error _ => t

def answer (t : Tracker) (w : Write) : Except QueueError Unit := (t.write w).map fun _ => ()

def after (writes : List Write) : Tracker := writes.foldl put {}

/-- The three things that come of a write. -/
inductive Written (t : Tracker) (w : Write) : Except QueueError Tracker → Prop
  | refused (unknown : t.find? w.job = none) (late : w.fresh? = none) :
      Written t w (.error (.notFound w.job))
  | changed {u : Tracker} {s : Stats} (known : t.find? w.job = some s)
      (order : u.order = t.order) (own : u.find? w.job = some (w.change s))
      (others : ∀ other ≠ w.job, u.find? other = t.find? other) :
      Written t w (.ok u)
  | grown {u : Tracker} {first : Stats} (unknown : t.find? w.job = none)
      (fresh : w.fresh? = some first)
      (order : u.order = (t.order ++ [w.job]).filter (· ∉ t.outdated))
      (own : u.find? w.job = some (w.change first))
      (others : ∀ other ≠ w.job,
        u.find? other = if other ∈ t.outdated then none else t.find? other)
      (bound : u.size ≤ 10000 ∨
        ∀ other ≠ w.job, ∀ s, u.find? other = some s → s.isSettled = false) :
      Written t w (.ok u)

/-! ## The order -/

theorem mem_order : id ∈ t.order ↔ ∃ s ∈ t.entries, s.jobId = id := by
  rw [order, List.mem_reverse, List.mem_map]

theorem nodup_order : t.order.Nodup ↔ t.Listed := by
  rw [order, List.nodup_reverse, Listed]

theorem mem_order_iff (listed : t.Listed) : id ∈ t.order ↔ (t.find? id).isSome := by
  rw [mem_order, Option.isSome_iff_exists]
  constructor
  · rintro ⟨s, mem, own⟩
    exact ⟨s, (find?_eq_some listed).mpr ⟨mem, own⟩⟩
  · rintro ⟨s, found⟩
    exact ⟨s, (find?_eq_some listed).mp found⟩

theorem settledJobs_eq (listed : t.Listed) :
    t.settledJobs = (t.entries.reverse.filter (·.isSettled)).map (·.jobId) := by
  rw [settledJobs, order, ← List.map_reverse, List.filter_map]
  congr 1
  apply List.filter_congr
  intro s mem
  have found : t.find? s.jobId = some s :=
    (find?_eq_some listed).mpr ⟨List.mem_reverse.mp mem, rfl⟩
  simp only [Function.comp_apply, found, Option.any_some]

theorem not_mem_settledJobs (listed : t.Listed) {s : Stats} (found : t.find? id = some s) :
    id ∉ t.settledJobs ↔ s.isSettled = false := by
  have mem : id ∈ t.order := (mem_order_iff listed).mpr (by rw [found, Option.isSome_some])
  simp [settledJobs, List.mem_filter, mem, found]

/-! ## What an eviction takes out -/

theorem reverse_evict (entries : List Stats) :
    (evict entries).reverse = dropSettled (entries.length - trackedLimit) entries.reverse := by
  by_cases full : trackedLimit < entries.length
  · rw [evict, if_pos full, List.reverse_reverse]
  · have none : entries.length - trackedLimit = 0 := by omega
    rw [evict, if_neg full, none, dropSettled]

/-- Exactly the first settled entries go. -/
theorem dropSettled_eq_filter (n : Nat) {entries : List Stats}
    (distinct : (entries.map (·.jobId)).Nodup) :
    dropSettled n entries = entries.filter fun s =>
      s.jobId ∉ ((entries.filter (·.isSettled)).map (·.jobId)).take n := by
  induction entries generalizing n with
  | nil => cases n <;> rfl
  | cons s rest ih =>
    rw [List.map_cons, List.nodup_cons] at distinct
    obtain ⟨new, distinct⟩ := distinct
    cases n with
    | zero => simp [dropSettled]
    | succ n =>
      have apart : ∀ u ∈ rest, u.jobId ≠ s.jobId := by
        intro u mem same
        exact new (same ▸ List.mem_map_of_mem mem)
      by_cases settled : s.isSettled = true
      · have others : rest.filter (fun u => u.jobId ∉
            (((s :: rest).filter (·.isSettled)).map (·.jobId)).take (n + 1)) =
            rest.filter fun u => u.jobId ∉
              ((rest.filter (·.isSettled)).map (·.jobId)).take n := by
          apply List.filter_congr
          intro u mem
          simp [settled, apart u mem]
        rw [dropSettled, if_pos settled, ih n distinct, List.filter_cons_of_neg, others]
        simp [settled]
      · have kept : s.jobId ∉ ((rest.filter (·.isSettled)).map (·.jobId)).take (n + 1) := by
          intro mem
          obtain ⟨u, mem, same⟩ := List.mem_map.mp (List.mem_of_mem_take mem)
          exact apart u (List.mem_filter.mp mem).1 same
        rw [dropSettled, if_neg settled, ih (n + 1) distinct, List.filter_cons_of_neg settled,
          List.filter_cons_of_pos]
        simpa using kept

/-- The entries after a new one has been created. -/
theorem reverse_enroll (listed : t.Listed) (unknown : t.find? id = none) (now : Timestamp) :
    (t.enroll id now).entries.reverse =
      (t.entries.reverse ++ [Stats.first id now]).filter (·.jobId ∉ t.outdated) := by
  have distinct : ((t.entries.reverse ++ [Stats.first id now]).map (·.jobId)).Nodup := by
    rw [← List.reverse_cons, List.map_reverse, List.nodup_reverse]
    exact nodup_enrolled listed unknown now
  have settled : (t.entries.reverse ++ [Stats.first id now]).filter (·.isSettled) =
      t.entries.reverse.filter (·.isSettled) := by
    rw [List.filter_append, List.filter_cons_of_neg, List.filter_nil, List.append_nil]
    exact Bool.false_ne_true
  have gone : t.settledJobs.take (t.size + 1 - trackedLimit) = t.outdated := by
    rw [outdated, trackedLimit]
    by_cases many : t.size + 1 - 10000 ≤ t.settledJobs.length
    · rw [min_eq_left many]
    · rw [min_eq_right (by omega), List.take_length, List.take_of_length_le (by omega)]
  have taken := dropSettled_eq_filter (t.size + 1 - trackedLimit) distinct
  rw [settled, ← settledJobs_eq listed, gone, size] at taken
  rw [enroll_unknown unknown, reverse_evict, List.reverse_cons, List.length_cons]
  exact taken

theorem order_enroll (listed : t.Listed) (unknown : t.find? id = none) (now : Timestamp) :
    (t.enroll id now).order = (t.order ++ [id]).filter (· ∉ t.outdated) := by
  rw [order, ← List.map_reverse, reverse_enroll listed unknown, order, ← List.map_reverse]
  have ids : t.entries.reverse.map (·.jobId) ++ [id] =
      (t.entries.reverse ++ [Stats.first id now]).map (·.jobId) := by
    rw [List.map_append]
    rfl
  rw [ids, List.filter_map, Function.comp_def]

theorem find?_enroll (listed : t.Listed) (unknown : t.find? id = none) (now : Timestamp)
    (differ : other ≠ id) :
    (t.enroll id now).find? other = if other ∈ t.outdated then none else t.find? other := by
  have mem (s : Stats) : s ∈ (t.enroll id now).entries ↔
      (s ∈ t.entries ∨ s = .first id now) ∧ s.jobId ∉ t.outdated := by
    rw [← List.mem_reverse, reverse_enroll listed unknown, List.mem_filter, List.mem_append,
      List.mem_reverse, List.mem_singleton, decide_eq_true_eq]
  ext s
  rw [find?_eq_some (listed_enroll listed id now), mem]
  by_cases gone : other ∈ t.outdated
  · rw [if_pos gone]
    constructor
    · rintro ⟨⟨-, kept⟩, rfl⟩
      exact absurd gone kept
    · intro impossible
      cases impossible
  · rw [if_neg gone, find?_eq_some listed]
    constructor
    · rintro ⟨⟨known | rfl, -⟩, own⟩
      · exact ⟨known, own⟩
      · exact absurd own.symm differ
    · rintro ⟨known, rfl⟩
      exact ⟨⟨Or.inl known, gone⟩, rfl⟩

/-! ## What comes of a write -/

theorem write_late {w : Write} (late : w.fresh? = none) : t.write w = t.update w.job w.change := by
  cases w with
  | status id written now => cases late
  | checkIn | death | command => rfl

theorem order_alter {f : Stats → Stats} (keeps : ∀ s, (f s).jobId = s.jobId) :
    order ⟨alter f id t.entries⟩ = t.order := by
  rw [order, ids_alter keeps, order]

/-- An entry that is there is changed, and no other. -/
theorem written_known {w : Write} {s : Stats} (known : t.find? w.job = some s) :
    t.Written w (t.write w) := by
  have altered : t.write w = .ok ⟨alter w.change w.job t.entries⟩ := by
    cases w with
    | status id written now =>
      have there : t.find? id = some s := known
      rw [write, setStatus_eq, enroll_known there]
      rfl
    | checkIn | death | command =>
      rw [write_late rfl, update, known]
  have found (other : JobId) : (alter w.change w.job t.entries).find? (·.jobId = other) =
      if other = w.job then (t.entries.find? (·.jobId = w.job)).map w.change
      else t.entries.find? (·.jobId = other) := find?_alter w.jobId_change t.entries
  rw [altered]
  refine .changed known (order_alter w.jobId_change) ?_ ?_
  · rw [find?, found, if_pos rfl]
    exact congrArg (Option.map w.change) known
  · intro other differ
    rw [find?, found, if_neg differ, find?]

/-- With the new entry the tracker is small enough, or everything settled is gone. -/
theorem bound_setStatus (listed : t.Listed) (unknown : t.find? id = none) (written : Status)
    (now : Timestamp) (few : 10000 < (t.setStatus id written now).size) (differ : other ≠ id)
    {s : Stats} (found : (t.setStatus id written now).find? other = some s) :
    s.isSettled = false := by
  rw [find?_setStatus, if_neg differ, find?_enroll listed unknown now differ] at found
  by_cases gone : other ∈ t.outdated
  · rw [if_pos gone] at found
    cases found
  · rw [if_neg gone] at found
    have size := size_setStatus_new unknown written now
    have parts := List.length_eq_countP_add_countP (·.isSettled) (l := t.entries)
    have count : t.settledJobs.length = t.entries.countP (·.isSettled) := by
      rw [settledJobs_eq listed, List.length_map, ← List.countP_eq_length_filter,
        List.countP_reverse]
    simp only [Bool.not_eq_true, Bool.decide_eq_false] at parts
    have all : t.outdated = t.settledJobs := by
      have limit : trackedLimit = 10000 := rfl
      simp only [Tracker.size, unsettled] at size few
      rw [outdated, min_eq_right, List.take_length]
      rw [count, Tracker.size]
      omega
    rw [all] at gone
    exact (not_mem_settledJobs listed found).mp gone

theorem written_new (listed : t.Listed) (unknown : t.find? id = none) (written : Status)
    (now : Timestamp) :
    t.Written (.status id written now) (.ok (t.setStatus id written now)) := by
  refine .grown unknown rfl ?_ ?_ ?_ ?_
  · rw [setStatus_eq, order_alter (by intro s; rfl), order_enroll listed unknown]
    rfl
  · rw [Write.job, find?_setStatus_self listed, unknown]
    rfl
  · intro other (differ : other ≠ id)
    rw [find?_setStatus, if_neg differ]
    exact find?_enroll listed unknown now differ
  · by_cases few : (t.setStatus id written now).size ≤ 10000
    · exact Or.inl few
    · right
      intro other differ s found
      exact bound_setStatus listed unknown written now (by omega) differ found

theorem written (listed : t.Listed) (w : Write) : t.Written w (t.write w) := by
  cases known : t.find? w.job with
  | some s => exact written_known known
  | none =>
    cases w with
    | status id status now => exact written_new listed known status now
    | checkIn | death | command =>
      rw [write_late rfl, update, known]
      exact .refused known rfl

theorem listed_put (listed : t.Listed) (w : Write) : (t.put w).Listed := by
  have kept (late : w.fresh? = none) : (t.put w).Listed := by
    rw [put, write_late late]
    split
    · rename_i u updated
      exact listed_update w.jobId_change updated listed
    · exact listed
  cases w with
  | status id written now => exact listed_setStatus listed id written now
  | checkIn | death | command => exact kept rfl

end Tracker

/-! ## Two tables -/

structure Tables where
  /-- The job first seen stands in front. -/
  order : List JobId := []
  stats : Finmap fun _ : JobId => Stats := ∅

namespace Tables

open Tracker (Write dropSettled)

/-- Whether the scan passes the job by. -/
def holds (b : Tables) (id : JobId) : Bool := (b.stats.lookup id).any (!·.isSettled)

/-- Looks at one place after the other, and takes out what it does not pass by. -/
def scan (b : Tables) (index : Nat) : Tables :=
  if h : trackedLimit < b.order.length ∧ index < b.order.length then
    if b.holds b.order[index] then b.scan (index + 1)
    else scan ⟨b.order.eraseIdx index, b.stats.erase b.order[index]⟩ index
  else b
termination_by b.order.length - index
decreasing_by
  · omega
  · simp only [List.length_eraseIdx, h.2, if_true]
    omega

def enroll (b : Tables) (id : JobId) (now : Timestamp) : Tables :=
  match b.stats.lookup id with
  | some _ => b
  | none => scan ⟨b.order ++ [id], b.stats.insert id (.first id now)⟩ 0

def write (b : Tables) (w : Write) : Except QueueError Tables :=
  match w with
  | .status id written now =>
    let b := b.enroll id now
    let s := (b.stats.lookup id).getD (.first id now)
    .ok { b with stats := b.stats.insert id (s.mark written now) }
  | w =>
    match b.stats.lookup w.job with
    | some s => .ok { b with stats := b.stats.insert w.job (w.change s) }
    | none => .error (.notFound w.job)

def put (b : Tables) (w : Write) : Tables :=
  match b.write w with
  | .ok c => c
  | .error _ => b

def answer (b : Tables) (w : Write) : Except QueueError Unit := (b.write w).map fun _ => ()

def after (writes : List Write) : Tables := writes.foldl put {}

/-- The tables hold these entries, the oldest first. -/
structure Lays (b : Tables) (entries : List Stats) : Prop where
  order : b.order = entries.map (·.jobId)
  distinct : (entries.map (·.jobId)).Nodup
  stats : ∀ id, b.stats.lookup id = entries.find? (·.jobId = id)

/-- The tables hold the entries of the tracker. -/
structure Shows (b : Tables) (t : Tracker) : Prop where
  order : b.order = t.order
  stats : ∀ id, b.stats.lookup id = t.find? id

namespace Lays

variable {b : Tables} {front rest : List Stats} {s : Stats}

theorem lookup_next (lays : b.Lays (front ++ s :: rest)) : b.stats.lookup s.jobId = some s := by
  have mem : s ∈ front ++ s :: rest := List.mem_append_right _ List.mem_cons_self
  rw [lays.stats]
  exact (Tracker.find?_eq_some (t := ⟨front ++ s :: rest⟩) lays.distinct).mpr ⟨mem, rfl⟩

theorem erase_next (lays : b.Lays (front ++ s :: rest)) :
    Lays ⟨b.order.eraseIdx front.length, b.stats.erase s.jobId⟩ (front ++ rest) := by
  have new : ∀ u ∈ front ++ rest, u.jobId ≠ s.jobId := by
    have distinct := lays.distinct
    rw [List.map_append, List.map_cons, List.nodup_middle, List.nodup_cons, ← List.map_append]
      at distinct
    intro u mem same
    exact distinct.1 (same ▸ List.mem_map_of_mem mem)
  have less : (front ++ rest).Sublist (front ++ s :: rest) :=
    (List.sublist_cons_self s rest).append_left front
  refine ⟨?_, lays.distinct.sublist (less.map _), ?_⟩
  · rw [lays.order, List.map_append, List.eraseIdx_append_of_length_le (by simp)]
    simp
  · intro id
    by_cases own : id = s.jobId
    · subst own
      rw [Finmap.lookup_erase, eq_comm, List.find?_eq_none]
      intro u mem
      simpa using new u mem
    · rw [Finmap.lookup_erase_ne own, lays.stats, List.find?_append, List.find?_append,
        List.find?_cons_of_neg]
      simpa using Ne.symm own

/-- The induction is on the entries that the scan has not reached; those it has passed by stay. -/
theorem scan (lays : b.Lays (front ++ rest)) :
    (b.scan front.length).Lays
      (front ++ dropSettled ((front ++ rest).length - trackedLimit) rest) := by
  induction rest generalizing front b with
  | nil =>
    have spent : ¬ (trackedLimit < b.order.length ∧ front.length < b.order.length) := by
      simp [lays.order]
    rw [Tables.scan, dif_neg spent]
    cases (front ++ []).length - trackedLimit <;> exact lays
  | cons s rest ih =>
    have length : b.order.length = (front ++ s :: rest).length := by
      rw [lays.order, List.length_map]
    by_cases full : trackedLimit < (front ++ s :: rest).length
    · have more : trackedLimit < b.order.length ∧ front.length < b.order.length := by
        simp only [length, List.length_append, List.length_cons] at full ⊢
        omega
      have inside : front.length < b.order.length := more.2
      have here : b.order[front.length] = s.jobId := by
        simp [lays.order]
      obtain ⟨n, surplus⟩ : ∃ n, (front ++ s :: rest).length - trackedLimit = n + 1 :=
        ⟨(front ++ s :: rest).length - trackedLimit - 1, by omega⟩
      rw [Tables.scan, dif_pos more, here, surplus, dropSettled]
      by_cases settled : s.isSettled = true
      · have taken : b.holds s.jobId = false := by
          simp [holds, lays.lookup_next, settled]
        have left : (front ++ rest).length - trackedLimit = n := by
          simp only [List.length_append, List.length_cons] at surplus ⊢
          omega
        have after := ih lays.erase_next
        rw [left] at after
        simpa only [taken, Bool.false_eq_true, if_false, settled, if_true] using after
      · have passed : b.holds s.jobId = true := by
          simp [holds, lays.lookup_next, settled]
        have step : front ++ s :: rest = (front ++ [s]) ++ rest := by simp
        have beyond : b.Lays ((front ++ [s]) ++ rest) := step ▸ lays
        have after := ih beyond
        rw [← step, surplus] at after
        simpa [passed, settled] using after
    · have enough : ¬ (trackedLimit < b.order.length ∧ front.length < b.order.length) := by
        rw [length]
        exact fun more => full more.1
      have none : (front ++ s :: rest).length - trackedLimit = 0 := by omega
      rw [Tables.scan, dif_neg enough, none]
      exact lays

end Lays

section Layout

variable {b : Tables} {t : Tracker} {id : JobId}

theorem find?_oldest (listed : t.Listed) (id : JobId) :
    t.entries.reverse.find? (·.jobId = id) = t.find? id := by
  have turned : Tracker.Listed ⟨t.entries.reverse⟩ := by
    rw [Tracker.Listed, List.map_reverse, List.nodup_reverse]
    exact listed
  ext s
  rw [Tracker.find?_eq_some listed]
  refine (Tracker.find?_eq_some turned).trans ?_
  rw [List.mem_reverse]

theorem lays_iff (listed : t.Listed) : b.Lays t.entries.reverse ↔ b.Shows t := by
  constructor
  · intro lays
    refine ⟨?_, ?_⟩
    · rw [lays.order, List.map_reverse, Tracker.order]
    · intro id
      rw [lays.stats, find?_oldest listed]
  · intro shows
    refine ⟨?_, ?_, ?_⟩
    · rw [shows.order, List.map_reverse, Tracker.order]
    · rw [List.map_reverse, List.nodup_reverse]
      exact listed
    · intro id
      rw [shows.stats, find?_oldest listed]

namespace Shows

/-- A new entry, laid down at the end of the order. -/
theorem push (shows : b.Shows t) (listed : t.Listed) (unknown : t.find? id = none)
    (now : Timestamp) :
    Lays ⟨b.order ++ [id], b.stats.insert id (.first id now)⟩
      (t.entries.reverse ++ [.first id now]) := by
  have lays := (lays_iff listed).mpr shows
  have own : (Stats.first id now).jobId = id := rfl
  refine ⟨?_, ?_, ?_⟩
  · rw [lays.order, List.map_append]
    rfl
  · rw [← List.reverse_cons, List.map_reverse, List.nodup_reverse]
    exact Tracker.nodup_enrolled listed unknown now
  · intro other
    by_cases same : other = id
    · subst same
      rw [Finmap.lookup_insert, List.find?_append, find?_oldest listed, unknown, Option.none_or,
        List.find?_cons_of_pos (by simp [own])]
    · rw [Finmap.lookup_insert_of_ne _ same, lays.stats, List.find?_append,
        List.find?_cons_of_neg (by simpa [own] using Ne.symm same), List.find?_nil, Option.or_none]

theorem enroll (shows : b.Shows t) (listed : t.Listed) (id : JobId) (now : Timestamp) :
    (b.enroll id now).Shows (t.enroll id now) := by
  cases known : t.find? id with
  | some s =>
    rw [Tables.enroll, shows.stats, known, Tracker.enroll_known known]
    exact shows
  | none =>
    have pushed : Lays _ ([] ++ _) := shows.push listed known now
    have scanned := pushed.scan
    rw [← lays_iff (Tracker.listed_enroll listed id now), Tables.enroll, shows.stats, known,
      Tracker.enroll_unknown known, Tracker.reverse_evict, List.reverse_cons]
    simpa using scanned

theorem insert (shows : b.Shows t) {f : Stats → Stats} (keeps : ∀ s, (f s).jobId = s.jobId)
    {s : Stats} (known : t.find? id = some s) :
    Shows { b with stats := b.stats.insert id (f s) } ⟨Tracker.alter f id t.entries⟩ := by
  refine ⟨?_, ?_⟩
  · rw [Tracker.order_alter keeps]
    exact shows.order
  · intro other
    rw [Tracker.find?, Tracker.find?_alter keeps]
    by_cases same : other = id
    · subst same
      rw [Finmap.lookup_insert, if_pos rfl]
      exact (congrArg (Option.map f) known).symm
    · rw [Finmap.lookup_insert_of_ne _ same, if_neg same]
      exact shows.stats other

/-- Both layouts take a write alike. -/
theorem write (shows : b.Shows t) (listed : t.Listed) (w : Write) :
    b.answer w = t.answer w ∧ (b.put w).Shows (t.put w) := by
  cases w with
  | status id written now =>
    have enrolled := shows.enroll listed id now
    have there := Tracker.find?_enroll_self listed id now
    have marked := enrolled.insert (f := (·.mark written now)) (by intro s; rfl) there
    refine ⟨rfl, ?_⟩
    rw [put, Tables.write]
    simp only [enrolled.stats, there, Option.getD_some]
    exact marked
  | checkIn | death | command =>
    rw [answer, put, Tracker.answer, Tracker.put, Tracker.write_late rfl, Tracker.update]
    simp only [Tables.write, shows.stats]
    cases known : t.find? (Write.job _) with
    | some s => exact ⟨rfl, shows.insert (Write.jobId_change _) known⟩
    | none => exact ⟨rfl, shows⟩

theorem keys (shows : b.Shows t) (listed : t.Listed) : b.order.toFinset = b.stats.keys := by
  ext id
  rw [List.mem_toFinset, shows.order, Tracker.mem_order_iff listed, Finmap.mem_keys,
    ← Finmap.lookup_isSome, shows.stats]

end Shows

end Layout

/-- The induction is on the writes, the last one first. -/
theorem shows_after (writes : List Write) :
    (Tracker.after writes).Listed ∧ (after writes).Shows (Tracker.after writes) := by
  induction writes using List.reverseRecOn with
  | nil =>
    refine ⟨List.nodup_nil, rfl, ?_⟩
    intro id
    rfl
  | append_singleton writes w ih =>
    obtain ⟨listed, shows⟩ := ih
    rw [Tracker.after, after, List.foldl_append, List.foldl_append]
    exact ⟨Tracker.listed_put listed w, (shows.write listed w).2⟩

end Tables

/-- However the tracker is written to, its order lists without duplicates the jobs that have an
entry, a write refuses, changes or creates one entry and pushes out what is outdated, and the two
tables with their scan hold the same entries and answer alike. -/
theorem Tracker.entries_of_writes (writes : List Write) :
    let t := after writes
    let b := Tables.after writes
    t.order.Nodup ∧ (∀ id, id ∈ t.order ↔ (t.find? id).isSome) ∧
    (∀ w, t.Written w (t.write w)) ∧
    b.Shows t ∧ b.order.toFinset = b.stats.keys ∧ ∀ w, b.answer w = t.answer w := by
  intro t b
  obtain ⟨listed, shows⟩ := Tables.shows_after writes
  refine ⟨nodup_order.mpr listed, ?_, ?_, shows, shows.keys listed, ?_⟩
  · intro id
    exact mem_order_iff listed
  · intro w
    exact written listed w
  · intro w
    exact (shows.write listed w).1

end JobEngine
