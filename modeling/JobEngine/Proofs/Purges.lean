import JobEngine.Proofs.SharedRuns
import JobEngine.Proofs.Sweeps

/-!
# Purges

A collection and a sweep go about their removals in the same way. They list the
artifacts of a repository, choose some of them, and remove these by their
digests, one after the other, before they list another repository. What they
choose, what they do when a removal fails and whether they add up the bytes is
all they differ in.

Others may change the artifacts between the listing and a removal. What a purge
removes is therefore due, that is, chosen from an earlier listing and not tried
since, but it need not be what was listed any more.
-/
namespace JobEngine

/-- How a job goes about its removals. -/
structure Purge where
  chooses : List Artifact → List Artifact
  chosen : ∀ artifacts, (chooses artifacts).Subperm artifacts
  /-- It removes nothing of what it chose. -/
  dry : Bool
  /-- It goes on when a removal fails. -/
  tolerant : Bool
  /-- It adds up the bytes, as far as 64 bits go. -/
  counts : Bool

theorem Purge.distinct (way : Purge) {artifacts : List Artifact}
    (distinct : (artifacts.map (·.digest)).Nodup) :
    ((way.chooses artifacts).map (·.digest)).Nodup := by
  obtain ⟨order, same, within⟩ := way.chosen artifacts
  exact (same.map _).nodup_iff.mp (distinct.sublist (within.map _))

/-- The bytes of artifacts as far as it counts them. -/
def Purge.weight (way : Purge) (artifacts : List Artifact) : Nat :=
  if way.counts then Maintenance.Collection.bytes artifacts else 0

/-- With so many more bytes. -/
def Purge.add (way : Purge) (counted : Nat) (bytes : UInt64) : Nat :=
  if way.counts then counted + bytes.toNat else counted

theorem Purge.add_le_weight {way : Purge} {counted : Nat} {artifacts : List Artifact}
    (less : counted ≤ way.weight artifacts) (a : Artifact) :
    way.add counted a.size ≤ way.weight (a :: artifacts) := by
  unfold weight at less ⊢
  unfold add
  cases counting : way.counts with
  | false => simpa [counting] using less
  | true =>
    simp only [counting, if_true, Maintenance.Collection.bytes_cons] at less ⊢
    omega

/-- What a purge goes by. -/
structure Agenda where
  /-- The repositories that it found. -/
  known : List String
  /-- Those it has listed. -/
  listed : List String
  /-- What it still has to deal with, and where, before it lists again. -/
  doomed : List (String × Artifact)
  /-- The bytes it has counted. -/
  counted : Nat

namespace Activity

/-- Nothing is left but to end with a fault. -/
inductive Quits : Activity → Fault → Prop
  | fault (f : Fault) : Quits (.fault f) f
  | log {level : Level} {message : String} {next : Activity} {f : Fault} (quits : Quits next f) :
      Quits (.log level message next) f

/-- What a purge still does, as long as the store answers. -/
inductive Purges (way : Purge) : Agenda → Activity → Prop
  | done (known listed : List String) (counted : Nat) : Purges way ⟨known, listed, [], counted⟩ .done
  | log {agenda : Agenda} {level : Level} {message : String} {next : Activity}
      (goes : Purges way agenda next) : Purges way agenda (.log level message next)
  | checkIn {agenda : Agenda} {message : String} {next : Activity}
      (goes : Purges way agenda next) : Purges way agenda (.checkIn message next)
  | poll {agenda : Agenda} {next : Option Command → Activity}
      (goes : Purges way agenda (next none))
      (halts : ∀ command, Quits (next (some command)) command.fault) :
      Purges way agenda (.poll next)
  | repositories {known listed : List String} {counted : Nat}
      {next : Except StoreError (List String) → Activity}
      (goes : ∀ names, names.Nodup → Purges way ⟨names, listed, [], counted⟩ (next (.ok names))) :
      Purges way ⟨known, listed, [], counted⟩ (.repositories next)
  | list {known listed : List String} {counted : Nat} {repository : String}
      {next : Except StoreError (List Artifact) → Activity} (there : repository ∈ known)
      (unread : repository ∉ listed)
      (goes : ∀ artifacts, Purges way
        ⟨known, repository :: listed, (way.chooses artifacts).map (repository, ·), counted⟩
        (next (.ok artifacts))) :
      Purges way ⟨known, listed, [], counted⟩ (.list repository next)
  | delete {known listed : List String} {counted : Nat} {repository : String} {a : Artifact}
      {rest : List (String × Artifact)} {next : Except StoreError UInt64 → Activity}
      (real : way.dry = false)
      (goes : ∀ bytes, way.add counted bytes < 2 ^ 64 →
        Purges way ⟨known, listed, rest, way.add counted bytes⟩ (next (.ok bytes)))
      (bursts : ∀ bytes, 2 ^ 64 ≤ way.add counted bytes →
        Quits (next (.ok bytes)) (.crash Maintenance.Collection.overflow))
      (skips : way.tolerant = true → ∀ e,
        Purges way ⟨known, listed, rest, counted⟩ (next (.error e)))
      (fails : way.tolerant = false → ∀ e, Quits (next (.error e)) (.error e.toJobError)) :
      Purges way ⟨known, listed, (repository, a) :: rest, counted⟩
        (.delete repository a.digest next)
  /-- A dry run says what would go. -/
  | rehearse {known listed : List String} {counted : Nat} {repository : String} {a : Artifact}
      {rest : List (String × Artifact)} {level : Level} {message : String} {next : Activity}
      (dry : way.dry = true)
      (goes : way.add counted a.size < 2 ^ 64 →
        Purges way ⟨known, listed, rest, way.add counted a.size⟩ next)
      (bursts : 2 ^ 64 ≤ way.add counted a.size →
        Quits next (.crash Maintenance.Collection.overflow)) :
      Purges way ⟨known, listed, (repository, a) :: rest, counted⟩ (.log level message next)

theorem Purges.checkpoint {way : Purge} {agenda : Agenda} {next : Activity}
    (goes : next.Purges way agenda) : (Activity.checkpoint next).Purges way agenda := by
  refine .poll goes fun command => ?_
  cases command with
  | stop | cancel => exact .log (.fault _)

end Activity

/-! ## The two jobs -/

namespace Maintenance

open Activity

namespace Collection

/-- A collection chooses the untagged artifacts. It gives up when a removal fails. -/
def purge (dryRun : Bool) : Purge where
  chooses artifacts := artifacts.filter (·.isUntagged)
  chosen _ := List.filter_sublist.subperm
  dry := dryRun
  tolerant := false
  counts := true

theorem mem_purge {dryRun : Bool} {artifacts : List Artifact} {a : Artifact} :
    a ∈ (purge dryRun).chooses artifacts ↔ a ∈ artifacts ∧ a.isUntagged = true := List.mem_filter

theorem Report.toNat_add {r : Report} {bytes : UInt64}
    (fits : r.freedBytes.toNat + bytes.toNat < 2 ^ 64) :
    (r.add bytes).freedBytes.toNat = r.freedBytes.toNat + bytes.toNat := by
  rw [Report.add, UInt64.toNat_add, Nat.mod_eq_of_lt fits]

theorem purges_sweep {dryRun : Bool} {known listed : List String} {repository : String}
    {next : Report → Activity}
    (goes : ∀ report : Report, report.dryRun = dryRun →
      (next report).Purges (purge dryRun) ⟨known, listed, [], report.freedBytes.toNat⟩)
    (artifacts : List Artifact) {report : Report} (flag : report.dryRun = dryRun) :
    (sweep repository next artifacts report).Purges (purge dryRun)
      ⟨known, listed, ((purge dryRun).chooses artifacts).map (repository, ·),
        report.freedBytes.toNat⟩ := by
  induction artifacts generalizing report with
  | nil => exact goes report flag
  | cons a rest ih =>
    have added {bytes : UInt64} (fits : report.freedBytes.toNat + bytes.toNat < 2 ^ 64) :
        (sweep repository next rest (report.add bytes)).Purges (purge dryRun)
          ⟨known, listed, ((purge dryRun).chooses rest).map (repository, ·),
            report.freedBytes.toNat + bytes.toNat⟩ := by
      rw [← Report.toNat_add fits]
      exact ih flag
    simp only [sweep, purge]
    cases tagged : a.isUntagged with
    | false =>
      rw [List.filter_cons_of_neg (by simp [tagged])]
      exact ih flag
    | true =>
      rw [List.filter_cons_of_pos tagged]
      cases dryRun with
      | true =>
        simp only [flag, Bool.not_true, Bool.false_eq_true, if_false, if_true]
        refine .rehearse rfl (fun fits => ?_) fun full => ?_
        · rw [report.countArtifact_fits _ fits]
          exact added fits
        · rw [report.countArtifact_full _ full]
          exact .fault _
      | false =>
        simp only [flag, Bool.not_true, Bool.false_eq_true, if_false]
        refine .delete rfl (fun bytes fits => ?_) (fun bytes full => ?_)
          (fun tolerant => by cases tolerant) fun _ e => .fault _
        · dsimp only
          rw [report.countArtifact_fits _ fits]
          exact .log (added fits)
        · dsimp only
          rw [report.countArtifact_full _ full]
          exact .fault _

theorem purges_collect {dryRun deleteUntagged : Bool} {known listed names : List String}
    (among : ∀ name ∈ names, name ∈ known) (unread : ∀ name ∈ names, name ∉ listed)
    (nodup : names.Nodup) {report : Report} (flag : report.dryRun = dryRun) :
    (collect deleteUntagged names report).Purges (purge dryRun)
      ⟨known, listed, [], report.freedBytes.toNat⟩ := by
  induction names generalizing listed report with
  | nil => exact .checkIn (.done known listed _)
  | cons repository rest ih =>
    obtain ⟨fresh, nodup⟩ := List.nodup_cons.mp nodup
    have others (name : String) (mem : name ∈ rest) : name ∈ known :=
      among name (List.mem_cons_of_mem _ mem)
    have counted : report.freedBytes = report.countRepository.freedBytes := rfl
    rw [counted]
    refine .checkpoint ?_
    cases deleteUntagged with
    | false =>
      exact ih others (fun name mem => unread name (List.mem_cons_of_mem _ mem)) nodup flag
    | true =>
      have still (name : String) (mem : name ∈ rest) : name ∉ repository :: listed := by
        have other : name ≠ repository := fun same => fresh (same ▸ mem)
        simpa [other] using unread name (List.mem_cons_of_mem _ mem)
      exact .list (among repository List.mem_cons_self) (unread repository List.mem_cons_self)
        fun artifacts => purges_sweep (fun _ => ih others still nodup) artifacts flag

theorem purges_run (params : Params) :
    (run params).Purges (purge params.dryRun) ⟨[], [], [], 0⟩ := by
  refine .repositories fun names nodup => ?_
  have fresh : ({ dryRun := params.dryRun } : Report).freedBytes.toNat = 0 := rfl
  rw [← fresh]
  exact purges_collect (fun _ mem => mem) (fun _ _ => List.not_mem_nil) nodup rfl

end Collection

namespace Retention

/-- A sweep chooses all but the latest artifacts. It goes on when a removal fails. -/
def purge (retain : Nat) (dryRun : Bool) : Purge where
  chooses artifacts := (ranked artifacts).drop retain
  chosen artifacts :=
    (List.drop_sublist _ _).subperm.trans (latestFirst_ranked artifacts).all.subperm
  dry := dryRun
  tolerant := true
  counts := false

theorem purges_decide (params : Params) (known listed : List String) (candidates : List Artifact)
    (rank : Nat) (decisions : List Decision) :
    (decide params candidates rank decisions).Purges (purge params.retain.toNat params.dryRun)
      ⟨known, listed,
        (candidates.drop (params.retain.toNat - rank)).map (params.repository, ·), 0⟩ := by
  induction candidates generalizing rank decisions with
  | nil =>
    rw [List.drop_nil]
    exact .checkIn (.done known listed 0)
  | cons a rest ih =>
    replace ih := ih (rank + 1)
    rw [doomed_cons, List.map_append]
    refine .checkpoint ?_
    by_cases retained : rank < params.retain.toNat
    · rw [if_pos retained]
      simp only [retained, decide_true, Bool.not_true, Bool.false_and, Bool.false_eq_true, if_false]
      exact .log (ih _)
    · rw [if_neg retained]
      -- nothing is counted
      have small : ¬2 ^ 64 ≤ 0 := by omega
      cases dry : params.dryRun with
      | true =>
        simp only [Bool.not_true, Bool.and_false, Bool.false_eq_true, if_false]
        rw [dry] at ih
        exact .rehearse rfl (fun _ => ih _) fun full => absurd full small
      | false =>
        simp only [retained, decide_false, Bool.not_false, Bool.and_self, if_true]
        rw [dry] at ih
        exact .delete rfl (fun _ _ => .log (ih _)) (fun _ full => absurd full small)
          (fun _ _ => .log (.log (ih _))) (fun tolerant => by cases tolerant)

theorem purges_run (params : Params) :
    (run params).Purges (purge params.retain.toNat params.dryRun)
      ⟨[params.repository], [], [], 0⟩ :=
  .log <| .checkpoint <| .list List.mem_cons_self List.not_mem_nil fun artifacts =>
    .log (purges_decide params _ _ (ranked artifacts) 0 [])

end Retention

end Maintenance

/-! ## Purges among others -/

namespace SharedRun

open Maintenance

/-! ### Books -/

section Books

variable {ι : Type} (run : SharedRun ι) (way : Purge)

/-- These artifacts have different names, and each was found under its name before turn `n`. -/
structure Ledger (n : Nat) (items : List (String × Artifact)) : Prop where
  distinct : (items.map removalName).Nodup
  found : ∀ item ∈ items, ∃ k < n, (run.store k).lookup? item.1 item.2.digest = some item.2

/-- What was counted is in the books, and what is to be dealt with is not yet. -/
structure Books (n : Nat) (agenda : Agenda) (items : List (String × Artifact)) : Prop where
  ledger : run.Ledger n items
  counted : agenda.counted ≤ way.weight (items.map Prod.snd)
  apart : ((agenda.doomed ++ items).map removalName).Nodup
  listed : ∀ item ∈ agenda.doomed ++ items, item.1 ∈ agenda.listed

variable {run way} {n : Nat} {agenda : Agenda} {repository : String} {a : Artifact}
  {known listed : List String} {rest items : List (String × Artifact)} {counted : Nat}

theorem Ledger.later (ledger : run.Ledger n items) :
    run.Ledger (n + 1) items where
  distinct := ledger.distinct
  found item mem := by
    obtain ⟨k, before, found⟩ := ledger.found item mem
    exact ⟨k, by omega, found⟩

theorem Books.later (books : run.Books way n agenda items) :
    run.Books way (n + 1) agenda items := { books with ledger := books.ledger.later }

/-- What was chosen from a repository that was not listed before is not in the books. -/
theorem Books.lists (books : run.Books way n ⟨known, listed, [], counted⟩ items)
    (unread : repository ∉ listed) {chosen : List Artifact}
    (distinct : (chosen.map (·.digest)).Nodup) :
    run.Books way (n + 1) ⟨known, repository :: listed, chosen.map (repository, ·), counted⟩
      items where
  ledger := books.ledger.later
  counted := books.counted
  apart := by
    have names : (chosen.map (repository, ·)).map removalName =
        (chosen.map (·.digest)).map (repository, ·) := by
      rw [List.map_map, List.map_map]
      rfl
    rw [List.map_append, names]
    refine (distinct.map (Prod.mk_right_injective repository)).append books.ledger.distinct ?_
    intro name here there
    obtain ⟨digest, -, rfl⟩ := List.mem_map.mp here
    obtain ⟨item, mem, same⟩ := List.mem_map.mp there
    have home : item.1 = repository := congrArg Prod.fst same
    exact unread (home ▸ books.listed item mem)
  listed item mem := by
    rcases List.mem_append.mp mem with fresh | old
    · obtain ⟨a, -, rfl⟩ := List.mem_map.mp fresh
      exact List.mem_cons_self
    · exact List.mem_cons_of_mem _ (books.listed item old)

/-- What was dealt with without being counted. -/
theorem Books.drops {item : String × Artifact}
    (books : run.Books way n ⟨known, listed, item :: rest, counted⟩ items) :
    run.Books way (n + 1) ⟨known, listed, rest, counted⟩ items where
  ledger := books.ledger.later
  counted := books.counted
  apart := (List.nodup_cons.mp books.apart).2
  listed other mem := books.listed other (List.mem_cons_of_mem _ mem)

/-- What was found under the name is counted. -/
theorem Books.takes {b : Artifact} {k : Nat}
    (books : run.Books way n ⟨known, listed, (repository, a) :: rest, counted⟩ items)
    (before : k < n + 1) (found : (run.store k).lookup? repository a.digest = some b) :
    run.Books way (n + 1) ⟨known, listed, rest, way.add counted b.size⟩
      ((repository, b) :: items) := by
  obtain digest : b.digest = a.digest := ArtifactStore.digest_of_lookup? found
  have name : removalName (repository, b) = removalName (repository, a) := by
    rw [removalName, removalName, digest]
  have apart : ((rest ++ (repository, b) :: items).map removalName).Nodup := by
    have swapped : ((rest ++ (repository, b) :: items).map removalName).Perm
        (((repository, a) :: rest ++ items).map removalName) := by
      simp only [List.map_append, List.map_cons, name, List.cons_append]
      exact List.perm_middle
    exact swapped.nodup_iff.mpr books.apart
  refine ⟨⟨?_, ?_⟩, Purge.add_le_weight books.counted b, apart, ?_⟩
  · rw [List.map_append] at apart
    exact apart.of_append_right
  · intro item mem
    rcases List.mem_cons.mp mem with rfl | old
    · exact ⟨k, before, digest ▸ found⟩
    · exact books.ledger.later.found item old
  · intro item mem
    rcases List.mem_append.mp mem with later | counted
    · exact books.listed item (List.mem_cons_of_mem _ (List.mem_append_left _ later))
    · rcases List.mem_cons.mp counted with rfl | old
      · exact books.listed (repository, a) List.mem_cons_self
      · exact books.listed item (List.mem_cons_of_mem _ (List.mem_append_right _ old))

end Books

/-! ### Turns -/

variable {ι : Type} [DecidableEq ι] (run : SharedRun ι) (i : ι) (way : Purge)

/-- The purge chose the artifact when it last read the repository, in turn `j`, and has not tried
to remove it since. -/
structure DueSince (j n : Nat) (repository : String) (a : Artifact) : Prop where
  before : j < n
  listed : ∃ artifacts, run.Reads i j repository artifacts ∧ a ∈ way.chooses artifacts
  untried : ∀ k, j < k → k < n → ¬run.Makes i k (.delete repository a.digest)

def Due (n : Nat) (repository : String) (a : Artifact) : Prop :=
  ∃ j, run.DueSince i way j n repository a

/-- Between the turns `j` and `n` the purge tried to remove the artifact. If it is to go on it has
found one of that name. -/
def Settled (j n : Nat) (repository : String) (a : Artifact) : Prop :=
  ∃ k, j < k ∧ k < n ∧ run.Makes i k (.delete repository a.digest) ∧
    (way.tolerant = false → ∃ b, (run.store k).lookup? repository a.digest = some b)

/-- The purge is where its agenda says. -/
structure Follows (n : Nat) (agenda : Agenda) : Prop where
  known : ∀ name ∈ agenda.known, name ∈ (run.store n).names
  read : ∀ j repository artifacts, j < n → run.Reads i j repository artifacts →
    repository ∈ agenda.listed
  due : ∀ item ∈ agenda.doomed, run.Due i way n item.1 item.2
  books : ∃ items, run.Books way n agenda items
  account : way.dry = false → ∀ j repository artifacts, j < n →
    run.Reads i j repository artifacts → ∀ a ∈ way.chooses artifacts,
      (repository, a) ∈ agenda.doomed ∨ run.Settled i way j n repository a

/-- Why a purge that found its repositories ends before it has done all. -/
inductive Trouble (n : Nat) : Fault → Prop
  | commanded {k : Nat} {command : Command} (before : k < n) (turn : run.turns k = .step i)
      (heard : (run.met k).1.heard (run.start i).record.id = some command) :
      Trouble n command.fault
  | missing {k : Nat} {repository : String} {a : Artifact} (real : way.dry = false)
      (strict : way.tolerant = false) (before : k < n) (due : run.Due i way k repository a)
      (makes : run.Makes i k (.delete repository a.digest))
      (gone : (run.store k).lookup? repository a.digest = none) :
      Trouble n (.error (StoreError.artifactNotFound a.digest).toJobError)
  | overfull {items : List (String × Artifact)} (ledger : run.Ledger n items)
      (full : 2 ^ 64 ≤ way.weight (items.map Prod.snd)) :
      Trouble n (.crash Collection.overflow)

/-- How a purge stands before turn `n`. -/
inductive Standing (n : Nat) : Stage → Prop
  | busy {log : OpenLog} {rest : Activity} {agenda : Agenda} (purges : rest.Purges way agenda)
      (follows : run.Follows i way n agenda) : Standing n (.active log rest)
  | quitting {log : OpenLog} {rest : Activity} {f : Fault} (quits : rest.Quits f)
      (trouble : run.Trouble i way n f) : Standing n (.active log rest)
  | finished {known listed : List String} {counted : Nat}
      (follows : run.Follows i way n ⟨known, listed, [], counted⟩) : Standing n (.ended .succeeded)
  | failed {f : Fault} (trouble : run.Trouble i way n f) : Standing n (.ended (.ofFault f))
  | reported (outcome : Outcome) : Standing n (.reported outcome)
  | decided (result : Except JobError Unit) : Standing n (.decided result)

/-- The delivery is at the start of a purge. -/
structure Purging : Prop where
  begins : ∃ log rest known, (run.start i).stage = .active log rest ∧
    rest.Purges way ⟨known, [], [], 0⟩ ∧ ∀ name ∈ known, name ∈ (run.store 0).names

/-- The delivery has just called its job. -/
def Calls (job : Job) (parameters : Parameters) : Prop :=
  ∃ record log earlier, record.parameters = parameters ∧
    run.start i = .called job record log earlier

section Step

variable {run i way} {n : Nat} {agenda : Agenda} {repository : String} {a : Artifact}

theorem DueSince.later {j : Nat} (due : run.DueSince i way j n repository a)
    (untried : ¬run.Makes i n (.delete repository a.digest)) :
    run.DueSince i way j (n + 1) repository a where
  before := by
    have := due.before
    omega
  listed := due.listed
  untried k after before := by
    rcases Nat.lt_succ_iff_lt_or_eq.mp before with early | rfl
    · exact due.untried k after early
    · exact untried

theorem Settled.later {j : Nat} (settled : run.Settled i way j n repository a) :
    run.Settled i way j (n + 1) repository a := by
  obtain ⟨k, after, before, rest⟩ := settled
  exact ⟨k, after, by omega, rest⟩

theorem Trouble.later {f : Fault} (trouble : run.Trouble i way n f) :
    run.Trouble i way (n + 1) f := by
  cases trouble with
  | commanded before turn heard => exact .commanded (by omega) turn heard
  | missing real strict before due makes gone => exact .missing real strict (by omega) due makes gone
  | overfull ledger full => exact .overfull ledger.later full

theorem Books.overfull {items : List (String × Artifact)} (books : run.Books way n agenda items)
    (full : 2 ^ 64 ≤ agenda.counted) :
    run.Trouble i way n (.crash Collection.overflow) :=
  .overfull books.ledger (full.trans books.counted)

theorem Follows.distinct (follows : run.Follows i way n agenda) :
    (agenda.doomed.map removalName).Nodup := by
  obtain ⟨items, books⟩ := follows.books
  have apart := books.apart
  rw [List.map_append] at apart
  exact apart.of_append_left

/-- In a turn without a call a purge keeps its agenda. -/
theorem Follows.idle (one : run.OnOneStore) (follows : run.Follows i way n agenda)
    (idle : ∀ access, ¬run.Makes i n access) : run.Follows i way (n + 1) agenda where
  known name mem := one.known_later (follows.known name mem) n.le_succ
  read j repository artifacts before reads := by
    rcases Nat.lt_succ_iff_lt_or_eq.mp before with early | rfl
    · exact follows.read j repository artifacts early reads
    · exact absurd reads.makes (idle _)
  due item mem := by
    obtain ⟨j, due⟩ := follows.due item mem
    exact ⟨j, due.later (idle _)⟩
  books := by
    obtain ⟨items, books⟩ := follows.books
    exact ⟨items, books.later⟩
  account real j repository artifacts before reads a mem := by
    rcases Nat.lt_succ_iff_lt_or_eq.mp before with early | rfl
    · exact (follows.account real j repository artifacts early reads a mem).imp id Settled.later
    · exact absurd reads.makes (idle _)

/-- The repositories that it found become known. -/
theorem Follows.finds {known listed names : List String} {counted : Nat}
    (follows : run.Follows i way n ⟨known, listed, [], counted⟩)
    (there : ∀ name ∈ names, name ∈ (run.store n).names) :
    run.Follows i way n ⟨names, listed, [], counted⟩ where
  known := there
  read := follows.read
  due := follows.due
  books := by
    obtain ⟨items, books⟩ := follows.books
    exact ⟨items, books.ledger, books.counted, books.apart, books.listed⟩
  account := follows.account

/-- What was chosen from a listing becomes due. -/
theorem Follows.lists {known listed : List String} {counted : Nat} {artifacts : List Artifact}
    (one : run.OnOneStore) (follows : run.Follows i way n ⟨known, listed, [], counted⟩)
    (unread : repository ∉ listed) (reads : run.Reads i n repository artifacts) :
    run.Follows i way (n + 1)
      ⟨known, repository :: listed, (way.chooses artifacts).map (repository, ·), counted⟩ where
  known name mem := one.known_later (follows.known name mem) n.le_succ
  read j other others before also := by
    rcases Nat.lt_succ_iff_lt_or_eq.mp before with early | rfl
    · exact List.mem_cons_of_mem _ (follows.read j other others early also)
    · obtain rfl := Access.list.inj (reads.makes.same also.makes).2
      exact List.mem_cons_self
  due item mem := by
    obtain ⟨a, chosen, rfl⟩ := List.mem_map.mp mem
    refine ⟨n, n.lt_succ_self, ⟨artifacts, reads, chosen⟩, fun k after before => ?_⟩
    omega
  books := by
    obtain ⟨items, books⟩ := follows.books
    have distinct := (one.sound_at n).distinct_of_artifacts?
      (ArtifactStore.list_eq_ok.mp reads.answer)
    exact ⟨items, books.lists unread (way.distinct distinct)⟩
  account real j other others before also a mem := by
    rcases Nat.lt_succ_iff_lt_or_eq.mp before with early | rfl
    · rcases follows.account real j other others early also a mem with none | settled
      · cases none
      · exact .inr settled.later
    · obtain ⟨-, same⟩ := reads.makes.same also.makes
      obtain rfl := Access.list.inj same
      obtain rfl := Except.ok.inj (reads.answer.symm.trans also.answer)
      exact .inl (List.mem_map_of_mem mem)

/-- What was due is settled. -/
theorem Follows.removes {known listed : List String} {rest items : List (String × Artifact)}
    {counted later : Nat} (one : run.OnOneStore)
    (follows : run.Follows i way n ⟨known, listed, (repository, a) :: rest, counted⟩)
    (makes : run.Makes i n (.delete repository a.digest))
    (found : way.tolerant = false → ∃ b, (run.store n).lookup? repository a.digest = some b)
    (books : run.Books way (n + 1) ⟨known, listed, rest, later⟩ items) :
    run.Follows i way (n + 1) ⟨known, listed, rest, later⟩ where
  known name mem := one.known_later (follows.known name mem) n.le_succ
  read j other artifacts before reads := by
    rcases Nat.lt_succ_iff_lt_or_eq.mp before with early | rfl
    · exact follows.read j other artifacts early reads
    · cases (makes.same reads.makes).2
  due item mem := by
    obtain ⟨j, due⟩ := follows.due item (List.mem_cons_of_mem _ mem)
    have fresh := (List.nodup_cons.mp follows.distinct).1
    refine ⟨j, due.later fun again => fresh ?_⟩
    obtain ⟨-, same⟩ := makes.same again
    obtain ⟨home, digest⟩ := Access.delete.inj same
    exact List.mem_map.mpr ⟨item, mem, by rw [removalName, removalName, home, digest]⟩
  books := ⟨items, books⟩
  account real j other artifacts before reads b mem := by
    rcases Nat.lt_succ_iff_lt_or_eq.mp before with early | rfl
    · rcases follows.account real j other artifacts early reads b mem with doomed | settled
      · rcases List.mem_cons.mp doomed with same | later
        · obtain ⟨rfl, rfl⟩ := Prod.mk.inj same
          exact .inr ⟨n, early, n.lt_succ_self, makes, found⟩
        · exact .inl later
      · exact .inr settled.later
    · cases (makes.same reads.makes).2

/-- In a dry run what was due is passed over. -/
theorem Follows.rehearses {known listed : List String} {rest items : List (String × Artifact)}
    {counted later : Nat} {item : String × Artifact}
    (follows : run.Follows i way n ⟨known, listed, item :: rest, counted⟩) (dry : way.dry = true)
    (books : run.Books way n ⟨known, listed, rest, later⟩ items) :
    run.Follows i way n ⟨known, listed, rest, later⟩ where
  known := follows.known
  read := follows.read
  due other mem := follows.due other (List.mem_cons_of_mem _ mem)
  books := ⟨items, books⟩
  account real := by
    rw [dry] at real
    cases real

theorem Standing.idle {stage : Stage} (one : run.OnOneStore) (standing : run.Standing i way n stage)
    (idle : ∀ access, ¬run.Makes i n access) : run.Standing i way (n + 1) stage := by
  cases standing with
  | busy purges follows => exact .busy purges (follows.idle one idle)
  | quitting quits trouble => exact .quitting quits trouble.later
  | finished follows => exact .finished (follows.idle one idle)
  | failed trouble => exact .failed trouble.later
  | reported outcome => exact .reported outcome
  | decided result => exact .decided result

/-- A removal finds what is due, or another artifact of that name, or none. -/
theorem standing_delete {log : OpenLog} {known listed : List String} {counted : Nat}
    {rest : List (String × Artifact)} {next : Except StoreError UInt64 → Activity}
    (one : run.OnOneStore)
    (follows : run.Follows i way n ⟨known, listed, (repository, a) :: rest, counted⟩)
    (makes : run.Makes i n (.delete repository a.digest)) (real : way.dry = false)
    (goes : ∀ bytes, way.add counted bytes < 2 ^ 64 →
      (next (.ok bytes)).Purges way ⟨known, listed, rest, way.add counted bytes⟩)
    (bursts : ∀ bytes, 2 ^ 64 ≤ way.add counted bytes →
      (next (.ok bytes)).Quits (.crash Collection.overflow))
    (skips : way.tolerant = true → ∀ e,
      (next (.error e)).Purges way ⟨known, listed, rest, counted⟩)
    (fails : way.tolerant = false →
      ∀ e, (next (.error e)).Quits (.error (StoreError.toJobError e))) :
    run.Standing i way (n + 1)
      (.active log (next ((run.met n).1.deleteArtifact repository a.digest).1)) := by
  have answer : ((run.met n).1.deleteArtifact repository a.digest).1 =
      ((run.store n).delete repository a.digest).map (·.1) :=
    (Engine.deleteArtifact_serving (one.serves n) repository a.digest).1
  rw [answer]
  obtain ⟨items, books⟩ := follows.books
  cases found : (run.store n).lookup? repository a.digest with
  | some b =>
    rw [(one.sound_at n).delete_found found]
    have counted := books.takes n.lt_succ_self found
    rcases lt_or_ge (way.add _ b.size) (2 ^ 64) with fits | full
    · exact .busy (goes b.size fits) (follows.removes one makes (fun _ => ⟨b, found⟩) counted)
    · exact .quitting (bursts b.size full) (counted.overfull full)
  | none =>
    obtain ⟨j, due⟩ := follows.due _ List.mem_cons_self
    obtain ⟨artifacts, reads, -⟩ := due.listed
    have known := one.known_later (ArtifactStore.mem_names_of_list reads.answer) due.before.le
    rw [ArtifactStore.delete_missing found, if_pos known]
    cases strict : way.tolerant with
    | true =>
      refine .busy (skips strict _) (follows.removes one makes (fun also => ?_) books.drops)
      rw [strict] at also
      cases also
    | false =>
      exact .quitting (fails strict _) (.missing real strict n.lt_succ_self ⟨j, due⟩ makes found)

/-- A dry run counts what is due as it was listed. -/
theorem standing_rehearse {log : OpenLog} {known listed : List String} {counted : Nat}
    {rest : List (String × Artifact)} {next : Activity} (one : run.OnOneStore)
    (follows : run.Follows i way n ⟨known, listed, (repository, a) :: rest, counted⟩)
    (idle : ∀ access, ¬run.Makes i n access) (dry : way.dry = true)
    (goes : way.add counted a.size < 2 ^ 64 →
      next.Purges way ⟨known, listed, rest, way.add counted a.size⟩)
    (bursts : 2 ^ 64 ≤ way.add counted a.size → next.Quits (.crash Collection.overflow)) :
    run.Standing i way (n + 1) (.active log next) := by
  obtain ⟨items, books⟩ := follows.books
  obtain ⟨j, due⟩ := follows.due _ List.mem_cons_self
  obtain ⟨artifacts, reads, chosen⟩ := due.listed
  obtain ⟨order, same, within⟩ := way.chosen artifacts
  have mem : a ∈ artifacts := within.subset (same.mem_iff.mpr chosen)
  have found := (one.sound_at j).lookup?_of_mem reads.answer mem
  have before : j < n + 1 := by
    have := due.before
    omega
  have counted := books.takes before found
  rcases lt_or_ge (way.add _ a.size) (2 ^ 64) with fits | full
  · exact .busy (goes fits) ((follows.idle one idle).rehearses dry counted)
  · exact .quitting (bursts full) (counted.overfull full)

theorem standing_acts {log : OpenLog} {rest : Activity} (one : run.OnOneStore)
    (turn : run.turns n = .step i) (active : (run.hand n i).stage = .active log rest)
    (purges : rest.Purges way agenda) (follows : run.Follows i way n agenda) :
    run.Standing i way (n + 1) (run.hand (n + 1) i).stage := by
  have silent (none : rest.access? = none) := follows.idle one (not_makes_active active none)
  rw [hand_acts turn active]
  cases purges with
  | done known listed counted => exact .finished (silent rfl)
  | log goes | checkIn goes => exact .busy goes (silent rfl)
  | @poll _ next goes halts =>
    show run.Standing i way (n + 1)
      (.active log (next ((run.met n).1.heard (run.hand n i).record.id)))
    cases heard : (run.met n).1.heard (run.hand n i).record.id with
    | none => exact .busy goes (silent rfl)
    | some command =>
      rw [hand_id] at heard
      exact .quitting (halts command) (.commanded n.lt_succ_self turn heard)
  | @repositories _ _ _ next goes =>
    have answer : (run.met n).1.listRepositories = .ok (run.store n).names := by
      simp only [Engine.listRepositories, one.serves n, List.not_mem_nil, if_false, store]
    show run.Standing i way (n + 1) (.active log (next (run.met n).1.listRepositories))
    rw [answer]
    exact .busy (goes _ (one.sound_at n).names_nodup)
      ((silent rfl).finds fun name mem => one.known_later mem n.le_succ)
  | @list _ _ _ repository next there unread goes =>
    obtain ⟨artifacts, listed⟩ := ArtifactStore.list_of_mem_names (follows.known _ there)
    have answer : (run.met n).1.listArtifacts repository = .ok artifacts := by
      simp only [Engine.listArtifacts, one.serves n, List.not_mem_nil, if_false]
      exact listed
    show run.Standing i way (n + 1) (.active log (next ((run.met n).1.listArtifacts repository)))
    rw [answer]
    exact .busy (goes _) (follows.lists one unread ⟨makes_active turn active rfl, listed⟩)
  | delete real goes bursts skips fails =>
    exact standing_delete one follows (makes_active turn active rfl) real goes bursts skips fails
  | rehearse dry goes bursts =>
    exact standing_rehearse one follows (not_makes_active active rfl) dry goes bursts

theorem standing_succ (one : run.OnOneStore)
    (standing : run.Standing i way n (run.hand n i).stage) :
    run.Standing i way (n + 1) (run.hand (n + 1) i).stage := by
  rcases run.hand_cases i n with ⟨turn, next⟩ | ⟨turn, same⟩
  · generalize here : (run.hand n i).stage = stage at standing
    cases standing with
    | busy purges follows => exact standing_acts one turn here purges follows
    | quitting quits trouble =>
      rw [hand_acts turn here]
      cases quits with
      | fault f => exact .failed trouble.later
      | log quits => exact .quitting quits trouble.later
    | finished | failed =>
      rw [next, Delivery.step, here]
      exact .reported _
    | reported outcome =>
      rw [next, Delivery.step, here]
      dsimp only
      split <;> exact .decided _
    | decided result =>
      rw [next, Delivery.step, here]
      simp only [here]
      exact .decided result
  · rw [same]
    exact standing.idle one fun access makes => turn makes.turn

end Step

section Run

variable {run i way}

theorem Purging.ends (purging : run.Purging i way) (fair : run.Fair i) :
    ∃ n outcome, (run.hand n i).stage = .ended outcome := by
  obtain ⟨log, rest, known, active, -⟩ := purging.begins
  exact ends_later (n := 0) fair active

variable (one : run.OnOneStore) (purging : run.Purging i way)

include one purging

theorem Purging.standing (n : Nat) : run.Standing i way n (run.hand n i).stage := by
  induction n with
  | zero =>
    obtain ⟨log, rest, known, active, purges, there⟩ := purging.begins
    rw [hand, active]
    refine .busy purges ⟨there, ?_, ?_, ⟨[], ⟨List.nodup_nil, ?_⟩, ?_, List.nodup_nil, ?_⟩, ?_⟩
    · intro j repository artifacts before
      cases before
    · intro item mem
      cases mem
    · intro item mem
      cases mem
    · exact Nat.zero_le _
    · intro item mem
      cases mem
    · intro real j repository artifacts before
      cases before
  | succ n ih => exact standing_succ one ih

/-- A purge that makes a call is not quitting. -/
theorem Purging.busy {n : Nat} {access : Access} (makes : run.Makes i n access) :
    ∃ rest agenda, Activity.access? rest = some access ∧ rest.Purges way agenda ∧
      run.Follows i way n agenda := by
  have standing := purging.standing one n
  have calls := makes.access
  rw [Delivery.access?] at calls
  split at calls
  · rename_i log rest active
    rw [active] at standing
    cases standing with
    | busy purges follows => exact ⟨rest, _, calls, purges, follows⟩
    | quitting quits trouble => cases quits <;> cases calls
  · cases calls

/-- A purge does not order commands. -/
theorem Purging.obeys (n : Nat) (log : OpenLog) (command : Command)
    (next : Except QueueError Unit → Activity) :
    (run.hand n i).stage ≠ .active log (.order command next) := by
  intro active
  have standing := purging.standing one n
  rw [active] at standing
  cases standing with
  | busy purges follows => cases purges
  | quitting quits trouble => cases quits

/-- A purge tries to remove what is due. -/
theorem Purging.due {n : Nat} {repository digest : String}
    (makes : run.Makes i n (.delete repository digest)) :
    ∃ a, a.digest = digest ∧ run.Due i way n repository a := by
  obtain ⟨rest, agenda, calls, purges, follows⟩ := purging.busy one makes
  cases purges with
  | @delete _ _ _ home a rest =>
    obtain ⟨rfl, rfl⟩ := Access.delete.inj (Option.some.inj calls)
    exact ⟨a, rfl, follows.due _ List.mem_cons_self⟩
  | _ => cases calls

/-- A purge lists a repository once. -/
theorem Purging.reads_once {j n : Nat} {repository : String} {artifacts others : List Artifact}
    (early : run.Reads i j repository artifacts) (late : run.Reads i n repository others) :
    n ≤ j := by
  by_contra later
  obtain ⟨rest, agenda, calls, purges, follows⟩ := purging.busy one late.makes
  cases purges with
  | list there unread goes =>
    obtain rfl := Access.list.inj (Option.some.inj calls)
    exact unread (follows.read j _ artifacts (by omega) early)
  | _ => cases calls

/-- When a purge has ended, all that it chose to remove is settled, or it met with trouble. -/
theorem Purging.ended {n : Nat} {outcome : Outcome}
    (ends : (run.hand n i).stage = .ended outcome) :
    (outcome = .succeeded ∧ (way.dry = false → ∀ j repository artifacts, j < n →
        run.Reads i j repository artifacts → ∀ a ∈ way.chooses artifacts,
          run.Settled i way j n repository a)) ∨
      ∃ f, outcome = .ofFault f ∧ run.Trouble i way n f := by
  have standing := purging.standing one n
  rw [ends] at standing
  cases standing with
  | finished follows =>
    refine .inl ⟨rfl, fun real j repository artifacts before reads a mem => ?_⟩
    rcases follows.account real j repository artifacts before reads a mem with none | settled
    · cases none
    · exact settled
  | failed trouble => exact .inr ⟨_, rfl, trouble⟩

end Run

section Jobs

variable {κ : Type} {run : SharedRun κ} {i : κ} {parameters : Parameters}

theorem purging_collection {params : Collection.Params}
    (decoded : Collection.Params.decode parameters = .ok params)
    (calls : run.Calls i Collection.job parameters) :
    run.Purging i (Collection.purge params.dryRun) := by
  obtain ⟨record, log, earlier, rfl, start⟩ := calls
  refine ⟨⟨log, Collection.run params, [], ?_, Collection.purges_run params, by simp⟩⟩
  simp only [start, Delivery.called, Collection.job, decoded]

theorem purging_retention {params : Retention.Params}
    (decoded : Retention.Params.decode parameters = .ok params)
    (calls : run.Calls i Retention.job parameters)
    (present : params.repository ∈ (run.store 0).names) :
    run.Purging i (Retention.purge params.retain.toNat params.dryRun) := by
  obtain ⟨record, log, earlier, rfl, start⟩ := calls
  refine ⟨⟨log, Retention.run params, [params.repository], ?_, Retention.purges_run params,
    by simpa using present⟩⟩
  simp only [start, Delivery.called, Retention.job, decoded]

end Jobs

end SharedRun

end JobEngine
