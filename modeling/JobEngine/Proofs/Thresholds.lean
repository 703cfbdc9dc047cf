import JobEngine.Pool
import Mathlib.Data.List.Nodup

/-!
# The budgets that a pool registers

The retry policy and the queue each look up a budget, the policy in the job
and the queue in its own table. A pool that starts fills that table. From then
on the two agree on every record of a registered type.
-/
namespace JobEngine

/-- A registry that came about by registrations. -/
inductive Registry.Built : Registry → Prop
  | empty : Built {}
  | grown {registry more : Registry} {job : Job} (built : Built registry)
      (accepted : registry.register job = .ok more) : Built more

/-- A type that is known is refused, so no two jobs share one. -/
theorem Registry.Built.distinct {registry : Registry} (built : registry.Built) :
    (registry.jobs.map (·.jobType)).Nodup := by
  induction built with
  | empty => simp
  | @grown registry more job _ accepted ih =>
    simp only [Registry.register] at accepted
    split at accepted
    · cases accepted
    · rename_i unknown
      obtain rfl : _ = more := Except.ok.inj accepted
      have fresh : job.jobType ∉ registry.jobs.map (·.jobType) := by
        simpa [Registry.find?] using unknown
      simp only [List.map_append, List.map_cons, List.map_nil]
      exact List.nodup_append.mpr ⟨ih, by simp, fun a ha b hb => by
        rintro rfl
        exact fresh (List.mem_singleton.mp hb ▸ ha)⟩

namespace Queue

theorem typeThreshold_setThreshold (q : Queue) (jobType other : String) (n : UInt32) :
    (q.setThreshold jobType n).typeThreshold other =
      if other = jobType then n else q.typeThreshold other := by
  simp only [typeThreshold, setThreshold]
  by_cases same : other = jobType
  · subst same
    simp
  · have differ : jobType ≠ other := fun h => same h.symm
    simp only [List.find?_cons, differ, same, decide_false, if_false]
    congr 2
    rw [List.find?_filter]
    congr 1
    funext entry
    by_cases h : entry.1 = other <;> simp [h, same]

/-- A threshold depends on the table alone. -/
theorem threshold_congr {q r : Queue} (h : q.thresholds = r.thresholds) (record : Record) :
    q.threshold record = r.threshold record := by
  simp only [threshold, typeThreshold, h]

/-- Neither the identifier nor the failures of a record matter for its threshold. -/
theorem threshold_fails (q : Queue) (record : Record) (fails : UInt64) :
    q.threshold { record with fails } = q.threshold record := rfl

end Queue

/-- Each job's budget is in the table once all of them were set, whatever stood there before. -/
theorem typeThreshold_registered (policy : RetryPolicy) (jobs : List Job) (q : Queue)
    (distinct : (jobs.map (·.jobType)).Nodup) {job : Job} (known : job ∈ jobs) :
    (jobs.foldl (fun q job => q.setThreshold job.jobType (policy.budgetOf job)) q).typeThreshold
      job.jobType = policy.budgetOf job := by
  -- the table is only overwritten for the jobs that still follow, none of which has this type
  have kept : ∀ (jobs : List Job) (q : Queue) (jobType : String),
      jobType ∉ jobs.map (·.jobType) →
      (jobs.foldl (fun q job => q.setThreshold job.jobType (policy.budgetOf job)) q).typeThreshold
        jobType = q.typeThreshold jobType := by
    intro jobs
    induction jobs with
    | nil => intro q jobType _; rfl
    | cons first rest ih =>
      intro q jobType absent
      simp only [List.map_cons, List.mem_cons, not_or] at absent
      rw [List.foldl_cons, ih _ _ absent.2, Queue.typeThreshold_setThreshold, if_neg absent.1]
  induction jobs generalizing q with
  | nil => cases known
  | cons first rest ih =>
    obtain ⟨absent, distinct⟩ := List.nodup_cons.mp distinct
    rcases List.mem_cons.mp known with rfl | known
    · rw [List.foldl_cons, kept _ _ _ absent, Queue.typeThreshold_setThreshold, if_pos rfl]
    · exact ih _ distinct known

namespace Registry

theorem find?_some {registry : Registry} {jobType : String} {job : Job}
    (h : registry.find? jobType = some job) : job ∈ registry.jobs ∧ job.jobType = jobType :=
  ⟨List.mem_of_find?_eq_some h, by simpa using List.find?_some h⟩

end Registry

namespace Pool

/-- Of the engine only the table is written. -/
theorem registerThresholds_eq (policy : RetryPolicy) (e : Engine) :
    ∃ thresholds, registerThresholds policy e = { e with queue := { e.queue with thresholds } } := by
  have table : ∀ (jobs : List Job) (q : Queue), ∃ thresholds,
      jobs.foldl (fun q job => q.setThreshold job.jobType (policy.budgetOf job)) q =
        { q with thresholds } := by
    intro jobs
    induction jobs with
    | nil => exact fun q => ⟨q.thresholds, rfl⟩
    | cons job rest ih => exact fun q => ih (q.setThreshold job.jobType (policy.budgetOf job))
  obtain ⟨thresholds, written⟩ := table e.registry.jobs e.queue
  exact ⟨thresholds, by rw [registerThresholds, written]⟩

/-- What a pool that has started leaves of the engine, apart from its logs. -/
theorem start_ok {settings : PoolSettings} {e engine : Engine} {pool : Pool}
    (h : Pool.start settings e = .ok (pool, engine)) :
    0 < settings.workers ∧
    pool = ⟨settings, List.replicate settings.workers .asking, { grace := settings.grace }, false⟩ ∧
    ∃ logs, engine = registerThresholds ⟨settings.defaultMaxFails⟩ { e with logs } := by
  simp only [Pool.start] at h
  split at h
  · cases h
  · rename_i staffed
    refine ⟨by omega, ?_⟩
    cases directory : settings.logDirectory with
    | none =>
      simp only [directory] at h
      obtain ⟨rfl, rfl⟩ := Prod.mk.inj (Except.ok.inj h)
      exact ⟨rfl, e.logs, rfl⟩
    | some path =>
      simp only [directory] at h
      cases created : e.logs.files.createDirectories path with
      | error err =>
        simp only [created] at h
        cases h
      | ok files =>
        simp only [created] at h
        obtain ⟨rfl, rfl⟩ := Prod.mk.inj (Except.ok.inj h)
        exact ⟨rfl, { e.logs with files }, rfl⟩

/-- From its start on the queue lets a record of a registered type die at the policy's budget. -/
theorem threshold_of_start {settings : PoolSettings} {e engine : Engine} {pool : Pool}
    (h : Pool.start settings e = .ok (pool, engine)) (built : e.registry.Built)
    {record : Record} {job : Job} (known : e.registry.find? record.jobType = some job) :
    engine.queue.threshold record =
      RetryPolicy.effectiveBudget ⟨settings.defaultMaxFails⟩ job record := by
  obtain ⟨_, _, logs, rfl⟩ := start_ok h
  obtain ⟨mem, type⟩ := Registry.find?_some known
  have registered := typeThreshold_registered ⟨settings.defaultMaxFails⟩ e.registry.jobs e.queue
    built.distinct mem
  rw [type] at registered
  simp only [registerThresholds, Queue.threshold, RetryPolicy.effectiveBudget]
  exact congrArg _ registered

end Pool

end JobEngine
