import JobEngine.Activity

/-!
# The retry policy

A record may be delivered until its failures reach a budget: its own, else its
job's, else the service's. The queue keeps that count; the policy only decides
when a record must not be retried although its budget is not spent.
-/
namespace JobEngine

/-- The budget of a job that does not declare one. -/
def defaultMaxFails : UInt32 := 4

structure RetryPolicy where
  defaultMaxFails : UInt32 := JobEngine.defaultMaxFails
deriving DecidableEq, Repr

namespace RetryPolicy

/-- The budget of a job type, before any override by a record. -/
def budgetOf (policy : RetryPolicy) (job : Job) : UInt32 :=
  if job.maxFails = 0 then policy.defaultMaxFails else job.maxFails

def effectiveBudget (policy : RetryPolicy) (job : Job) (record : Record) : UInt32 :=
  record.override?.getD (policy.budgetOf job)

/-- Whether the record must be kept from being retried. The failure at hand is not counted yet;
once it exhausts the budget the queue lets the record die by itself. -/
def disablesRetry (policy : RetryPolicy) (job : Job) (record : Record) (cancelled : Bool) : Bool :=
  (countFailure record.fails).toNat < (policy.effectiveBudget job record).toNat &&
    (cancelled || !job.shouldRetry)

end RetryPolicy

end JobEngine
