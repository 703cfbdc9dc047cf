import JobEngine.Periodic
import Mathlib.Data.List.Induction

/-!
# The list of policies and the table of timers

A policy is listed when the table of timers has taken it, and it is forgotten
before the table is asked to let it go. So whatever is listed has its timer.
The converse fails for the policies whose removal the table refused: they fire
on, and they cannot be unscheduled, because they are not listed any more.
-/
namespace JobEngine.Periodic

/-- What is asked of the policies, and what the table of timers says to it. -/
inductive Call
  | schedule (request : Request) (cron : String) (id : JobId) (now : Nat)
      (answer : Except String Unit)
  | unschedule (id : JobId) (answer : Except String Unit)

variable (registry : Registry)

def call (p : Periodic) : Call → Except CheckFault Unit × Periodic
  | .schedule request cron id now answer =>
    match p.schedule registry request cron id now answer with
    | .ok later => (.ok (), later)
    | .error fault => (.error fault, p)
  | .unschedule id answer =>
    match p.unschedule id answer with
    | (.ok (), later) => (.ok (), later)
    | (.error e, later) => (.error (.refused e), later)

/-- The policies after some calls. -/
def after (calls : List Call) : Periodic := calls.foldl (fun p c => (p.call registry c).2) {}

/-- The identifiers that are answered when the policies are asked for. -/
def listed (p : Periodic) : List JobId := p.sortedPolicies.map (·.id)

/-- The identifiers of the timers. -/
def registered (p : Periodic) : List JobId := p.timers.map (·.id)

/-- What each policy says is submitted. -/
def promised (p : Periodic) : List (JobId × String × Parameters) :=
  p.policies.map fun q => (q.id, q.jobType, q.parameters)

/-- What each timer submits. -/
def fired (p : Periodic) : List (JobId × String × Parameters) :=
  p.timers.map fun t => (t.id, t.request.jobType, t.request.parameters)

/-- The policies without one of them, and all timers. -/
def forget (p : Periodic) (id : JobId) : Periodic :=
  { p with policies := p.policies.filter (·.id ≠ id) }

/-- The identifier that a call adds to both. -/
def Call.adds : Call → Option JobId
  | .schedule request cron id _ answer =>
    if (Client.check registry request).isOk ∧ (Time.Cron.parse? cron).isSome ∧ answer.isOk then
      some id
    else none
  | .unschedule _ _ => none

/-- The table of timers refused to remove a policy that was listed then, and it was not scheduled
anew since. -/
def Stranded (calls : List Call) (id : JobId) : Prop :=
  ∃ before reason later, calls = before ++ .unschedule id (.error reason) :: later ∧
    id ∈ (after registry before).listed ∧ ∀ c ∈ later, c.adds registry ≠ some id

variable {registry : Registry} {p : Periodic} {id : JobId}

/-! ## One call -/

theorem mem_listed : id ∈ p.listed ↔ ∃ q ∈ p.policies, q.id = id := by
  simp only [listed, sortedPolicies, List.mem_map, List.mem_mergeSort]

theorem mem_registered : id ∈ p.registered ↔ ∃ t ∈ p.timers, t.id = id := List.mem_map

theorem mem_forget {other : JobId} :
    other ∈ (p.forget id).listed ↔ other ∈ p.listed ∧ other ≠ id := by
  simp only [mem_listed, forget, List.mem_filter, decide_eq_true_eq]
  constructor
  · rintro ⟨q, ⟨mem, apart⟩, rfl⟩
    exact ⟨⟨q, mem, rfl⟩, apart⟩
  · rintro ⟨⟨q, mem, rfl⟩, apart⟩
    exact ⟨q, ⟨mem, apart⟩, rfl⟩

/-- All that a call can do. -/
inductive Happens (registry : Registry) (p : Periodic) :
    Call → Except CheckFault Unit → Periodic → Prop
  | added {request : Request} {cron : String} {id : JobId} {now : Nat} {pattern : Time.Cron}
      (adds : (Call.schedule request cron id now (.ok ())).adds registry = some id) :
      Happens registry p (.schedule request cron id now (.ok ())) (.ok ()) { p with
        policies := p.policies ++ [⟨id, request.jobType, cron, request.parameters⟩]
        timers := p.timers ++ [⟨id, request, pattern, nextAfter pattern now⟩] }
  | turnedDown {request : Request} {cron : String} {id : JobId} {now : Nat}
      {answer : Except String Unit} {fault : CheckFault}
      (adds : (Call.schedule request cron id now answer).adds registry = none) :
      Happens registry p (.schedule request cron id now answer) (.error fault) p
  | unknown {id : JobId} {answer : Except String Unit} (missing : id ∉ p.listed) :
      Happens registry p (.unschedule id answer) (.error (.refused (.policyNotFound id))) p
  | kept {id : JobId} {reason : String} (there : id ∈ p.listed) :
      Happens registry p (.unschedule id (.error reason)) (.error (.refused (.scheduler reason)))
        (p.forget id)
  | removed {id : JobId} (there : id ∈ p.listed) :
      Happens registry p (.unschedule id (.ok ())) (.ok ())
        { p.forget id with timers := p.timers.filter (·.id ≠ id) }

theorem all_ne_iff : p.policies.all (·.id ≠ id) = true ↔ id ∉ p.listed := by
  simp [mem_listed]

theorem happens (p : Periodic) (c : Call) :
    Happens registry p c (p.call registry c).1 (p.call registry c).2 := by
  cases c with
  | schedule request cron id now answer =>
    simp only [call, schedule]
    cases checked : Client.check registry request with
    | error fault => exact .turnedDown (by simp [Call.adds, checked, Except.isOk, Except.toBool])
    | ok _ =>
      cases pattern : Time.Cron.parse? cron with
      | none => exact .turnedDown (by simp [Call.adds, pattern])
      | some pattern' =>
        cases answer with
        | error reason => exact .turnedDown (by simp [Call.adds, Except.isOk, Except.toBool])
        | ok _ => exact .added (by simp [Call.adds, checked, pattern, Except.isOk, Except.toBool])
  | unschedule id answer =>
    simp only [call, unschedule]
    by_cases missing : p.policies.all (·.id ≠ id) = true
    · rw [if_pos missing]
      exact .unknown (all_ne_iff.mp missing)
    · rw [if_neg missing]
      have there : id ∈ p.listed := by
        rw [all_ne_iff] at missing
        exact Classical.not_not.mp missing
      cases answer with
      | error reason => exact .kept there
      | ok _ => exact .removed there

/-! ## Many calls -/

theorem after_concat (calls : List Call) (c : Call) :
    after registry (calls ++ [c]) = ((after registry calls).call registry c).2 := by
  rw [after, List.foldl_append]
  rfl

theorem stranded_concat {calls : List Call} {c : Call} :
    Stranded registry (calls ++ [c]) id ↔
      (∃ reason, c = .unschedule id (.error reason) ∧ id ∈ (after registry calls).listed) ∨
        (Stranded registry calls id ∧ c.adds registry ≠ some id) := by
  constructor
  · rintro ⟨before, reason, later, same, there, since⟩
    rcases List.eq_nil_or_concat later with rfl | ⟨later, last, rfl⟩
    · obtain ⟨rfl, final⟩ := List.append_inj' same rfl
      exact Or.inl ⟨reason, List.singleton_inj.mp final, there⟩
    · rw [List.concat_eq_append] at same since
      rw [← List.cons_append, ← List.append_assoc] at same
      obtain ⟨rfl, final⟩ := List.append_inj' same rfl
      obtain rfl := List.singleton_inj.mp final
      exact Or.inr ⟨⟨before, reason, later, rfl, there, fun c mem =>
        since c (List.mem_append_left _ mem)⟩, since c (by simp)⟩
  · rintro (⟨reason, rfl, there⟩ | ⟨⟨before, reason, later, rfl, there, since⟩, other⟩)
    · exact ⟨calls, reason, [], rfl, there, by simp⟩
    · refine ⟨before, reason, later ++ [c], by simp, there, fun d mem => ?_⟩
      rcases List.mem_append.mp mem with mem | mem
      · exact since d mem
      · rw [List.mem_singleton.mp mem]
        exact other

/-- What is listed has its timer, and what has a timer and is not listed is stranded. -/
structure Accounts (registry : Registry) (calls : List Call) (p : Periodic) : Prop where
  registered : ∀ id, id ∈ p.registered ↔ id ∈ p.listed ∨ Stranded registry calls id
  stranded : ∀ id, Stranded registry calls id → id ∉ p.listed
  promised : p.promised.Sublist p.fired

namespace Accounts

variable {calls : List Call} (accounts : Accounts registry calls p)

theorem nothing : Accounts registry [] {} := by
  have none (id : JobId) : ¬Stranded registry [] id := by
    rintro ⟨before, reason, later, same, -⟩
    simp at same
  refine ⟨fun id => ?_, fun id stranded => absurd stranded (none id), .slnil⟩
  simp [mem_registered, mem_listed, none]

include accounts

/-- A call that leaves list and table alone, and strands nothing. -/
theorem same {c : Call} {later : Periodic} (reached : after registry calls = p)
    (listed : ∀ id, id ∈ later.listed ↔ id ∈ p.listed)
    (registered : ∀ id, id ∈ later.registered ↔ id ∈ p.registered)
    (promised : later.promised.Sublist later.fired) (adds : c.adds registry = none)
    (held : ∀ id reason, c = .unschedule id (.error reason) → id ∉ p.listed) :
    Accounts registry (calls ++ [c]) later := by
  have stranded (id : JobId) :
      Stranded registry (calls ++ [c]) id ↔ Stranded registry calls id := by
    rw [stranded_concat, reached, adds]
    constructor
    · rintro (⟨reason, shape, there⟩ | ⟨earlier, -⟩)
      · exact absurd there (held id reason shape)
      · exact earlier
    · exact fun earlier => Or.inr ⟨earlier, by simp⟩
  refine ⟨fun id => ?_, fun id => ?_, promised⟩
  · rw [registered, listed, stranded, accounts.registered]
  · rw [listed, stranded]
    exact accounts.stranded id

/-- What a schedule adds stands on both sides, and is stranded no more. -/
theorem added {request : Request} {cron : String} {id₀ : JobId} {now : Nat}
    {pattern : Time.Cron} {next : Option Int}
    (adds : (Call.schedule request cron id₀ now (.ok ())).adds registry = some id₀) :
    Accounts registry (calls ++ [.schedule request cron id₀ now (.ok ())]) { p with
      policies := p.policies ++ [⟨id₀, request.jobType, cron, request.parameters⟩]
      timers := p.timers ++ [⟨id₀, request, pattern, next⟩] } := by
  have stranded (id : JobId) : Stranded registry
      (calls ++ [.schedule request cron id₀ now (.ok ())]) id ↔
        Stranded registry calls id ∧ id ≠ id₀ := by
    rw [stranded_concat, adds]
    simp [eq_comm]
  refine ⟨fun id => ?_, fun id => ?_, ?_⟩
  · rw [stranded, mem_registered, mem_listed]
    simp only [List.mem_append, List.mem_singleton, or_and_right, exists_or, exists_eq_left]
    rw [← mem_registered, ← mem_listed, accounts.registered]
    by_cases new : id = id₀
    · simp [new]
    · simp [new, Ne.symm new]
  · rw [stranded, mem_listed]
    simp only [List.mem_append, List.mem_singleton, or_and_right, exists_or, exists_eq_left]
    rw [← mem_listed]
    rintro ⟨earlier, old⟩ (there | new)
    · exact accounts.stranded id earlier there
    · exact old new.symm
  · simp only [Periodic.promised, Periodic.fired, List.map_append, List.map_cons, List.map_nil]
    exact accounts.promised.append (List.Sublist.refl _)

/-- What the table refuses to remove leaves the list alone, and is stranded. -/
theorem kept {id₀ : JobId} {reason : String} (reached : after registry calls = p)
    (there : id₀ ∈ p.listed) :
    Accounts registry (calls ++ [.unschedule id₀ (.error reason)]) (p.forget id₀) := by
  have stranded (id : JobId) : Stranded registry (calls ++ [.unschedule id₀ (.error reason)]) id ↔
      id = id₀ ∨ Stranded registry calls id := by
    rw [stranded_concat, reached]
    constructor
    · rintro (⟨_, shape, -⟩ | ⟨earlier, -⟩)
      · cases shape
        exact Or.inl rfl
      · exact Or.inr earlier
    · rintro (rfl | earlier)
      · exact Or.inl ⟨reason, rfl, there⟩
      · exact Or.inr ⟨earlier, by simp [Call.adds]⟩
  refine ⟨fun id => ?_, fun id => ?_, ?_⟩
  · have timers : id ∈ (p.forget id₀).registered ↔ id ∈ p.registered := Iff.rfl
    rw [stranded, mem_forget, timers, accounts.registered]
    by_cases gone : id = id₀
    · simp [gone, there]
    · simp [gone]
  · rw [stranded, mem_forget]
    rintro (rfl | earlier) ⟨still, old⟩
    · exact old rfl
    · exact accounts.stranded id earlier still
  · exact (List.filter_sublist.map _).trans accounts.promised

/-- What is unscheduled leaves both sides. It was listed, hence not stranded. -/
theorem removed {id₀ : JobId} (there : id₀ ∈ p.listed) :
    Accounts registry (calls ++ [.unschedule id₀ (.ok ())])
      { p.forget id₀ with timers := p.timers.filter (·.id ≠ id₀) } := by
  have stranded (id : JobId) : Stranded registry (calls ++ [.unschedule id₀ (.ok ())]) id ↔
      Stranded registry calls id := by
    rw [stranded_concat]
    simp [Call.adds]
  have settled : ¬Stranded registry calls id₀ := fun earlier =>
    accounts.stranded id₀ earlier there
  refine ⟨fun id => ?_, fun id => ?_, ?_⟩
  · have timers : id ∈ Periodic.registered
        { p.forget id₀ with timers := p.timers.filter (·.id ≠ id₀) } ↔
          id ∈ p.registered ∧ id ≠ id₀ := by
      simp only [mem_registered, List.mem_filter, decide_eq_true_eq]
      constructor
      · rintro ⟨t, ⟨mem, other⟩, rfl⟩
        exact ⟨⟨t, mem, rfl⟩, other⟩
      · rintro ⟨⟨t, mem, rfl⟩, other⟩
        exact ⟨t, ⟨mem, other⟩, rfl⟩
    have policies : id ∈ Periodic.listed
        { p.forget id₀ with timers := p.timers.filter (·.id ≠ id₀) } ↔
          id ∈ p.listed ∧ id ≠ id₀ := mem_forget
    rw [timers, policies, stranded, accounts.registered]
    by_cases gone : id = id₀
    · simp [gone, settled]
    · simp [gone]
  · rw [stranded]
    exact fun earlier still => accounts.stranded id earlier (mem_forget.mp still).1
  · have both := accounts.promised.filter (·.1 ≠ id₀)
    simp only [Periodic.promised, Periodic.fired, List.filter_map] at both
    exact both

/-- One more call. By cases on what it can do. -/
theorem call {c : Call} {answer : Except CheckFault Unit} {later : Periodic}
    (reached : after registry calls = p) (happens : Happens registry p c answer later) :
    Accounts registry (calls ++ [c]) later := by
  cases happens with
  | added adds => exact accounts.added adds
  | turnedDown adds =>
    exact accounts.same reached (fun _ => Iff.rfl) (fun _ => Iff.rfl) accounts.promised adds
      (fun _ _ shape => nomatch shape)
  | unknown missing =>
    refine accounts.same reached (fun _ => Iff.rfl) (fun _ => Iff.rfl) accounts.promised rfl ?_
    intro id reason shape
    cases shape
    exact missing
  | kept there => exact accounts.kept reached there
  | removed there => exact accounts.removed there

end Accounts

theorem accounts (calls : List Call) : Accounts registry calls (after registry calls) := by
  induction calls using List.reverseRecOn with
  | nil => exact .nothing
  | append_singleton calls c ih =>
    rw [after_concat]
    exact ih.call rfl (happens _ c)

/-! ## What is listed and what fires -/

/-- The timers are those of the listed policies and of the stranded ones. A call that is answered
with an error changes nothing, unless it makes a policy stranded. A policy that fires can be
unscheduled as long as it is not stranded, and then it can not. -/
theorem registered_iff (calls : List Call) :
    let p := after registry calls
    (∀ id, id ∈ p.registered ↔ id ∈ p.listed ∨ Stranded registry calls id) ∧
      (∀ id, Stranded registry calls id → id ∉ p.listed) ∧ p.promised.Sublist p.fired ∧
      (∀ c fault, (p.call registry c).1 = .error fault → (p.call registry c).2 = p ∨
        ∃ id reason, c = .unschedule id (.error reason) ∧ id ∈ p.listed ∧
          (p.call registry c).2 = p.forget id) ∧
      (∀ id, Stranded registry calls id →
        ∀ answer, p.unschedule id answer = (.error (.policyNotFound id), p)) ∧
      ∀ id ∈ p.registered, ¬Stranded registry calls id →
        ∃ later, p.unschedule id (.ok ()) = (.ok (), later) ∧
          id ∉ later.listed ∧ id ∉ later.registered := by
  intro p
  have accounts : Accounts registry calls p := accounts calls
  refine ⟨accounts.registered, accounts.stranded, accounts.promised, ?_, ?_, ?_⟩
  · intro c fault failed
    have happens : Happens registry p c _ _ := happens p c
    generalize p.call registry c = outcome at failed happens
    obtain ⟨answer, later⟩ := outcome
    dsimp only at failed happens
    subst failed
    cases happens with
    | turnedDown | unknown => exact Or.inl rfl
    | @kept id reason there => exact Or.inr ⟨id, reason, rfl, there, rfl⟩
  · intro id stranded answer
    rw [unschedule, if_pos (all_ne_iff.mpr (accounts.stranded id stranded))]
  · intro id there settled
    have listed : id ∈ p.listed := ((accounts.registered id).mp there).resolve_right settled
    have known : ¬p.policies.all (·.id ≠ id) = true := fun missing =>
      all_ne_iff.mp missing listed
    rw [unschedule, if_neg known]
    refine ⟨_, rfl, fun still => (mem_forget.mp still).2 rfl, fun still => ?_⟩
    obtain ⟨t, mem, same⟩ := mem_registered.mp still
    exact absurd same (by simpa using (List.mem_filter.mp mem).2)

/-- A refused removal changes the list and nothing else: the policy fires at its next time, and
there is no way to stop it. -/
theorem refused_removal_strands :
    let registry : Registry := ⟨[Job.idle "gc"]⟩
    let request : Request := ⟨"gc", [], none⟩
    let id : JobId := .ofNat 7
    let p := after registry [.schedule request "0 0 3 * * *" id 0 (.ok ())]
    let outcome := p.call registry (.unschedule id (.error "CantRemove"))
    p.listed = [id] ∧ outcome.1 = .error (.refused (.scheduler "CantRemove")) ∧
      outcome.2.listed = [] ∧ outcome.2.registered = [id] ∧
      (outcome.2.look (3 * 3600 * 1000) fun _ => true).1 = [request] ∧
      outcome.2.unschedule id (.ok ()) = (.error (.policyNotFound id), outcome.2) := by
  decide +kernel

/-! ## Looks -/

/-- A look does not change what is listed, and no timer goes that has a next time. So a policy whose
timer has none may stay listed after the table has dropped the timer. -/
theorem listed_look (p : Periodic) (now : Nat) (drops : Timer → Bool) :
    (p.look now drops).2.listed = p.listed ∧
      ∀ id, id ∈ (p.look now drops).2.registered ↔
        ∃ t ∈ p.timers, t.id = id ∧ (t.next = none → drops t = false) := by
  refine ⟨rfl, fun id => ?_⟩
  have same (t : Timer) : (if Timer.isDue t now then
      { t with next := nextAfter t.schedule now } else t).id = t.id := by
    split <;> rfl
  have kept (t : Timer) :
      (t.next.isSome || !drops t) = true ↔ (t.next = none → drops t = false) := by
    cases t.next <;> simp
  simp only [registered, look, List.map_map, List.mem_map, List.mem_filter, Function.comp_apply,
    same, kept]
  constructor
  · rintro ⟨t, ⟨mem, stays⟩, rfl⟩
    exact ⟨t, mem, rfl, stays⟩
  · rintro ⟨t, mem, rfl, stays⟩
    exact ⟨t, ⟨mem, stays⟩, rfl⟩

/-- A day that no year has: the timer goes at the first look, and the policy stays listed. -/
example :
    let cron := "0 0 0 31 2 *"
    let after (schedule : Time.Cron) : Periodic :=
      let p : Periodic := {
        policies := [⟨.ofNat 7, "idle", cron, []⟩]
        timers := [⟨.ofNat 7, ⟨"idle", [], none⟩, schedule, none⟩] }
      (p.look 500 fun _ => true).2
    (Time.Cron.parse? cron).map (fun schedule =>
      ((after schedule).listed, (after schedule).registered)) = some ([.ofNat 7], []) := by
  decide +kernel

end JobEngine.Periodic
