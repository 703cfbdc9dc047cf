import JobEngine.Config.Environment
import Mathlib.Data.List.Induction
import Mathlib.Data.Nat.Digits.Defs

/-!
# Layers of settings

A setting has the value of its variable if that is set, else that of the last
document which gives one, else the one there was before, whatever becomes of
the other settings. The first variable that is malformed, in the order in which
they are looked at, is named; what comes before it is settled by then, and what
comes after it is as the documents left it.
-/
namespace JobEngine

/-! ## Whole numbers -/

namespace Text

/-- The number that decimal digits write, the highest first. -/
def decimal (digits : List Char) : Nat := Nat.ofDigits 10 (digits.reverse.map digitValue)

/-- Decimal digits, at least one, with or without a plus sign in front. -/
def Numeral (text : String) (n : Nat) : Prop :=
  ∃ digits, digits ≠ [] ∧ (text.toList = digits ∨ text.toList = '+' :: digits) ∧
    (∀ c ∈ digits, isDigit c = true) ∧ decimal digits = n

theorem decimal_cons (c : Char) (rest : List Char) :
    decimal (c :: rest) = digitValue c * 10 ^ rest.length + decimal rest := by
  simp only [decimal, List.reverse_cons, List.map_append, List.map_cons, List.map_nil,
    Nat.ofDigits_append, Nat.ofDigits_singleton, List.length_map, List.length_reverse]
  rw [Nat.add_comm, Nat.mul_comm]

theorem readDigits_eq_ok {largest value n : Nat} {cs : List Char} (fits : value ≤ largest) :
    readDigits largest value cs = .ok n ↔
      (∀ c ∈ cs, isDigit c = true) ∧ value * 10 ^ cs.length + decimal cs = n ∧ n ≤ largest := by
  induction cs generalizing value with
  | nil =>
    have empty : decimal [] = 0 := rfl
    simp only [readDigits, Except.ok.injEq, List.not_mem_nil, false_implies, implies_true,
      List.length_nil, Nat.pow_zero, Nat.mul_one, empty, Nat.add_zero, true_and]
    constructor
    · rintro rfl
      exact ⟨rfl, fits⟩
    · exact fun written => written.1
  | cons c rest ih =>
    have shift : value * 10 ^ (c :: rest).length + decimal (c :: rest) =
        (value * 10 + digitValue c) * 10 ^ rest.length + decimal rest := by
      rw [decimal_cons, List.length_cons, Nat.pow_succ]
      ring
    simp only [readDigits, List.forall_mem_cons, shift]
    by_cases digit : isDigit c = true
    · rw [if_pos digit]
      by_cases small : value * 10 + digitValue c ≤ largest
      · rw [if_pos small, ih small]
        simp only [digit, true_and]
      · rw [if_neg small]
        constructor
        · intro refused
          cases refused
        · rintro ⟨-, rfl, bound⟩
          have scale : 1 ≤ 10 ^ rest.length := Nat.one_le_pow _ _ (by decide)
          have grown := Nat.le_mul_of_pos_right (value * 10 + digitValue c) scale
          omega
    · rw [if_neg digit]
      constructor
      · intro refused
        cases refused
      · exact fun written => absurd written.1.1 digit

/-- What is read is a numeral whose number is not too large. -/
theorem readWhole_eq_ok {largest n : Nat} {text : String} :
    readWhole largest text = .ok n ↔ Numeral text n ∧ n ≤ largest := by
  have plus : isDigit '+' = false := by decide
  have read (digits : List Char) : readDigits largest 0 digits = .ok n ↔
      ((∀ c ∈ digits, isDigit c = true) ∧ decimal digits = n) ∧ n ≤ largest := by
    rw [readDigits_eq_ok (Nat.zero_le _), Nat.zero_mul, Nat.zero_add, and_assoc]
  unfold readWhole Numeral
  split
  · rename_i empty
    simp [empty]
  · rename_i bare
    constructor
    · intro refused
      cases refused
    · rintro ⟨⟨digits, some, same | same, all, -⟩, -⟩
      · rw [bare] at same
        have digit := all '+' (same ▸ List.mem_singleton_self _)
        rw [plus] at digit
        cases digit
      · rw [bare] at same
        exact absurd (List.cons.inj same).2.symm some
  · rename_i digits other signed
    rw [read]
    constructor
    · rintro ⟨⟨all, value⟩, bound⟩
      exact ⟨⟨digits, fun empty => other (by rw [empty]), Or.inr signed, all, value⟩, bound⟩
    · rintro ⟨⟨digits', some, same | same, all, value⟩, bound⟩
      · have digit := all '+' (same ▸ signed ▸ List.mem_cons_self)
        rw [plus] at digit
        cases digit
      · obtain rfl := (List.cons.inj (signed.symm.trans same)).2
        exact ⟨⟨all, value⟩, bound⟩
  · rename_i none bare signed
    rw [read]
    constructor
    · rintro ⟨⟨all, value⟩, bound⟩
      exact ⟨⟨text.toList, none, Or.inl rfl, all, value⟩, bound⟩
    · rintro ⟨⟨digits, some, same | same, all, value⟩, bound⟩
      · exact ⟨⟨same ▸ all, same ▸ value⟩, bound⟩
      · exact absurd same (signed digits)

/-- A text is a numeral for one number at most. -/
theorem Numeral.unique {text : String} {m n : Nat} (first : Numeral text m)
    (second : Numeral text n) : m = n := by
  have one := readWhole_eq_ok.mpr ⟨first, Nat.le_max_left m n⟩
  have two := readWhole_eq_ok.mpr ⟨second, Nat.le_max_right m n⟩
  exact Except.ok.inj (one.symm.trans two)

end Text

namespace Config

/-! ## Single settings -/

inductive Setting
  | workers
  | drain
  | defaultMaxFails
  | grace
  | level
  | json
  | logDirectory
deriving DecidableEq, Repr

namespace Setting

/-- In the order in which their variables are looked at. -/
def all : List Setting := [workers, drain, defaultMaxFails, grace, level, json, logDirectory]

def Value : Setting → Type
  | workers | grace => UInt64
  | drain | json => Bool
  | defaultMaxFails => UInt32
  | level => String
  | logDirectory => Option String

def get (s : Settings) : (k : Setting) → k.Value
  | workers => s.workers
  | drain => s.drain
  | defaultMaxFails => s.defaultMaxFails
  | grace => s.grace
  | level => s.level
  | json => s.json
  | logDirectory => s.logDirectory

def put (s : Settings) : (k : Setting) → k.Value → Settings
  | workers, v => { s with workers := v }
  | drain, v => { s with drain := v }
  | defaultMaxFails, v => { s with defaultMaxFails := v }
  | grace, v => { s with grace := v }
  | level, v => { s with level := v }
  | json, v => { s with json := v }
  | logDirectory, v => { s with logDirectory := v }

/-- What a document gives for the setting. A document can not take a log directory away. -/
def given? (d : Document) : (k : Setting) → Option k.Value
  | workers => d.pool.bind (·.workers)
  | drain => d.pool.bind (·.drain)
  | defaultMaxFails => d.retry.bind (·.defaultMaxFails)
  | grace => d.retry.bind (·.grace)
  | level => d.logging.bind (·.level)
  | json => d.logging.bind (·.json)
  | logDirectory => (d.logging.bind (·.logDirectory)).map some

/-- The name of its variable. -/
def name : Setting → String
  | workers => "JOBSERVICE_WORKERS"
  | drain => "JOBSERVICE_SHUTDOWN_DRAIN_DEAD_LETTERS"
  | defaultMaxFails => "JOBSERVICE_DEFAULT_MAX_FAILS"
  | grace => "JOBSERVICE_DEAD_LETTER_GRACE_MS"
  | level => "JOBSERVICE_LOG_LEVEL"
  | json => "JOBSERVICE_LOG_JSON"
  | logDirectory => "JOBSERVICE_JOB_LOG_DIR"

/-- A word for yes or for no, in any case. -/
def Answer (text : String) : Bool → Prop
  | true => Text.lower text ∈ ["1", "true", "yes", "y"]
  | false => Text.lower text ∈ ["0", "false", "no", "n"]

/-- The text of the variable is well formed and means this value. -/
def Means (text : String) : (k : Setting) → k.Value → Prop
  | workers, (v : UInt64) => Text.Numeral text v.toNat
  | drain, v => Answer text v
  | defaultMaxFails, (v : UInt32) => Text.Numeral text v.toNat
  | grace, (v : UInt64) => Text.Numeral text v.toNat
  | level, v => text = v
  | json, v => Answer text v
  | logDirectory, v => (if text = "" then none else some text) = v

/-- The variable is set to a text that means nothing. -/
def Malformed (env : Environment) (k : Setting) : Prop :=
  ∃ text, env k.name = some text ∧ ∀ v, ¬k.Means text v

/-- The setting is as its variable says, or as before if that is not set. -/
def Follows (env : Environment) (before later : Settings) (k : Setting) : Prop :=
  match env k.name with
  | some text => ∀ v, k.Means text v ↔ k.get later = v
  | none => k.get later = k.get before

theorem get_put_self (s : Settings) (k : Setting) (v : k.Value) : k.get (k.put s v) = v := by
  cases k <;> rfl

theorem get_put_other (s : Settings) {j k : Setting} (differs : j ≠ k) (v : k.Value) :
    j.get (k.put s v) = j.get s := by
  cases k <;> cases j <;> first | rfl | exact absurd rfl differs

theorem Answer.unique {text : String} {a b : Bool} (first : Answer text a)
    (second : Answer text b) :
    a = b := by
  have apart : Answer text true → ¬Answer text false := by
    simp only [Answer, List.mem_cons, List.not_mem_nil, or_false]
    rintro (same | same | same | same) <;> simp [same]
  cases a <;> cases b
  · rfl
  · exact absurd first (apart second)
  · exact absurd second (apart first)
  · rfl

/-- A text means one value at most. -/
theorem Means.unique {text : String} {k : Setting} {v w : k.Value} (first : k.Means text v)
    (second : k.Means text w) : v = w := by
  cases k with
  | workers | grace => exact UInt64.toNat_inj.mp (Text.Numeral.unique first second)
  | defaultMaxFails => exact UInt32.toNat_inj.mp (Text.Numeral.unique first second)
  | drain | json => exact Answer.unique first second
  | level | logDirectory => exact first.symm.trans second

end Setting

/-! ## Single variables -/

namespace Variable

variable (s : Settings) {name text : String}

theorem set_whole {largest : Nat} {store : Nat → Settings → Settings} :
    (∃ n, Text.Numeral text n ∧ n ≤ largest ∧
        (whole name largest store).set text s = .ok (store n s)) ∨
      (∀ n ≤ largest, ¬Text.Numeral text n) ∧
        ∃ reason, (whole name largest store).set text s = .error (.badVariable name reason) := by
  simp only [whole]
  cases read : Text.readWhole largest text with
  | ok n =>
    obtain ⟨written, fits⟩ := Text.readWhole_eq_ok.mp read
    exact Or.inl ⟨n, written, fits, rfl⟩
  | error fault =>
    refine Or.inr ⟨fun n fits written => ?_, _, rfl⟩
    rw [Text.readWhole_eq_ok.mpr ⟨written, fits⟩] at read
    cases read

theorem flag?_eq_some {b : Bool} : flag? text = some b ↔ Setting.Answer text b := by
  simp only [flag?, List.contains_iff_mem]
  split
  · rename_i yes
    have word : Setting.Answer text true := yes
    constructor
    · exact fun same => Option.some.inj same ▸ word
    · exact fun other => congrArg some (word.unique other)
  · rename_i unaffirmed
    split
    · rename_i no
      have word : Setting.Answer text false := no
      constructor
      · exact fun same => Option.some.inj same ▸ word
      · exact fun other => congrArg some (word.unique other)
    · rename_i undenied
      constructor
      · intro same
        cases same
      · intro word
        cases b
        · exact absurd word undenied
        · exact absurd word unaffirmed

theorem set_flag {store : Bool → Settings → Settings} :
    (∃ b, Setting.Answer text b ∧ (flag name store).set text s = .ok (store b s)) ∨
      (∀ b, ¬Setting.Answer text b) ∧
        ∃ reason, (flag name store).set text s = .error (.badVariable name reason) := by
  simp only [flag]
  cases read : flag? text with
  | some b => exact Or.inl ⟨b, flag?_eq_some.mp read, rfl⟩
  | none =>
    refine Or.inr ⟨fun b word => ?_, _, rfl⟩
    rw [flag?_eq_some.mpr word] at read
    cases read

end Variable

namespace Setting

def source : Setting → Variable
  | workers => Variable.all[0]
  | drain => Variable.all[1]
  | defaultMaxFails => Variable.all[2]
  | grace => Variable.all[3]
  | level => Variable.all[4]
  | json => Variable.all[5]
  | logDirectory => Variable.all[6]

theorem map_source_all : all.map source = Variable.all := rfl

theorem name_source (k : Setting) : k.source.name = k.name := by cases k <;> rfl

/-- A variable gives its setting what its text means, and nothing if that is malformed. -/
theorem set_source (s : Settings) (k : Setting) (text : String) :
    (∃ v, k.Means text v ∧ k.source.set text s = .ok (k.put s v)) ∨
      (∀ v, ¬k.Means text v) ∧
        ∃ reason, k.source.set text s = .error (.badVariable k.name reason) := by
  have below64 (v : UInt64) : v.toNat ≤ UInt64.size - 1 := Nat.le_pred_of_lt v.toNat_lt_size
  have below32 (v : UInt32) : v.toNat ≤ UInt32.size - 1 := Nat.le_pred_of_lt v.toNat_lt_size
  have back64 {n : Nat} (fits : n ≤ UInt64.size - 1) : (UInt64.ofNat n).toNat = n :=
    UInt64.toNat_ofNat_of_lt' (Nat.lt_of_le_pred (by decide) fits)
  have back32 {n : Nat} (fits : n ≤ UInt32.size - 1) : (UInt32.ofNat n).toNat = n :=
    UInt32.toNat_ofNat_of_lt' (Nat.lt_of_le_pred (by decide) fits)
  cases k with
  | workers | grace =>
    rcases Variable.set_whole s with ⟨n, written, fits, set⟩ | ⟨none, refused⟩
    · exact Or.inl ⟨UInt64.ofNat n, (congrArg _ (back64 fits)).mpr written, set⟩
    · exact Or.inr ⟨fun v => none _ (below64 v), refused⟩
  | defaultMaxFails =>
    rcases Variable.set_whole s with ⟨n, written, fits, set⟩ | ⟨none, refused⟩
    · exact Or.inl ⟨UInt32.ofNat n, (congrArg _ (back32 fits)).mpr written, set⟩
    · exact Or.inr ⟨fun v => none _ (below32 v), refused⟩
  | drain | json => exact Variable.set_flag s
  | level => exact Or.inl ⟨text, rfl, rfl⟩
  | logDirectory =>
    have empty : (if text.isEmpty then none else some text) =
        if text = "" then none else some text := by simp only [String.isEmpty_iff]
    exact Or.inl ⟨_, empty.symm, rfl⟩

end Setting

/-! ## All variables -/

namespace Setting

variable {env : Environment}

/-- Variables that are well formed settle their settings and leave the others as they are. -/
theorem override_front {front : List Setting} (rest : List Variable) (s : Settings)
    (distinct : front.Nodup) (wellFormed : ∀ k ∈ front, ¬k.Malformed env) :
    ∃ later, s.override env (front.map source ++ rest) = later.override env rest ∧
      (∀ k ∈ front, k.Follows env s later) ∧ ∀ k ∉ front, k.get later = k.get s := by
  induction front generalizing s with
  | nil => exact ⟨s, rfl, by simp, fun _ _ => rfl⟩
  | cons k front ih =>
    obtain ⟨fresh, distinct⟩ := List.nodup_cons.mp distinct
    have formed (j : Setting) (mem : j ∈ front) : ¬j.Malformed env :=
      wellFormed j (List.mem_cons_of_mem _ mem)
    simp only [List.map_cons, List.cons_append, Settings.override, name_source]
    cases set : env k.name with
    | none =>
      obtain ⟨later, same, follows, others⟩ := ih s distinct formed
      refine ⟨later, same, fun j mem => ?_, fun j out => others j fun mem => out (.tail _ mem)⟩
      rcases List.mem_cons.mp mem with rfl | mem
      · simp only [Follows, set]
        exact others _ fresh
      · exact follows j mem
    | some text =>
      rcases k.set_source s text with ⟨v, means, stored⟩ | ⟨none, -⟩
      · obtain ⟨later, same, follows, others⟩ := ih (k.put s v) distinct formed
        have kept (j : Setting) (differs : j ≠ k) : j.get (k.put s v) = j.get s :=
          get_put_other s differs v
        refine ⟨later, by simp only [stored, same], fun j mem => ?_, fun j out => ?_⟩
        · rcases List.mem_cons.mp mem with rfl | mem
          · simp only [Follows, set, others _ fresh, get_put_self]
            exact fun w => ⟨means.unique, fun same => same ▸ means⟩
          · have differs : j ≠ k := fun same => fresh (same ▸ mem)
            have settled := follows j mem
            simp only [Follows, kept j differs] at settled ⊢
            exact settled
        · rw [others j fun mem => out (.tail _ mem), kept j fun same => out (same ▸ .head _)]
      · exact absurd ⟨text, set, none⟩ (wellFormed k List.mem_cons_self)

/-- A malformed variable ends the reading. -/
theorem override_malformed {k : Setting} (malformed : k.Malformed env) (rest : List Variable)
    (s : Settings) : ∃ reason,
      s.override env (k.source :: rest) = (s, .error (.badVariable k.name reason)) := by
  obtain ⟨text, set, none⟩ := malformed
  rcases k.set_source s text with ⟨v, means, -⟩ | ⟨-, reason, refused⟩
  · exact absurd means (none v)
  · exact ⟨reason, by simp only [Settings.override, name_source, set, refused]⟩

/-! ## Documents -/

theorem get_apply (s : Settings) (d : Document) (k : Setting) :
    k.get (s.apply d) = (k.given? d).getD (k.get s) := by
  cases k with
  | logDirectory =>
    simp only [get, Settings.apply, given?]
    cases d.logging.bind (·.logDirectory) <;> rfl
  | _ => rfl

/-- The last document that gives a setting wins. -/
theorem get_foldl_apply (documents : List Document) (s : Settings) (k : Setting) :
    k.get (documents.foldl Settings.apply s) =
      ((documents.filterMap k.given?).getLast?).getD (k.get s) := by
  induction documents using List.reverseRecOn with
  | nil => rfl
  | append_singleton documents d ih =>
    rw [List.foldl_append, List.foldl_cons, List.foldl_nil, get_apply, ih, List.filterMap_append]
    cases given : k.given? d <;> simp [given]

end Setting

/-- With documents applied in their order over some settings, and the environment over these: the
reading succeeds if and only if every variable that is set is well formed, and then each setting is
what its variable says, if set, else what the last document that gives it says, else what it was.
Otherwise the first malformed variable is named, the settings before it are as their variables say,
and it and those after it are as the documents left them. -/
theorem Settings.layered (base : Settings) (documents : List Document) (env : Environment) :
    let filed := documents.foldl Settings.apply base
    let read := filed.override env Variable.all
    (∀ k : Setting, k.get filed =
        ((documents.filterMap k.given?).getLast?).getD (k.get base)) ∧
      (read.2 = .ok () ↔ ∀ k : Setting, ¬k.Malformed env) ∧
      (read.2 = .ok () → ∀ k : Setting, k.Follows env filed read.1) ∧
      ∀ front k rest, Setting.all = front ++ k :: rest → k.Malformed env →
        (∀ j ∈ front, ¬j.Malformed env) →
          (∃ reason, read.2 = .error (.badVariable k.name reason)) ∧
            (∀ j ∈ front, j.Follows env filed read.1) ∧
            ∀ j ∈ k :: rest, j.get read.1 = j.get filed := by
  intro filed read
  have every (k : Setting) : k ∈ Setting.all := by cases k <;> decide
  have distinct : Setting.all.Nodup := by decide
  have first (front : List Setting) (k : Setting) (rest : List Setting)
      (split : Setting.all = front ++ k :: rest) (malformed : k.Malformed env)
      (formed : ∀ j ∈ front, ¬j.Malformed env) :
      (∃ reason, read.2 = .error (.badVariable k.name reason)) ∧
        (∀ j ∈ front, j.Follows env filed read.1) ∧
        ∀ j ∈ k :: rest, j.get read.1 = j.get filed := by
    rw [split] at distinct
    obtain ⟨apart, -, disjoint⟩ := List.nodup_append.mp distinct
    obtain ⟨later, same, follows, others⟩ :=
      Setting.override_front ((k :: rest).map Setting.source) filed apart formed
    obtain ⟨reason, refused⟩ := Setting.override_malformed malformed (rest.map Setting.source) later
    have answer : read = (later, .error (.badVariable k.name reason)) := by
      rw [← refused]
      have whole : Variable.all =
          front.map Setting.source ++ (k :: rest).map Setting.source := by
        rw [← List.map_append, ← split, Setting.map_source_all]
      rw [← whole] at same
      exact same
    rw [answer]
    refine ⟨⟨reason, rfl⟩, follows, fun j mem => others j fun early => ?_⟩
    exact disjoint j early j mem rfl
  have settled (formed : ∀ k : Setting, ¬k.Malformed env) :
      read.2 = .ok () ∧ ∀ k : Setting, k.Follows env filed read.1 := by
    obtain ⟨later, same, follows, -⟩ :=
      Setting.override_front [] filed distinct fun k _ => formed k
    have answer : read = (later, .ok ()) := by
      rw [List.append_nil, Setting.map_source_all] at same
      exact same
    rw [answer]
    exact ⟨rfl, fun k => follows k (every k)⟩
  have formed (accepted : read.2 = .ok ()) : ∀ k : Setting, ¬k.Malformed env := by
    classical
    intro k malformed
    have found : (Setting.all.find? (·.Malformed env)).isSome = true :=
      List.find?_isSome.mpr ⟨k, every k, decide_eq_true malformed⟩
    obtain ⟨k, found⟩ := Option.isSome_iff_exists.mp found
    obtain ⟨malformed, front, rest, split, formed⟩ := List.find?_eq_some_iff_append.mp found
    obtain ⟨⟨reason, refused⟩, -⟩ := first front k rest split (of_decide_eq_true malformed)
      fun j mem => by simpa using formed j mem
    rw [accepted] at refused
    cases refused
  exact ⟨Setting.get_foldl_apply documents base, ⟨formed, fun all => (settled all).1⟩,
    fun accepted => (settled (formed accepted)).2, first⟩

example : Settings.override (fun name => if name = "JOBSERVICE_WORKERS" then some "+8"
      else if name = "JOBSERVICE_LOG_JSON" then some "maybe" else none) Variable.all {} =
    ({ workers := 8 }, .error (.badVariable "JOBSERVICE_LOG_JSON" "")) := by decide +kernel

end Config

end JobEngine
