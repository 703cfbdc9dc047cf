import JobEngine.Proofs.JsonReading
import JobEngine.Submission

/-!
# What the text of a submission says

A job type, parameters and a cron expression that are written one after the
other are read back, whatever characters stand in the strings of the
parameters. Without the cron expression nothing is read: the text before an at
sign inside the parameters is no JSON text.
-/
namespace JobEngine

/-! ## Ends of a text -/

namespace Text

/-- A text with at least one character and no blank at either end. -/
structure Tight (s : String) : Prop where
  first : ∃ c, s.toList.head? = some c ∧ isBlank c = false
  last : ∃ c, s.toList.getLast? = some c ∧ isBlank c = false

theorem trimStart_of_head {cs : List Char} {c : Char} (first : cs.head? = some c)
    (inked : isBlank c = false) : trimStart cs = cs := by
  obtain ⟨tail, rfl⟩ := List.head?_eq_some_iff.mp first
  exact List.dropWhile_cons_of_neg (by simp [inked])

theorem trim_of_tight {s : String} (tight : Tight s) : trim s = s := by
  obtain ⟨c, first, inked⟩ := tight.first
  obtain ⟨d, last, ending⟩ := tight.last
  have back : trimStart s.toList.reverse = s.toList.reverse :=
    trimStart_of_head (by rw [List.head?_reverse, last]) ending
  have whole : trimEnd s.toList = s.toList := by
    rw [trimEnd, ← trimStart, back, List.reverse_reverse]
  rw [trim, trimStart_of_head first inked, whole, String.ofList_toList]

theorem isEmpty_of_tight {s : String} (tight : Tight s) : s.isEmpty = false := by
  obtain ⟨c, first, -⟩ := tight.first
  rw [Bool.eq_false_iff]
  intro empty
  rw [String.isEmpty_iff.mp empty] at first
  cases first

/-- What stands behind the last separator. -/
theorem exists_last {sep : Char} {cs : List Char} (mem : sep ∈ cs) :
    ∃ front behind, cs = front ++ sep :: behind ∧ sep ∉ behind := by
  obtain ⟨behind, front, same, none⟩ := List.eq_append_cons_of_mem (List.mem_reverse.mpr mem)
  refine ⟨front.reverse, behind.reverse, ?_, by simpa using none⟩
  rw [← List.reverse_reverse cs, same]
  simp

theorem splitLast_eq_none {sep : Char} {cs : List Char} (unbroken : sep ∉ cs) :
    splitLast sep cs = none := by
  rw [splitLast, splitFirst_eq_none_iff.mpr (by simpa using unbroken)]
  rfl

end Text

open Text

/-! ## Parameters -/

/-- The text before an at sign inside a value is none. -/
theorem Json.Value.read?_before_at {front behind : List Char} {v : Json.Value}
    (whole : Json.Value.read? (String.ofList (front ++ '@' :: behind)) = some v) :
    Json.Value.read? (String.ofList front) = none := by
  have stops : Json.Stops '@' := ⟨by decide, by decide, by decide, by decide⟩
  have apart : Json.Tree.read? (String.ofList front) = none := by
    cases read : Json.Tree.read? (String.ofList front) with
    | none => rfl
    | some t =>
      rw [Json.Value.read?, Json.Tree.read?_front stops read] at whole
      cases whole
  rw [Json.Value.read?, apart]
  rfl

/-! ## The parts of a submission -/

namespace Submission

variable {t : String}

theorem parse_type (tight : Tight t) (plain : '=' ∉ t.toList) : parse t = .ok { jobType := t } := by
  rw [parse, splitFirst_eq_none_iff.mpr plain]
  simp [ofParts, trim_of_tight tight, isEmpty_of_tight tight]

theorem parse_parameters (tight : Tight t) (plain : '=' ∉ t.toList) (text : String) :
    parse (t ++ "=" ++ text) =
      (readParameters text).map fun parameters => { jobType := t, parameters } := by
  have shape : (t ++ "=" ++ text).toList = t.toList ++ '=' :: text.toList := by simp
  rw [parse, shape, splitFirst_append plain]
  simp [ofParts, trim_of_tight tight, isEmpty_of_tight tight]

end Submission

namespace PeriodicSubmission

variable {t j c : String} {parameters : Parameters}

theorem parse_cron (tight : Tight c) (plain : '@' ∉ c.toList) (s : String) :
    parse (s ++ "@" ++ c) =
      (Submission.parse s).map fun submission => { cron := c, submission } := by
  have shape : (s ++ "@" ++ c).toList = s.toList ++ '@' :: c.toList := by simp
  rw [parse, shape, splitLast_append plain]
  simp [trim_of_tight tight, isEmpty_of_tight tight]

/-- Parameters alone are never taken for parameters and a cron expression. -/
theorem parse_without_cron (tight : Tight t) (unequal : '=' ∉ t.toList) (plain : '@' ∉ t.toList)
    {v : Json.Value} (read : Json.Value.read? j = some v) :
    ∃ fault, parse (t ++ "=" ++ j) = .error fault := by
  by_cases inside : '@' ∈ j.toList
  · obtain ⟨front, behind, same, last⟩ := exists_last inside
    have shape : (t ++ "=" ++ j).toList =
        (t ++ "=" ++ String.ofList front).toList ++ '@' :: behind := by
      simp [same]
    have whole : Json.Value.read? (String.ofList (front ++ '@' :: behind)) = some v := by
      rw [← same, String.ofList_toList, read]
    have broken := Json.Value.read?_before_at whole
    rw [parse, shape, splitLast_append last]
    dsimp only
    split
    · exact ⟨.emptyCron, rfl⟩
    · refine ⟨.badParameters, ?_⟩
      rw [String.ofList_toList, Submission.parse_parameters tight unequal,
        Submission.readParameters, broken]
      rfl
  · refine ⟨.noCron, ?_⟩
    have unbroken : '@' ∉ (t ++ "=" ++ j).toList := by simp [plain, inside]
    rw [parse, splitLast_eq_none unbroken]

/-- Type, parameters and cron expression are what they were written as. -/
theorem unambiguous (tight : Tight t) (unequal : '=' ∉ t.toList) (plain : '@' ∉ t.toList)
    (object : Json.Value.read? j = some (.object parameters)) (timed : Tight c)
    (single : '@' ∉ c.toList) :
    Submission.parse (t ++ "=" ++ j) = .ok ⟨t, parameters⟩ ∧
      parse (t ++ "=" ++ j ++ "@" ++ c) = .ok ⟨c, t, parameters⟩ ∧
      parse (t ++ "@" ++ c) = .ok ⟨c, t, []⟩ ∧
      ∃ fault, parse (t ++ "=" ++ j) = .error fault := by
  have whole : Submission.parse (t ++ "=" ++ j) = .ok ⟨t, parameters⟩ := by
    rw [Submission.parse_parameters tight unequal, Submission.readParameters, object]
    rfl
  refine ⟨whole, ?_, ?_, parse_without_cron tight unequal plain object⟩
  · rw [parse_cron timed single, whole]
    rfl
  · rw [parse_cron timed single, Submission.parse_type tight unequal]
    rfl

/-- Both marks may stand in the parameters. -/
theorem unambiguous_marked :
    let t := "scan"
    let j := "\x7b\"owner\":\"team@corp=app\"\x7d"
    let c := "0 0 3 * * *"
    let parameters : Parameters := [("owner", .string "team@corp=app")]
    (Tight t ∧ '=' ∉ t.toList ∧ '@' ∉ t.toList) ∧
      Json.Value.read? j = some (.object parameters) ∧ (Tight c ∧ '@' ∉ c.toList) ∧
      Submission.parse (t ++ "=" ++ j) = .ok ⟨t, parameters⟩ ∧
      parse (t ++ "=" ++ j ++ "@" ++ c) = .ok ⟨c, t, parameters⟩ ∧
      parse (t ++ "@" ++ c) = .ok ⟨c, t, []⟩ ∧
      ∃ fault, parse (t ++ "=" ++ j) = .error fault := by
  intro t j c parameters
  have tight : Tight t := ⟨⟨'s', by decide, rfl⟩, ⟨'n', by decide, rfl⟩⟩
  have unequal : '=' ∉ t.toList := by decide
  have plain : '@' ∉ t.toList := by decide
  have object : Json.Value.read? j = some (.object parameters) := by decide +kernel
  have timed : Tight c := ⟨⟨'0', by decide, rfl⟩, ⟨'*', by decide, rfl⟩⟩
  have single : '@' ∉ c.toList := by decide
  exact ⟨⟨tight, unequal, plain⟩, object, ⟨timed, single⟩,
    unambiguous tight unequal plain object timed single⟩

end PeriodicSubmission

end JobEngine
