import JobEngine.Toml.Reader

/-!
# Headers and blank lines in TOML

Blank lines change nothing wherever a line may begin. A header of one bare
name opens one table in an empty document; what can stand in its place is
decided by the first character of its key.
-/
namespace JobEngine.Toml

variable {c : Char} {cs rest tail gaps word : List Char} {fuel : Nat}

/-! ## Blank lines -/

/-- Blanks, of which a carriage return stands before a line feed only. -/
def areBlankLines : List Char → Bool
  | [] => true
  | '\r' :: '\n' :: cs => areBlankLines cs
  | c :: cs => (isGap c || c = '\n') && areBlankLines cs

theorem areBlankLines_gap (gap : isGap c = true) :
    areBlankLines (c :: cs) = areBlankLines cs := by
  rw [areBlankLines, gap]
  · rfl
  · rintro rest rfl
    exact absurd gap (by decide)

theorem skipGaps_gap (gap : isGap c = true) : skipGaps (c :: cs) = skipGaps cs :=
  List.dropWhile_cons_of_pos gap

theorem skipGaps_other (other : isGap c = false) : skipGaps (c :: cs) = c :: cs :=
  List.dropWhile_cons_of_neg (by simp [other])

theorem skipGaps_append (all : gaps.all isGap = true) : skipGaps (gaps ++ cs) = skipGaps cs := by
  induction gaps with
  | nil => rfl
  | cons c gaps ih =>
    simp only [List.all_cons, Bool.and_eq_true] at all
    rw [List.cons_append, skipGaps_gap all.1, ih all.2]

/-- The blanks before what is left are blanks within one line. -/
theorem gaps_of_skipGaps (left : skipGaps cs = rest) :
    ∃ gaps, gaps.all isGap = true ∧ cs = gaps ++ rest := by
  refine ⟨cs.takeWhile isGap, by simp, ?_⟩
  rw [← left, skipGaps, List.takeWhile_append_dropWhile]

theorem endLine?_gap (gap : isGap c = true) : endLine? (c :: cs) = endLine? cs := by
  rw [endLine?, endLine?, skipGaps_gap gap]

theorem lineBreak?_return (alone : cs.head? ≠ some '\n') : lineBreak? ('\r' :: cs) = none := by
  cases cs with
  | nil => rfl
  | cons c cs =>
    have other : c ≠ '\n' := fun same => alone (same ▸ rfl)
    simp [lineBreak?, other]

theorem endLine?_return (alone : cs.head? ≠ some '\n') : endLine? ('\r' :: cs) = none := by
  rw [endLine?, skipGaps_other (by decide)]
  exact lineBreak?_return alone

/-- A line that holds nothing more ends, and blank lines are left. -/
theorem endLine?_blank (blank : areBlankLines cs = true) :
    ∃ rest, endLine? cs = some rest ∧ areBlankLines rest = true ∧ rest.length ≤ cs.length := by
  fun_induction areBlankLines cs with
  | case1 => exact ⟨[], rfl, rfl, Nat.le_refl _⟩
  | case2 cs => exact ⟨cs, rfl, blank, by simp; omega⟩
  | case3 c cs other ih =>
    simp only [Bool.and_eq_true, Bool.or_eq_true, decide_eq_true_eq] at blank
    obtain ⟨gap | rfl, blank⟩ := blank
    · obtain ⟨rest, ends, left, size⟩ := ih blank
      exact ⟨rest, by rw [endLine?_gap gap, ends], left, by simp; omega⟩
    · exact ⟨cs, rfl, blank, by simp⟩

namespace Reading

variable {r out : Reading}

theorem lines_gap (gap : isGap c = true) : lines fuel r (c :: cs) = lines fuel r cs := by
  cases fuel with
  | zero => rfl
  | succ fuel => rw [lines, lines, skipGaps_gap gap]

theorem lines_feed : lines (fuel + 1) r ('\n' :: cs) = lines fuel r cs := rfl

theorem lines_return : lines (fuel + 1) r ('\r' :: '\n' :: cs) = lines fuel r cs := rfl

theorem lines_header :
    lines (fuel + 1) r ('[' :: cs) =
      (r.header? cs).bind fun read => lines fuel read.1 read.2 := rfl

/-- Blank lines take at most one step each. -/
theorem lines_blank {lead : List Char} (blank : areBlankLines lead = true) (body : List Char) :
    ∃ used ≤ lead.length, ∀ fuel, lines (fuel + used) r (lead ++ body) = lines fuel r body := by
  fun_induction areBlankLines lead with
  | case1 => exact ⟨0, Nat.le_refl _, fun _ => rfl⟩
  | case2 cs ih =>
    obtain ⟨used, few, same⟩ := ih blank
    exact ⟨used + 1, by simp; omega, fun fuel => lines_return.trans (same fuel)⟩
  | case3 c cs other ih =>
    simp only [Bool.and_eq_true, Bool.or_eq_true, decide_eq_true_eq] at blank
    obtain ⟨gap | rfl, blank⟩ := blank
    · obtain ⟨used, few, same⟩ := ih blank
      exact ⟨used, by simp; omega, fun fuel => by rw [List.cons_append, lines_gap gap, same]⟩
    · obtain ⟨used, few, same⟩ := ih blank
      exact ⟨used + 1, by simp; omega, fun fuel => lines_feed.trans (same fuel)⟩

end Reading

/-! ## Keys -/

/-- What no name begins with. -/
structure NoName (c : Char) : Prop where
  bare : isBare c = false
  double : c ≠ '"'
  single : c ≠ '\''
  gap : isGap c = false

theorem name?_eq_none (no : NoName c) : name? (c :: tail) = none := by
  have double := no.double
  have single := no.single
  simp [name?, no.bare, double, single]

theorem key?_eq_none (no : NoName c) (left : skipGaps cs = c :: tail) : key? fuel cs = none := by
  cases fuel with
  | zero => rfl
  | succ fuel => simp only [key?, left, name?_eq_none no]

/-- A line that begins with a character of no line is refused. -/
theorem Reading.lines_eq_none {r : Reading} (no : NoName c) (comment : c ≠ '#') (header : c ≠ '[')
    (ends : lineBreak? (c :: tail) = none) : lines fuel r (c :: tail) = none := by
  cases fuel with
  | zero => rfl
  | succ fuel =>
    have refused : r.assignment? (c :: tail) = none := by
      rw [assignment?, key?_eq_none no (skipGaps_other no.gap)]
      rfl
    rw [lines, skipGaps_other no.gap]
    simp [comment, header, ends, refused]

/-- A bare name, up to a character that is no part of a key. -/
theorem key?_word (bare : word.all isBare = true) (letters : word ≠ [])
    (left : skipGaps cs = word ++ rest) (ends : ∀ c ∈ rest.head?, isBare c = false)
    (last : ∀ c ∈ (skipGaps rest).head?, c ≠ '.') :
    key? (fuel + 1) cs = some ([String.ofList word], skipGaps rest) := by
  obtain ⟨c, more, rfl⟩ := List.exists_cons_of_ne_nil letters
  have name : name? (c :: more ++ rest) = some (String.ofList (c :: more), rest) := by
    have first : isBare c = true := (List.all_eq_true.mp bare) c List.mem_cons_self
    have double : c ≠ '"' := by
      rintro rfl
      exact absurd first (by decide)
    have single : c ≠ '\'' := by
      rintro rfl
      exact absurd first (by decide)
    have taken : (c :: more ++ rest).takeWhile isBare = c :: more := by
      rw [List.takeWhile_append_of_pos (by simpa using bare)]
      cases rest with
      | nil => simp
      | cons c rest => simp [ends c rfl]
    have dropped : (c :: more ++ rest).dropWhile isBare = rest := by
      rw [List.dropWhile_append_of_pos (by simpa using bare)]
      cases rest with
      | nil => rfl
      | cons c rest => simp [ends c rfl]
    rw [List.cons_append] at taken dropped ⊢
    unfold name?
    split
    · rename_i same
      exact absurd (List.cons.inj same).1 double
    · rename_i same
      exact absurd (List.cons.inj same).1 single
    · rw [taken, dropped]
      rfl
  simp only [key?, left, name]
  split
  · rename_i same
    rw [same] at last
    exact absurd rfl (last '.' rfl)
  · rfl

/-! ## Headers -/

/-- Whether the header that begins here has a second bracket, and its key. -/
def brackets : List Char → Bool × List Char
  | '[' :: rest => (true, rest)
  | rest => (false, rest)

/-- What follows the brackets at the end of a header. -/
def closing? (doubled : Bool) : List Char → Option (List Char)
  | ']' :: rest =>
    if doubled then
      match rest with
      | ']' :: rest => some rest
      | _ => none
    else some rest
  | _ => none

theorem closing?_bind {α : Type} (doubled : Bool) (rest : List Char)
    (f : List Char → Option α) :
    (closing? doubled rest).bind f = match rest with
      | ']' :: rest =>
        if doubled then
          match rest with
          | ']' :: rest => f rest
          | _ => none
        else f rest
      | _ => none := by
  unfold closing?
  split
  · cases doubled
    · rfl
    · simp only [if_true]
      split <;> rfl
  · rfl

theorem closing?_single : closing? false cs = some rest ↔ cs = ']' :: rest := by
  unfold closing?
  split <;> grind

theorem closing?_doubled : closing? true cs = some rest ↔ cs = ']' :: ']' :: rest := by
  unfold closing?
  split <;> grind

theorem brackets_single (plain : cs.head? ≠ some '[') : brackets cs = (false, cs) := by
  unfold brackets
  split
  · exact absurd rfl plain
  · rfl

namespace Reading

variable {r : Reading} {name : String}

theorem header?_eq : r.header? cs =
    (key? ((brackets cs).2.length + 1) (brackets cs).2).bind fun key =>
      (closing? (brackets cs).1 key.2).bind fun rest => (endLine? rest).bind fun rest =>
        key.1.getLast?.bind fun last =>
          (r.root.descend
            (if (brackets cs).1 then Fields.addTable last else Fields.openTable last)
            key.1.dropLast).bind fun root => some ({ root, current := key.1 }, rest) := by
  by_cases doubled : cs.head? = some '['
  · obtain ⟨tail, rfl⟩ := List.head?_eq_some_iff.mp doubled
    refine bind_congr fun (names, rest) => ?_
    exact (closing?_bind true rest _).symm
  · rw [brackets_single doubled]
    rcases cs with _ | ⟨c, tail⟩
    · rfl
    · have other : c ≠ '[' := fun same => doubled (same ▸ rfl)
      simp only [header?, List.cons.injEq, other, false_and, imp_self, implies_true,
        Bool.false_eq_true, if_false, Option.pure_def, Option.bind_eq_bind, Option.bind_some,
        Option.bind_none]
      refine congrArg _ (funext fun (names, rest) => ?_)
      exact (closing?_bind false rest _).symm

/-- An empty document after a header of one name. -/
def opened (doubled : Bool) (name : String) : Reading where
  root := [(name, if doubled then .tables [[]] else .table .header [])]
  current := [name]

theorem header?_name {inner : List Char} {doubled : Bool} (front : brackets cs = (doubled, inner))
    (key : key? (inner.length + 1) inner = some ([name], rest)) :
    header? {} cs = ((closing? doubled rest).bind endLine?).map fun after =>
      (opened doubled name, after) := by
  rw [header?_eq, front, key, Option.bind_some]
  cases closed : closing? doubled rest with
  | none => rfl
  | some tail =>
    rw [Option.bind_some, Option.bind_some]
    cases endLine? tail with
    | none => rfl
    | some after => cases doubled <;> rfl

/-- A text of blank lines changes nothing. -/
theorem lines_only_blank (blank : areBlankLines cs = true) (enough : cs.length < fuel) :
    lines fuel r cs = some r := by
  obtain ⟨used, few, same⟩ :
      ∃ used ≤ cs.length, ∀ fuel, lines (fuel + used) r (cs ++ []) = lines fuel r [] :=
    lines_blank blank []
  obtain ⟨spare, rfl⟩ : ∃ spare, fuel = spare + 1 + used := ⟨fuel - used - 1, by omega⟩
  rw [← List.append_nil cs, same]
  rfl

end Reading

theorem isGap_of_isBare (bare : isBare c = true) : isGap c = false := by
  cases gap : isGap c with
  | false => rfl
  | true =>
    simp only [isGap, Bool.or_eq_true, decide_eq_true_eq] at gap
    obtain rfl | rfl := gap <;> exact absurd bare (by decide)

/-- A doubled header of one bare name. -/
theorem Reading.header?_doubled {before behind trail : List Char}
    (bare : word.all isBare = true) (letters : word ≠ []) (first : before.all isGap = true)
    (last : behind.all isGap = true) :
    Reading.header? {} ('[' :: (before ++ (word ++ (behind ++ ']' :: ']' :: trail)))) =
      (endLine? trail).map fun after => (Reading.opened true (String.ofList word), after) := by
  have left : skipGaps (before ++ (word ++ (behind ++ ']' :: ']' :: trail))) =
      word ++ (behind ++ ']' :: ']' :: trail) := by
    obtain ⟨c, more, rfl⟩ := List.exists_cons_of_ne_nil letters
    rw [List.all_cons, Bool.and_eq_true] at bare
    rw [skipGaps_append first]
    exact skipGaps_other (isGap_of_isBare bare.1)
  have closed : skipGaps (behind ++ ']' :: ']' :: trail) = ']' :: ']' :: trail := by
    rw [skipGaps_append last]
    exact skipGaps_other (by decide)
  have separate : ∀ c ∈ (behind ++ ']' :: ']' :: trail).head?, isBare c = false := by
    intro c among
    cases behind with
    | nil =>
      obtain rfl := Option.some.inj among
      decide
    | cons b behind =>
      obtain rfl := Option.some.inj among
      rw [List.all_cons, Bool.and_eq_true] at last
      cases letter : isBare b with
      | false => rfl
      | true => exact absurd last.1 (by simp [isGap_of_isBare letter])
  have key (fuel : Nat) : key? (fuel + 1) (before ++ (word ++ (behind ++ ']' :: ']' :: trail))) =
      some ([String.ofList word], ']' :: ']' :: trail) := by
    rw [key?_word bare letters left separate (by rw [closed]; simp), closed]
  have front : brackets ('[' :: (before ++ (word ++ (behind ++ ']' :: ']' :: trail)))) =
      (true, before ++ (word ++ (behind ++ ']' :: ']' :: trail))) := rfl
  exact header?_name front (key _)

/-- No byte order mark stands before the document. -/
theorem read?_unmarked {text : String} (unmarked : ∀ c ∈ text.toList.head?, c.toNat ≠ 0xfeff) :
    read? text = (Reading.lines (2 * text.toList.length + 2) {} text.toList).map fun r =>
      fieldValues r.root := by
  unfold read?
  cases shape : text.toList with
  | nil => rfl
  | cons c rest =>
    rw [shape] at unmarked
    simp only [if_neg (unmarked c rfl)]

end JobEngine.Toml
