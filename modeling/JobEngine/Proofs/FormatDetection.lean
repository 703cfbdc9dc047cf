import JobEngine.Config.Detection
import JobEngine.Proofs.JsonReading
import JobEngine.Proofs.TomlHeaders

/-!
# Which format a JSON text is taken for

A file without a known extension is tried as TOML before JSON. An object
begins with a brace, which begins no line of TOML; an array begins with a
bracket, which begins a header. Only one kind of array goes on as a header does
and says something else: a null or a whole number in two pairs of brackets.
-/
namespace JobEngine.Config

open Json (Tree Numeral TreeStep ItemsStep isSpace skipSpace readTree readItems readNumeral)
open Toml (areBlankLines isGap skipGaps key? NoName Reading)
open Text (isDigit)

variable {cs rest tail after : List Char} {fuel : Nat}

/-! ## Blanks of the two formats -/

theorem isSpace_of_isGap {c : Char} (gap : isGap c = true) : isSpace c = true := by
  simp only [isGap, Bool.or_eq_true, decide_eq_true_eq] at gap
  rcases gap with rfl | rfl <;> decide

theorem isSpace_cases {c : Char} (space : isSpace c = true) :
    isGap c = true ∨ c = '\n' ∨ c = '\r' := by
  simp only [isGap, isSpace, Bool.or_eq_true, decide_eq_true_eq] at space ⊢
  grind

theorem skipSpace_of_space {c : Char} (space : isSpace c = true) :
    skipSpace (c :: cs) = skipSpace cs := List.dropWhile_cons_of_pos space

theorem skipSpace_skipSpace (cs : List Char) : skipSpace (skipSpace cs) = skipSpace cs := by
  induction cs with
  | nil => rfl
  | cons c cs ih =>
    by_cases space : isSpace c = true
    · rw [skipSpace_of_space space, ih]
    · have other : isSpace c = false := by simpa using space
      rw [Json.skipSpace_of_head other, Json.skipSpace_of_head other]

theorem skipSpace_skipGaps (cs : List Char) : skipSpace (skipGaps cs) = skipSpace cs := by
  induction cs with
  | nil => rfl
  | cons c cs ih =>
    by_cases gap : isGap c = true
    · rw [Toml.skipGaps_gap gap, ih, skipSpace_of_space (isSpace_of_isGap gap)]
    · rw [Toml.skipGaps_other (by simpa using gap)]

theorem skipSpace_blank {lead : List Char} (blank : areBlankLines lead = true) (cs : List Char) :
    skipSpace (lead ++ cs) = skipSpace cs := by
  fun_induction areBlankLines lead with
  | case1 => rfl
  | case2 lead ih => exact ih blank
  | case3 c lead other ih =>
    simp only [Bool.and_eq_true, Bool.or_eq_true, decide_eq_true_eq] at blank
    have space : isSpace c = true := by
      obtain gap | rfl := blank.1
      · exact isSpace_of_isGap gap
      · decide
    rw [List.cons_append, skipSpace_of_space space, ih blank.2]

/-- Within a line TOML skips as much as JSON does, or it stops at a line break. -/
theorem skipGaps_eq_skipSpace (cs : List Char) :
    skipGaps cs = skipSpace cs ∨
      ∃ c tail, skipGaps cs = c :: tail ∧ (c = '\n' ∨ c = '\r') := by
  induction cs with
  | nil => exact Or.inl rfl
  | cons c cs ih =>
    by_cases gap : isGap c = true
    · rw [Toml.skipGaps_gap gap, skipSpace_of_space (isSpace_of_isGap gap)]
      exact ih
    · have other : isGap c = false := by simpa using gap
      rw [Toml.skipGaps_other other]
      by_cases space : isSpace c = true
      · exact Or.inr ⟨c, cs, rfl, (isSpace_cases space).resolve_left gap⟩
      · exact Or.inl (Json.skipSpace_of_head (by simpa using space)).symm

theorem noName_break {c : Char} (ends : c = '\n' ∨ c = '\r') : NoName c := by
  rcases ends with rfl | rfl <;> exact ⟨by decide, by decide, by decide, by decide⟩

/-- A key does not begin behind a line break, nor with a character of no name. -/
theorem key?_unnamed {c : Char} (no : NoName c) (left : skipSpace cs = c :: tail) :
    key? fuel cs = none := by
  rcases skipGaps_eq_skipSpace cs with same | ⟨b, more, stop, ends⟩
  · exact Toml.key?_eq_none no (same.trans left)
  · exact Toml.key?_eq_none (noName_break ends) stop

theorem head?_ne_feed (other : ∀ rest, cs ≠ '\n' :: rest) : cs.head? ≠ some '\n' := by
  intro first
  obtain ⟨rest, same⟩ := List.head?_eq_some_iff.mp first
  exact other rest same

section Blanks

variable {r out : Reading}

/-- A document that TOML reads begins with blank lines, if with blanks at all. -/
theorem lines_blanks (read : Reading.lines fuel r cs = some out) :
    areBlankLines (cs.takeWhile isSpace) = true ∧
      ∃ fuel, Reading.lines fuel r (skipSpace cs) = some out := by
  fun_induction areBlankLines cs generalizing fuel with
  | case1 => exact ⟨rfl, fuel, read⟩
  | case2 cs ih =>
    cases fuel with
    | zero => cases read
    | succ fuel => exact ih (show Reading.lines fuel r cs = some out from read)
  | case3 c cs other ih =>
    by_cases space : isSpace c = true
    · rw [List.takeWhile_cons_of_pos space, skipSpace_of_space space]
      obtain gap | rfl | rfl := isSpace_cases space
      · rw [Toml.areBlankLines_gap gap]
        rw [Reading.lines_gap gap] at read
        exact ih read
      · cases fuel with
        | zero => cases read
        | succ fuel => exact ih (show Reading.lines fuel r cs = some out from read)
      · have alone := head?_ne_feed fun rest => other rest rfl
        rw [Reading.lines_eq_none (noName_break (Or.inr rfl)) (by decide) (by decide)
          (Toml.lineBreak?_return alone)] at read
        cases read
    · rw [List.takeWhile_cons_of_neg space, Json.skipSpace_of_head (by simpa using space)]
      exact ⟨rfl, fuel, read⟩

theorem lines_all_blanks (blank : skipSpace cs = []) (read : Reading.lines fuel r cs = some out) :
    areBlankLines cs = true ∧ out = r := by
  obtain ⟨lead, fuel, same⟩ := lines_blanks read
  have all : cs.takeWhile isSpace = cs := by
    have split : cs.takeWhile isSpace ++ cs.dropWhile isSpace = cs :=
      List.takeWhile_append_dropWhile
    rwa [show cs.dropWhile isSpace = [] from blank, List.append_nil] at split
  rw [all] at lead
  rw [blank] at same
  cases fuel with
  | zero => cases same
  | succ fuel => exact ⟨lead, (Option.some.inj same).symm⟩

theorem endLine?_blanks (blank : skipSpace cs = []) (ends : Toml.endLine? cs = some rest) :
    skipSpace rest = [] ∧ (areBlankLines rest = true → areBlankLines cs = true) := by
  fun_induction areBlankLines cs with
  | case1 =>
    cases ends
    exact ⟨rfl, fun _ => rfl⟩
  | case2 cs =>
    cases ends
    exact ⟨blank, id⟩
  | case3 c cs other ih =>
    have space : isSpace c = true := by
      cases space : isSpace c with
      | true => rfl
      | false =>
        rw [Json.skipSpace_of_head space] at blank
        cases blank
    rw [skipSpace_of_space space] at blank
    obtain gap | rfl | rfl := isSpace_cases space
    · rw [Toml.endLine?_gap gap] at ends
      simpa [gap] using ih blank ends
    · cases ends
      exact ⟨blank, id⟩
    · have alone := head?_ne_feed fun rest => other rest rfl
      rw [Toml.endLine?_return alone] at ends
      cases ends

/-- Blanks behind a header are blank lines, and the document is what the header made of it. -/
theorem blanks_behind_header (blank : skipSpace cs = []) (ends : Toml.endLine? cs = some rest)
    (read : Reading.lines fuel r rest = some out) : areBlankLines cs = true ∧ out = r := by
  obtain ⟨left, back⟩ := endLine?_blanks blank ends
  obtain ⟨lines, same⟩ := lines_all_blanks left read
  exact ⟨back lines, same⟩

end Blanks

/-! ## The front of a JSON document -/

/-- What may follow an item: the end of its array, or a comma. -/
def Follows (others : List Tree) (behind rest : List Char) : Prop :=
  (others = [] ∧ skipSpace behind = ']' :: rest) ∨ ∃ more, skipSpace behind = ',' :: more

/-- An array is empty, or its first item is followed by a bracket or a comma. -/
theorem readTree_array_front {items : List Tree}
    (read : readTree fuel cs = some (.array items, rest)) :
    ∃ tail, skipSpace cs = '[' :: tail ∧
      ((items = [] ∧ skipSpace tail = ']' :: rest) ∨
        ∃ fuel first others after, items = first :: others ∧
          readTree fuel (skipSpace tail) = some (first, after) ∧
          Follows others after rest) := by
  cases fuel with
  | zero => cases read
  | succ fuel =>
    rw [Json.readTree_eq_some] at read
    generalize skipSpace cs = front at read
    cases read with
    | emptyArray closed => exact ⟨_, rfl, Or.inl ⟨rfl, closed⟩⟩
    | array inner =>
      refine ⟨_, rfl, Or.inr ?_⟩
      cases fuel with
      | zero => cases inner
      | succ fuel =>
        cases Json.readItems_eq_some.mp inner with
        | last first closed => exact ⟨fuel, _, _, _, rfl, first, Or.inl ⟨rfl, closed⟩⟩
        | more first comma others => exact ⟨fuel, _, _, _, rfl, first, Or.inr ⟨_, comma⟩⟩

theorem readTree_object_front {fields : List (Option String × Tree)}
    (read : readTree fuel cs = some (.object fields, rest)) :
    ∃ tail, skipSpace cs = '{' :: tail := by
  cases fuel with
  | zero => cases read
  | succ fuel =>
    rw [Json.readTree_eq_some] at read
    generalize skipSpace cs = front at read
    cases read <;> exact ⟨_, rfl⟩

theorem readTree_null_front (read : readTree fuel cs = some (.null, rest)) :
    skipSpace cs = ['n', 'u', 'l', 'l'] ++ rest := by
  cases fuel with
  | zero => cases read
  | succ fuel =>
    rw [Json.readTree_eq_some] at read
    generalize skipSpace cs = front at read
    cases read
    rfl

theorem real?_ne_whole (n : Numeral) (value : Int) : n.real? ≠ some (.whole value) := by
  intro is
  unfold Numeral.real? at is
  dsimp only at is
  split at is
  · cases is
  · obtain ⟨f, -, other⟩ := Option.map_eq_some_iff.mp is
    cases other

theorem number?_eq_whole {n : Numeral} {value : Int} (is : n.number? = some (.whole value))
    (least : 0 ≤ value) : n.negative = false ∧ n.fraction = none ∧ n.exponent = none := by
  have apart := real?_ne_whole n value
  simp only [Numeral.number?, Option.isNone_iff_eq_none] at is
  by_cases plain : n.fraction = none ∧ n.exponent = none
  · rw [if_pos plain] at is
    cases sign : n.negative with
    | false => exact ⟨rfl, plain.1, plain.2⟩
    | true =>
      rw [if_pos sign] at is
      split at is
      · rename_i range
        simp only [Option.some.injEq, Json.Number.whole.injEq] at is
        omega
      · exact absurd is apart
  · rw [if_neg plain] at is
    exact absurd is apart

/-- A whole number that a field takes is written in digits alone. -/
theorem readTree_whole_front {t : Tree} {largest value : Nat}
    (read : readTree fuel cs = some (t, rest)) (whole : jsonWhole? largest t = some value) :
    ∃ word, word ≠ [] ∧ word.all isDigit = true ∧ skipSpace cs = word ++ rest := by
  unfold jsonWhole? at whole
  split at whole
  · rename_i n
    split at whole
    · rename_i value is
      split at whole
      · rename_i range
        obtain ⟨sign, fraction, exponent⟩ := number?_eq_whole is range.1
        cases fuel with
        | zero => cases read
        | succ fuel =>
          rw [Json.readTree_eq_some] at read
          generalize skipSpace cs = front at read
          cases read with
          | number read =>
            obtain ⟨tail, minus, digits, wellformed, after, first, second⟩ :=
              Json.readNumeral_eq_some.mp read
            rw [sign] at minus
            rw [fraction] at first
            rw [exponent, Json.readExponent_eq_some] at second
            obtain rfl := Json.numeralSign_false minus
            obtain rfl := Json.readFraction_none first
            obtain ⟨-, rfl, -⟩ | ⟨_, _, -, -, -, other, -⟩ := second
            · refine ⟨n.whole, ?_, ?_, ?_⟩
              · rintro empty
                exact wellformed (Or.inl (by rw [empty]; rfl))
              · rw [digits]
                simp
              · rw [digits, List.takeWhile_append_dropWhile]
            · cases other
      · cases whole
    · cases whole
  · cases whole

/-! ## What a section may begin with -/

theorem jsonRecord_array {names : List String} {items : List Tree} {fields : List (String × Tree)}
    (read : jsonDialect.record? names (.array items) = some fields) :
    fields = names.zip items := by
  simp only [jsonDialect] at read
  split at read
  · exact (Option.some.inj read).symm
  · cases read

/-- The first item of an array is the value of the first field. -/
theorem jsonField_first {β : Type} {convert : Tree → Option β} {name : String} {v : Tree}
    {others : List (String × Tree)} {out : Option β}
    (read : jsonDialect.field convert name ((name, v) :: others) = some out) :
    (v = .null ∧ out = none) ∨ ∃ b, convert v = some b ∧ out = some b := by
  simp only [Dialect.field, List.find?_cons, decide_true, jsonDialect] at read
  cases v with
  | null => exact Or.inl ⟨rfl, (Option.some.inj read).symm⟩
  | _ =>
    replace read : (convert _).bind (fun b => some (some b)) = some out := read
    obtain ⟨b, is, same⟩ := Option.bind_eq_some_iff.mp read
    exact Or.inr ⟨b, is, (Option.some.inj same).symm⟩

theorem document?_record {t : Tree} {d : Document} (read : jsonDialect.document? t = some d) :
    (∃ fields, t = .object fields) ∨ ∃ items, t = .array items := by
  cases t with
  | object fields => exact Or.inl ⟨fields, rfl⟩
  | array items => exact Or.inr ⟨items, rfl⟩
  | _ => cases read

theorem document?_array {first : Tree} {others : List Tree} {d : Document}
    (read : jsonDialect.document? (.array (first :: others)) = some d) :
    (first = .null ∧ d.pool = none) ∨
      ∃ p, jsonDialect.pool? first = some p ∧ d.pool = some p := by
  simp only [Dialect.document?, bind, pure, Option.bind_eq_some_iff] at read
  obtain ⟨fields, record, pool, front, retry, -, logging, -, same⟩ := read
  obtain rfl := Option.some.inj same
  rw [jsonRecord_array record] at front
  exact jsonField_first front

theorem document?_null {d : Document} (read : jsonDialect.document? (.array [.null]) = some d) :
    d = {} := (Option.some.inj read).symm

/-- A section is an object, or an array whose first item the section's first field takes. -/
theorem pool?_record {t : Tree} {p : PoolSection} (read : jsonDialect.pool? t = some p) :
    (∃ fields, t = .object fields) ∨ t = .array [] ∨ ∃ first others, t = .array (first :: others) ∧
      (first = .null ∨ ∃ value, jsonWhole? (UInt64.size - 1) first = some value) := by
  cases t with
  | object fields => exact Or.inl ⟨fields, rfl⟩
  | array items =>
    cases items with
    | nil => exact Or.inr (Or.inl rfl)
    | cons first others =>
      refine Or.inr (Or.inr ⟨first, others, rfl, ?_⟩)
      simp only [Dialect.pool?, bind, pure, Option.bind_eq_some_iff] at read
      obtain ⟨fields, record, workers, front, -⟩ := read
      rw [jsonRecord_array record] at front
      obtain ⟨null, -⟩ | ⟨value, whole, -⟩ := jsonField_first front
      · exact Or.inl null
      · exact Or.inr ⟨value, whole⟩
  | _ => cases read

/-! ## Headers that are arrays -/

/-- What JSON takes for the first field of a section and TOML for a name. -/
def IsWord (word : List Char) : Prop :=
  word = ['n', 'u', 'l', 'l'] ∨ (word ≠ [] ∧ word.all isDigit = true)

/-- A null or a whole number in two pairs of brackets, alone in the text: an array in an array for
JSON, a header of an array of tables for TOML. -/
def IsDoubledHeader (text : String) : Prop :=
  ∃ lead before word behind trail : List Char,
    text.toList = lead ++ '[' :: '[' :: (before ++ (word ++ (behind ++ ']' :: ']' :: trail))) ∧
    areBlankLines lead = true ∧ before.all isGap = true ∧ IsWord word ∧
    behind.all isGap = true ∧ areBlankLines trail = true

section Words

variable {word : List Char} (is : IsWord word)
include is

theorem IsWord.bare : word.all Toml.isBare = true := by
  rcases is with rfl | ⟨-, digits⟩
  · decide
  · rw [List.all_eq_true] at digits ⊢
    exact fun c among => by simp [Toml.isBare, digits c among]

theorem IsWord.ne_nil : word ≠ [] := by
  rcases is with rfl | ⟨some, -⟩
  · simp
  · exact some

/-- It names no section. -/
theorem IsWord.unknown : String.ofList word ∉ ["worker_pool", "retry", "logging"] := by
  have apart (name : String) (null : name.toList ≠ ['n', 'u', 'l', 'l'])
      (letter : name.toList.all isDigit = false) : String.ofList word ≠ name := by
    rintro rfl
    rw [String.toList_ofList] at null letter
    rcases is with rfl | ⟨-, digits⟩
    · exact null rfl
    · rw [digits] at letter
      cases letter
  simp only [List.mem_cons, List.not_mem_nil, or_false, not_or]
  exact ⟨apart _ (by decide) (by decide), apart _ (by decide) (by decide),
    apart _ (by decide) (by decide)⟩

end Words

theorem readTree_word {first : Tree} {largest : Nat}
    (read : readTree fuel cs = some (first, rest))
    (fits : first = .null ∨ ∃ value, jsonWhole? largest first = some value) :
    ∃ word, IsWord word ∧ skipSpace cs = word ++ rest := by
  obtain rfl | ⟨value, whole⟩ := fits
  · exact ⟨_, Or.inl rfl, readTree_null_front read⟩
  · obtain ⟨word, some, digits, front⟩ := readTree_whole_front read whole
    exact ⟨word, Or.inr ⟨some, digits⟩, front⟩

theorem head_of_skipSpace {c : Char} (left : skipSpace cs = c :: tail) :
    ∀ b ∈ cs.head?, isSpace b = true ∨ b = c := by
  intro b first
  obtain ⟨more, rfl⟩ := List.head?_eq_some_iff.mp first
  by_cases space : isSpace b = true
  · exact Or.inl space
  · rw [Json.skipSpace_of_head (by simpa using space)] at left
    exact Or.inr (List.cons.inj left).1

theorem isBare_of_isSpace {c : Char} (space : isSpace c = true) : Toml.isBare c = false := by
  simp only [isSpace, Bool.or_eq_true, decide_eq_true_eq] at space
  obtain ((rfl | rfl) | rfl) | rfl := space <;> decide

/-- A key that JSON reads as an item is that item's word, on the line of its bracket. -/
theorem key?_item {word : List Char} {names : List String} {c : Char} (is : IsWord word)
    (left : skipSpace cs = word ++ after) (ends : skipSpace after = c :: tail)
    (mark : c = ']' ∨ c = ',') (key : key? (fuel + 1) cs = some (names, rest)) :
    skipGaps cs = word ++ after ∧ names = [String.ofList word] ∧ rest = skipGaps after := by
  have line : skipGaps cs = word ++ after := by
    rcases skipGaps_eq_skipSpace cs with same | ⟨b, more, stop, breaks⟩
    · exact same.trans left
    · rw [Toml.key?_eq_none (noName_break breaks) stop] at key
      cases key
  have separate : ∀ b ∈ after.head?, Toml.isBare b = false := by
    intro b first
    obtain space | rfl := head_of_skipSpace ends b first
    · exact isBare_of_isSpace space
    · rcases mark with rfl | rfl <;> decide
  have last : ∀ b ∈ (skipGaps after).head?, b ≠ '.' := by
    intro b first
    rcases skipGaps_eq_skipSpace after with same | ⟨d, more, stop, breaks⟩
    · rw [same, ends] at first
      obtain rfl := Option.some.inj first
      rcases mark with rfl | rfl <;> decide
    · rw [stop] at first
      obtain rfl := Option.some.inj first
      rcases breaks with rfl | rfl <;> decide
  rw [Toml.key?_word is.bare is.ne_nil line separate last] at key
  obtain ⟨rfl, rfl⟩ := Prod.mk.inj (Option.some.inj key)
  exact ⟨line, rfl, rfl⟩

section Headers

variable {r out : Reading}

theorem noName_bracket {c : Char} (mark : c ∈ ['[', ']', '\x7b']) : NoName c := by
  simp only [List.mem_cons, List.not_mem_nil, or_false] at mark
  obtain rfl | rfl | rfl := mark <;> exact ⟨by decide, by decide, by decide, by decide⟩

theorem header?_unnamed {inner : List Char} {doubled : Bool} {c : Char}
    (front : Toml.brackets cs = (doubled, inner)) (left : skipSpace inner = c :: tail)
    (mark : c ∈ ['[', ']', '\x7b']) : r.header? cs = none := by
  rw [Reading.header?_eq, front, key?_unnamed (noName_bracket mark) left]
  rfl

theorem brackets_of_skipSpace {c : Char} (left : skipSpace cs = c :: tail) (other : c ≠ '[') :
    Toml.brackets cs = (false, cs) := by
  refine Toml.brackets_single fun first => ?_
  obtain ⟨more, rfl⟩ := List.head?_eq_some_iff.mp first
  exact other (List.cons.inj left).1.symm

/-- A header that JSON reads as the front of an array holds the word of the first item. -/
theorem header?_item {word inner : List Char} {doubled : Bool} {c : Char}
    (front : Toml.brackets cs = (doubled, inner)) (is : IsWord word)
    (left : skipSpace inner = word ++ after) (ends : skipSpace after = c :: tail)
    (mark : c = ']' ∨ c = ',') (header : Reading.header? {} cs = some (r, rest)) :
    r = Reading.opened doubled (String.ofList word) ∧ skipGaps inner = word ++ after ∧
      ∃ trail, Toml.closing? doubled (skipGaps after) = some trail ∧
        Toml.endLine? trail = some rest := by
  have named := header
  rw [Reading.header?_eq, front] at named
  obtain ⟨⟨names, behind⟩, key, -⟩ := Option.bind_eq_some_iff.mp named
  obtain ⟨line, rfl, rfl⟩ := key?_item is left ends mark key
  rw [Reading.header?_name front key] at header
  obtain ⟨_, closed, same⟩ := Option.map_eq_some_iff.mp header
  obtain ⟨rfl, rfl⟩ := Prod.mk.inj same
  exact ⟨rfl, line, Option.bind_eq_some_iff.mp closed⟩

variable {items : List Tree} {behind trail : List Char} {steps : Nat}

theorem Follows.mark (next : Follows items behind rest) :
    ∃ c tail, skipSpace behind = c :: tail ∧ (c = ']' ∨ c = ',') := by
  obtain ⟨-, closed⟩ | ⟨more, comma⟩ := next
  · exact ⟨_, _, closed, Or.inl rfl⟩
  · exact ⟨_, _, comma, Or.inr rfl⟩

theorem Follows.closed (next : Follows items behind rest)
    (bracket : skipGaps behind = ']' :: trail) : items = [] ∧ rest = trail := by
  have closed : skipSpace behind = ']' :: trail := by
    rw [← skipSpace_skipGaps, bracket, Json.skipSpace_of_head (by decide)]
  obtain ⟨none, same⟩ | ⟨more, comma⟩ := next
  · exact ⟨none, (List.cons.inj (same.symm.trans closed)).2⟩
  · exact absurd (List.cons.inj (comma.symm.trans closed)).1 (by decide)

/-- A null at the front of a document is all of it, if it is a header. -/
theorem header?_null (left : skipSpace cs = ['n', 'u', 'l', 'l'] ++ behind)
    (next : Follows items behind rest) (blank : skipSpace rest = [])
    (header : Reading.header? {} cs = some (r, after))
    (others : Reading.lines fuel r after = some out) :
    items = [] ∧ areBlankLines rest = true ∧ out = Reading.opened false "null" := by
  obtain ⟨c, tail, ends, mark⟩ := next.mark
  obtain ⟨rfl, -, trail, closed, line⟩ := header?_item
    (brackets_of_skipSpace left (by decide)) (Or.inl rfl) left ends mark header
  obtain ⟨rfl, rfl⟩ := next.closed (Toml.closing?_single.mp closed)
  obtain ⟨lines, rfl⟩ := blanks_behind_header blank line others
  exact ⟨rfl, lines, rfl⟩

/-- An array at the front of a document is a header if it holds one word beside its bracket. -/
theorem header?_nested {inner : List Tree} {p : PoolSection}
    (read : readTree fuel (skipSpace cs) = some (.array inner, behind))
    (accepted : jsonDialect.pool? (.array inner) = some p)
    (next : Follows items behind rest) (blank : skipSpace rest = [])
    (header : Reading.header? {} cs = some (r, after))
    (others : Reading.lines steps r after = some out) :
    ∃ word, IsWord word ∧ areBlankLines rest = true ∧
      out = Reading.opened true (String.ofList word) ∧ ∃ before behind,
        cs = '[' :: (before ++ (word ++ (behind ++ ']' :: ']' :: rest))) ∧
          before.all isGap = true ∧ behind.all isGap = true := by
  obtain ⟨tail, front, shape⟩ := readTree_array_front read
  rw [skipSpace_skipSpace] at front
  by_cases adjacent : cs.head? = some '['
  · obtain ⟨more, rfl⟩ := List.head?_eq_some_iff.mp adjacent
    obtain rfl : more = tail := (List.cons.inj front).2
    have adjoining : Toml.brackets ('[' :: more) = (true, more) := rfl
    obtain ⟨rfl, closed⟩ | ⟨_, first, rest', behind', rfl, item, next'⟩ := shape
    · rw [header?_unnamed adjoining closed (by decide)] at header
      cases header
    · obtain ⟨fields, other⟩ | other | ⟨_, _, same, fits⟩ := pool?_record accepted
      · cases other
      · cases other
      · obtain ⟨rfl, rfl⟩ := List.cons.inj (Tree.array.inj same)
        obtain ⟨word, is, left⟩ := readTree_word item fits
        rw [skipSpace_skipSpace] at left
        obtain ⟨c, tail, ends, mark⟩ := next'.mark
        obtain ⟨rfl, named, trail, closing, line⟩ := header?_item adjoining is left ends mark header
        have brackets := Toml.closing?_doubled.mp closing
        obtain ⟨-, rfl⟩ := next'.closed brackets
        obtain ⟨-, rfl⟩ := next.closed (Toml.skipGaps_other (by decide))
        obtain ⟨lines, rfl⟩ := blanks_behind_header blank line others
        obtain ⟨before, first, rfl⟩ := Toml.gaps_of_skipGaps named
        obtain ⟨gaps, last, rfl⟩ := Toml.gaps_of_skipGaps brackets
        exact ⟨word, is, lines, rfl, before, gaps, rfl, first, last⟩
  · rw [header?_unnamed (Toml.brackets_single adjacent) front (by decide)] at header
    cases header

/-- What TOML makes of an array that JSON accepts as a document, if it takes it for a header. -/
theorem header?_array {whole : List Char} {d : Document}
    (read : readTree fuel whole = some (.array items, rest)) (front : skipSpace whole = '[' :: cs)
    (blank : skipSpace rest = []) (accepted : jsonDialect.document? (.array items) = some d)
    (header : Reading.header? {} cs = some (r, after))
    (others : Reading.lines steps r after = some out) :
    areBlankLines rest = true ∧ ∃ word, IsWord word ∧
      ((out = Reading.opened false (String.ofList word) ∧ d = {}) ∨
        (out = Reading.opened true (String.ofList word) ∧ ∃ before behind,
          cs = '[' :: (before ++ (word ++ (behind ++ ']' :: ']' :: rest))) ∧
            before.all isGap = true ∧ behind.all isGap = true)) := by
  obtain ⟨tail, same, shape⟩ := readTree_array_front read
  obtain rfl : cs = tail := (List.cons.inj (front.symm.trans same)).2
  obtain ⟨rfl, closed⟩ | ⟨_, first, more, behind, rfl, item, next⟩ := shape
  · have single := brackets_of_skipSpace closed (by decide)
    rw [header?_unnamed single closed (by decide)] at header
    cases header
  obtain ⟨rfl, -⟩ | ⟨p, inside, -⟩ := document?_array accepted
  · have left := readTree_null_front item
    rw [skipSpace_skipSpace] at left
    obtain ⟨rfl, lines, rfl⟩ := header?_null left next blank header others
    exact ⟨lines, _, Or.inl rfl, Or.inl ⟨rfl, document?_null accepted⟩⟩
  · obtain ⟨fields, rfl⟩ | record := pool?_record inside
    · obtain ⟨tail, brace⟩ := readTree_object_front item
      rw [skipSpace_skipSpace] at brace
      have single := brackets_of_skipSpace brace (by decide)
      rw [header?_unnamed single brace (by decide)] at header
      cases header
    · obtain ⟨inner, rfl⟩ : ∃ inner, first = .array inner := by
        obtain rfl | ⟨_, _, rfl, -⟩ := record <;> exact ⟨_, rfl⟩
      obtain ⟨word, is, lines, out, shape⟩ :=
        header?_nested item inside next blank header others
      exact ⟨lines, word, is, Or.inr ⟨out, shape⟩⟩

end Headers

/-! ## Documents -/

theorem ofJson?_eq_some {text : String} {d : Document} (read : Document.ofJson? text = some d) :
    ∃ fuel t rest, readTree fuel text.toList = some (t, rest) ∧ skipSpace rest = [] ∧
      jsonDialect.document? t = some d := by
  obtain ⟨t, whole, accepted⟩ := Option.bind_eq_some_iff.mp read
  simp only [Tree.read?] at whole
  split at whole
  · rename_i t' rest first
    split at whole
    · rename_i blank
      cases whole
      exact ⟨_, t, rest, first, by simpa using blank, accepted⟩
    · cases whole
  · cases whole

/-- No JSON text begins with a byte order mark. -/
theorem unmarked_of_readTree {t : Tree} (read : readTree fuel cs = some (t, rest)) :
    ∀ c ∈ cs.head?, c.toNat ≠ 0xfeff := by
  intro c first mark
  obtain ⟨tail, rfl⟩ := List.head?_eq_some_iff.mp first
  obtain rfl : c = Char.ofNat 0xfeff := by rw [← mark, Char.ofNat_toNat]
  rw [Json.readTree_eq_none (by decide) (by decide) (by decide)] at read
  cases read

/-- A document with one table under a word has no section. -/
theorem document?_opened {word : List Char} (is : IsWord word) (doubled : Bool) :
    tomlDialect.document?
      (.table (Toml.fieldValues (Reading.opened doubled (String.ofList word)).root)) =
        some {} := by
  have unknown := is.unknown
  generalize String.ofList word = name at unknown
  have none : knownOnce? ["worker_pool", "retry", "logging"]
      (Toml.fieldValues (Reading.opened doubled name).root) = some [] := by
    simp only [knownOnce?, Reading.opened, Toml.fieldValues, List.filter_cons,
      List.contains_iff_mem, unknown, if_false, List.filter_nil]
    rfl
  simp only [Dialect.document?, tomlDialect, none]
  rfl

namespace Document

variable {text : String} {d : Document}

theorem ofToml?_doubledHeader (unmarked : ∀ c ∈ text.toList.head?, c.toNat ≠ 0xfeff)
    (is : IsDoubledHeader text) : ofToml? text = some {} := by
  obtain ⟨lead, before, word, behind, trail, shape, blank, gaps, named, gaps', blank'⟩ := is
  obtain ⟨after, line, left, short⟩ := Toml.endLine?_blank blank'
  have read : Reading.lines (2 * text.toList.length + 2) {} text.toList =
      some (Reading.opened true (String.ofList word)) := by
    obtain ⟨used, few, same⟩ := Reading.lines_blank blank
      ('[' :: '[' :: (before ++ (word ++ (behind ++ ']' :: ']' :: trail))))
    obtain ⟨spare, enough, size⟩ :
        ∃ spare, trail.length < spare ∧ 2 * text.toList.length + 2 = spare + 1 + used := by
      refine ⟨2 * text.toList.length + 1 - used, ?_, ?_⟩ <;>
        (rw [shape]; simp only [List.length_append, List.length_cons]; omega)
    rw [size, shape, same, Reading.lines_header,
      Reading.header?_doubled named.bare named.ne_nil gaps gaps', line]
    exact Reading.lines_only_blank left (show after.length < spare by omega)
  rw [ofToml?, Toml.read?_unmarked unmarked, read]
  exact document?_opened named true

/-- What TOML makes of a text that JSON accepts. -/
theorem ofToml?_json (read : ofJson? text = some d) :
    ofToml? text = none ∨ (ofToml? text = some {} ∧ (d = {} ∨ IsDoubledHeader text)) := by
  obtain ⟨fuel, t, rest, first, blank, accepted⟩ := ofJson?_eq_some read
  have whole := Toml.read?_unmarked (unmarked_of_readTree first)
  cases lines : Reading.lines (2 * text.toList.length + 2) {} text.toList with
  | none =>
    refine Or.inl ?_
    rw [ofToml?, whole, lines]
    rfl
  | some out =>
    refine Or.inr ?_
    obtain ⟨lead, steps, body⟩ := lines_blanks lines
    have split : text.toList.takeWhile isSpace ++ skipSpace text.toList = text.toList :=
      List.takeWhile_append_dropWhile
    obtain ⟨fields, rfl⟩ | ⟨items, rfl⟩ := document?_record accepted
    · obtain ⟨tail, brace⟩ := readTree_object_front first
      rw [brace, Reading.lines_eq_none (noName_bracket (by decide)) (by decide) (by decide)
        rfl] at body
      cases body
    · obtain ⟨tail, bracket, -⟩ := readTree_array_front first
      rw [bracket] at body split
      cases steps with
      | zero => cases body
      | succ steps =>
        rw [Reading.lines_header] at body
        obtain ⟨⟨r, after⟩, header, others⟩ := Option.bind_eq_some_iff.mp body
        obtain ⟨trail, word, is, shape⟩ :=
          header?_array first bracket blank accepted header others
        have empty (doubled : Bool) (same : out = Reading.opened doubled (String.ofList word)) :
            ofToml? text = some {} := by
          rw [ofToml?, whole, lines, same]
          exact document?_opened is doubled
        obtain ⟨same, nothing⟩ | ⟨same, before, behind, rfl, gaps, gaps'⟩ := shape
        · exact ⟨empty false same, Or.inl nothing⟩
        · exact ⟨empty true same, Or.inr
            ⟨_, before, word, behind, rest, split.symm, lead, gaps, is, gaps', trail⟩⟩

/-- JSON finds a section in the inner array. -/
theorem ofJson?_doubledHeader (is : IsDoubledHeader text) (read : ofJson? text = some d) :
    d ≠ {} := by
  obtain ⟨lead, before, word, behind, trail, shape, blank, -⟩ := is
  obtain ⟨fuel, t, rest, first, -, accepted⟩ := ofJson?_eq_some read
  have front : skipSpace text.toList =
      '[' :: '[' :: (before ++ (word ++ (behind ++ ']' :: ']' :: trail))) := by
    rw [shape, skipSpace_blank blank, Json.skipSpace_of_head (by decide)]
  obtain ⟨fields, rfl⟩ | ⟨items, rfl⟩ := document?_record accepted
  · obtain ⟨tail, brace⟩ := readTree_object_front first
    exact absurd (List.cons.inj (front.symm.trans brace)).1 (by decide)
  · obtain ⟨tail, bracket, inner⟩ := readTree_array_front first
    obtain rfl := (List.cons.inj (front.symm.trans bracket)).2
    rw [Json.skipSpace_of_head (by decide)] at inner
    obtain ⟨-, closed⟩ | ⟨_, item, _, _, rfl, nested, -⟩ := inner
    · exact absurd (List.cons.inj closed).1 (by decide)
    · obtain ⟨rfl, -⟩ | ⟨p, -, given⟩ := document?_array accepted
      · exact absurd (List.cons.inj (readTree_null_front nested)).1 (by decide)
      · rintro rfl
        cases given

/-- The first format that reads a JSON text reads what JSON does, doubled headers apart. -/
theorem detect?_json (read : ofJson? text = some d) :
    (¬IsDoubledHeader text → detect? text = some d) ∧
      (IsDoubledHeader text → detect? text = some {}) := by
  have unmarked : ∀ c ∈ text.toList.head?, c.toNat ≠ 0xfeff := by
    obtain ⟨fuel, t, rest, first, -⟩ := ofJson?_eq_some read
    exact unmarked_of_readTree first
  constructor
  · intro other
    obtain none | ⟨some, rfl | is⟩ := ofToml?_json read
    · rw [detect?, none, read]
      rfl
    · rw [detect?, some]
      rfl
    · exact absurd is other
  · intro is
    rw [detect?, ofToml?_doubledHeader unmarked is]
    rfl

/-- A file whose name tells no format is read as its content is read under the name of a JSON file,
unless the content is a doubled header: then it is empty for the one and not for the other. -/
theorem load_undeclared {files : Files} {bare named text : String} {d : Document}
    (content : files.read bare = .ok text) (same : files.read named = .ok text)
    (undeclared : (extension? bare).bind Format.ofExtension? = none)
    (declared : (extension? named).bind Format.ofExtension? = some .json)
    (loaded : load files named = .ok d) :
    (¬IsDoubledHeader text → load files bare = .ok d) ∧
      (IsDoubledHeader text → load files bare = .ok {} ∧ d ≠ {}) := by
  have read : ofJson? text = some d := by
    simp only [load, same, declared, Document.read?] at loaded
    cases read : ofJson? text with
    | none => simp [read] at loaded
    | some d' => simpa [read] using loaded
  have detected (d' : Document) (detect : detect? text = some d') :
      load files bare = .ok d' := by
    simp only [load, content, undeclared, detect]
  obtain ⟨plain, doubled⟩ := detect?_json read
  exact ⟨fun other => detected d (plain other),
    fun is => ⟨detected {} (doubled is), ofJson?_doubledHeader is read⟩⟩

/-- Two files with one content. -/
def twins (text : String) : Files := ⟨[(["settings"], .file text), (["settings.json"], .file text)]⟩

theorem read_twins (text : String) :
    (twins text).read "settings" = .ok text ∧ (twins text).read "settings.json" = .ok text := by
  have bare : Path.parse "settings" = ⟨["settings"], false⟩ := by decide +kernel
  have named : Path.parse "settings.json" = ⟨["settings.json"], false⟩ := by decide +kernel
  constructor <;>
    simp [Files.read, Files.lookup, Files.locate, Files.resolve, Files.node?, twins, bare, named]

/-- Three workers, in an object. -/
def threeWorkers : String := "\x7b\"worker_pool\":\x7b\"workers\":3\x7d\x7d"

theorem load_undeclared_object :
    ¬IsDoubledHeader threeWorkers ∧
      load (twins threeWorkers) "settings.json" = .ok { pool := some { workers := some 3 } } ∧
      load (twins threeWorkers) "settings" = .ok { pool := some { workers := some 3 } } := by
  have apart : ¬IsDoubledHeader threeWorkers := by
    rintro ⟨lead, before, word, behind, trail, shape, -⟩
    have bracket : '[' ∈ threeWorkers.toList := by
      rw [shape]
      simp
    exact absurd bracket (by decide)
  have read : ofJson? threeWorkers = some { pool := some { workers := some 3 } } := by
    decide +kernel
  have undeclared : (extension? "settings").bind Format.ofExtension? = none := by decide +kernel
  have declared : (extension? "settings.json").bind Format.ofExtension? = some .json := by
    decide +kernel
  obtain ⟨content, same⟩ := read_twins threeWorkers
  have loaded : load (twins threeWorkers) "settings.json" =
      .ok { pool := some { workers := some 3 } } := by
    simp only [load, same, declared, Document.read?, read]
  exact ⟨apart, loaded, (load_undeclared content same undeclared declared loaded).1 apart⟩

/-- The empty document is not what JSON reads in it. -/
theorem detect?_seven :
    ofJson? "[[7]]" = some { pool := some { workers := some 7 } } ∧
      detect? "[[7]]" = some {} := by
  decide +kernel

end Document

end JobEngine.Config
