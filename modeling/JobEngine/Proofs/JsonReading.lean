import JobEngine.Json.Reader

/-!
# How JSON text is read

One step of the reader is an inductive relation with a constructor for each
kind of value. What was read once is read again in front of any text that
begins with a character which goes on with no token, so no document ends where
such a character stands inside another document.
-/
namespace JobEngine.Json

open Text (isDigit hexValue?)

/-! ## Scanning up to a character -/

section Scanning

variable {p : Char → Bool} {c : Char}

theorem takeWhile_append_stop (stop : p c = false) (cs more : List Char) :
    (cs ++ c :: more).takeWhile p = cs.takeWhile p := by
  induction cs with
  | nil => simp [stop]
  | cons b cs ih => rw [List.cons_append, List.takeWhile_cons, List.takeWhile_cons, ih]

theorem dropWhile_append_stop (stop : p c = false) (cs more : List Char) :
    (cs ++ c :: more).dropWhile p = cs.dropWhile p ++ c :: more := by
  induction cs with
  | nil => simp [stop]
  | cons b cs ih =>
    rw [List.cons_append, List.dropWhile_cons, List.dropWhile_cons, ih]
    split <;> rfl

end Scanning

/-- A character that is no blank and goes on with no numeral. -/
structure Stops (sep : Char) : Prop where
  space : isSpace sep = false
  digit : isDigit sep = false
  point : sep ≠ '.'
  exponent : ¬(sep = 'e' ∨ sep = 'E')

variable {fuel k : Nat} {cs rest more : List Char} {sep : Char}

/-! ## Strings -/

theorem hexQuad_append {code : Nat} (read : hexQuad cs = some (code, rest)) :
    hexQuad (cs ++ more) = some (code, rest ++ more) := by
  match cs, read with
  | a :: b :: c :: d :: tail, read =>
    simp only [hexQuad, List.cons_append, bind, pure, Option.bind_eq_some_iff, Option.some.injEq,
      Prod.mk.injEq] at read ⊢
    obtain ⟨first, one, second, two, third, three, fourth, four, value, rfl⟩ := read
    exact ⟨first, one, second, two, third, three, fourth, four, value, rfl⟩

theorem readString_nil : readString fuel [] = none := by cases fuel <;> rfl

theorem readString_escape {read : Option (List Char) × List Char}
    (ends : readString fuel ('\\' :: cs) = some read) : ∃ c rest, escaped cs = some (c, rest) := by
  cases fuel with
  | zero => cases ends
  | succ fuel =>
    rw [readString] at ends
    cases escape : escaped cs with
    | none => simp [escape] at ends
    | some pair => exact ⟨pair.1, pair.2, rfl⟩

/-- Where a string goes on, it is settled whether an escape by number comes next. -/
theorem escape_settled {read : Option (List Char) × List Char}
    (ends : readString fuel cs = some read) :
    (∃ low code after, cs = '\\' :: 'u' :: low ∧ hexQuad low = some (code, after)) ∨
      ∀ more low, cs ++ more ≠ '\\' :: 'u' :: low := by
  rcases cs with _ | ⟨a, tail⟩
  · rw [readString_nil] at ends
    cases ends
  by_cases slash : a = '\\'
  · subst slash
    obtain ⟨c, rest, escape⟩ := readString_escape ends
    rcases tail with _ | ⟨b, low⟩
    · cases escape
    by_cases number : b = 'u'
    · subst number
      rw [escaped] at escape
      cases quad : hexQuad low with
      | none => simp [quad] at escape
      | some pair => exact Or.inl ⟨low, pair.1, pair.2, rfl, quad⟩
    · refine Or.inr fun more low same => number ?_
      exact (List.cons.inj (List.cons.inj same).2).1
  · exact Or.inr fun more low same => slash (List.cons.inj same).1

theorem escaped_append {c : Option Char} {read : Option (List Char) × List Char}
    (escape : escaped cs = some (c, rest)) (ends : readString fuel rest = some read) :
    escaped (cs ++ more) = some (c, rest ++ more) := by
  unfold escaped at escape
  split at escape
  all_goals try (obtain ⟨rfl, rfl⟩ := Prod.mk.inj (Option.some.inj escape); rfl)
  · rename_i tail
    cases quad : hexQuad tail with
    | none => simp [quad] at escape
    | some pair =>
      obtain ⟨code, following⟩ := pair
      simp only [quad] at escape
      simp only [List.cons_append, escaped, hexQuad_append quad]
      by_cases lead : isLead code = true
      · simp only [lead, if_true] at escape ⊢
        split at escape
        · rename_i low
          cases second : hexQuad low with
          | none =>
            simp only [second] at escape
            obtain ⟨rfl, rfl⟩ := Prod.mk.inj (Option.some.inj escape)
            rcases escape_settled ends with ⟨low', _, _, same, quad'⟩ | apart
            · rw [← (List.cons.inj (List.cons.inj same).2).2, second] at quad'
              cases quad'
            · exact absurd (List.append_nil _) (apart [] low)
          | some pair =>
            simp only [second] at escape
            simp only [List.cons_append, hexQuad_append second]
            split at escape <;> obtain ⟨rfl, rfl⟩ := Prod.mk.inj (Option.some.inj escape)
            · simp [*]
            · simp [*]
        · obtain ⟨rfl, rfl⟩ := Prod.mk.inj (Option.some.inj escape)
          rename_i other
          rcases escape_settled ends with ⟨low, _, _, same, _⟩ | apart
          · exact absurd same (other low)
          · split
            · rename_i same
              exact absurd same (apart more _)
            · rfl
      · simp only [lead, Bool.false_eq_true, if_false] at escape ⊢
        split at escape <;> obtain ⟨rfl, rfl⟩ := Prod.mk.inj (Option.some.inj escape)
        · simp [*]
        · simp [*]
  · cases escape

/-- A string is read alike whatever follows its closing quote. -/
theorem readString_append {read : Option (List Char) × List Char}
    (ends : readString fuel cs = some read) :
    readString (fuel + k) (cs ++ more) = some (read.1, read.2 ++ more) := by
  induction fuel generalizing cs read with
  | zero => cases ends
  | succ fuel ih =>
    rw [Nat.succ_add]
    rcases cs with _ | ⟨c, tail⟩
    · cases ends
    by_cases quote : c = '"'
    · subst quote
      cases ends
      rfl
    by_cases slash : c = '\\'
    · subst slash
      obtain ⟨c, rest, escape⟩ := readString_escape ends
      simp only [readString, escape, Option.map_eq_some_iff] at ends
      obtain ⟨inner, later, rfl⟩ := ends
      simp only [List.cons_append, readString, escaped_append escape later, ih later,
        Option.map_some]
    · simp only [readString] at ends
      split at ends
      · cases ends
      · rename_i printable
        obtain ⟨inner, later, rfl⟩ := Option.map_eq_some_iff.mp ends
        simp only [List.cons_append, readString, printable, if_false, ih later, Option.map_some]

/-! ## Numerals -/

/-- The sign of a numeral: a plus sign is none. -/
def numeralSign : List Char → Bool × List Char
  | '-' :: rest => (true, rest)
  | rest => (false, rest)

/-- The sign of a power of ten. -/
def powerSign : List Char → Bool × List Char
  | '+' :: rest => (false, rest)
  | '-' :: rest => (true, rest)
  | rest => (false, rest)

theorem numeralSign_append (some : cs ≠ []) :
    numeralSign (cs ++ more) = ((numeralSign cs).1, (numeralSign cs).2 ++ more) := by
  obtain ⟨c, tail, rfl⟩ := List.exists_cons_of_ne_nil some
  by_cases minus : c = '-'
  · subst minus
    rfl
  · have bare (tail : List Char) : numeralSign (c :: tail) = (false, c :: tail) := by
      simp [numeralSign, minus]
    rw [List.cons_append, bare, bare]
    rfl

theorem numeralSign_false (sign : numeralSign cs = (false, rest)) : rest = cs := by
  unfold numeralSign at sign
  split at sign <;> cases sign
  rfl

theorem readFraction_none (read : readFraction cs = some (none, rest)) : rest = cs := by
  unfold readFraction at read
  dsimp only at read
  split at read
  · split at read <;> cases read
  · cases read
    rfl

theorem powerSign_append (some : cs ≠ []) :
    powerSign (cs ++ more) = ((powerSign cs).1, (powerSign cs).2 ++ more) := by
  obtain ⟨c, tail, rfl⟩ := List.exists_cons_of_ne_nil some
  by_cases plus : c = '+'
  · subst plus
    rfl
  by_cases minus : c = '-'
  · subst minus
    rfl
  · have bare (tail : List Char) : powerSign (c :: tail) = (false, c :: tail) := by
      simp [powerSign, plus, minus]
    rw [List.cons_append, bare, bare]
    rfl

theorem readExponent_other (other : ∀ c ∈ cs.head?, ¬(c = 'e' ∨ c = 'E')) :
    readExponent cs = some (none, cs) := by
  cases cs with
  | nil => rfl
  | cons c tail => exact if_neg (other c rfl)

theorem readExponent_mark {c : Char} {tail : List Char} (mark : c = 'e' ∨ c = 'E') :
    readExponent (c :: tail) =
      if ((powerSign tail).2.takeWhile isDigit).isEmpty then none
      else some (some ((powerSign tail).1, (powerSign tail).2.takeWhile isDigit),
        (powerSign tail).2.dropWhile isDigit) := if_pos mark

/-- Behind a mark there is a digit; without a mark there is no exponent. -/
theorem readExponent_eq_some {exponent : Option (Bool × List Char)} :
    readExponent cs = some (exponent, rest) ↔
      (exponent = none ∧ rest = cs ∧ ∀ c ∈ cs.head?, ¬(c = 'e' ∨ c = 'E')) ∨
      ∃ c tail, cs = c :: tail ∧ (c = 'e' ∨ c = 'E') ∧
        (powerSign tail).2.takeWhile isDigit ≠ [] ∧
        exponent = some ((powerSign tail).1, (powerSign tail).2.takeWhile isDigit) ∧
        rest = (powerSign tail).2.dropWhile isDigit := by
  constructor
  · intro read
    by_cases other : ∀ c ∈ cs.head?, ¬(c = 'e' ∨ c = 'E')
    · rw [readExponent_other other] at read
      obtain ⟨rfl, rfl⟩ := Prod.mk.inj (Option.some.inj read)
      exact Or.inl ⟨rfl, rfl, other⟩
    · obtain ⟨c, first, mark⟩ : ∃ c ∈ cs.head?, c = 'e' ∨ c = 'E' := by
        simpa [Decidable.or_iff_not_imp_left] using other
      obtain ⟨tail, rfl⟩ := List.head?_eq_some_iff.mp first
      rw [readExponent_mark mark] at read
      split at read
      · cases read
      · rename_i digits
        obtain ⟨rfl, rfl⟩ := Prod.mk.inj (Option.some.inj read)
        exact Or.inr ⟨c, tail, rfl, mark, by simpa using digits, rfl, rfl⟩
  · rintro (⟨rfl, rfl, other⟩ | ⟨c, tail, rfl, mark, digits, rfl, rfl⟩)
    · exact readExponent_other other
    · rw [readExponent_mark mark, if_neg (by simpa using digits)]

/-- A numeral behind its sign. -/
def readUnsigned (negative : Bool) (cs : List Char) : Option (Numeral × List Char) :=
  if (cs.takeWhile isDigit).isEmpty ∨
      ((cs.takeWhile isDigit).head? = some '0' ∧ 1 < (cs.takeWhile isDigit).length) then none
  else
    (readFraction (cs.dropWhile isDigit)).bind fun first =>
      (readExponent first.2).map fun second =>
        (⟨negative, cs.takeWhile isDigit, first.1, second.1⟩, second.2)

theorem readNumeral_eq (cs : List Char) :
    readNumeral cs = readUnsigned (numeralSign cs).1 (numeralSign cs).2 := by
  unfold readNumeral
  split
  rename_i negative rest sign
  have same : numeralSign cs = (negative, rest) := sign
  rw [same, readUnsigned]
  refine ite_congr rfl (fun _ => rfl) fun _ => ?_
  cases readFraction (rest.dropWhile isDigit) with
  | none => rfl
  | some first => rfl

/-- The parts of a numeral, one after the other. -/
theorem readNumeral_eq_some {n : Numeral} :
    readNumeral cs = some (n, rest) ↔
      ∃ tail, numeralSign cs = (n.negative, tail) ∧ n.whole = tail.takeWhile isDigit ∧
        ¬(n.whole.isEmpty ∨ (n.whole.head? = some '0' ∧ 1 < n.whole.length)) ∧
        ∃ after, readFraction (tail.dropWhile isDigit) = some (n.fraction, after) ∧
          readExponent after = some (n.exponent, rest) := by
  rw [readNumeral_eq, readUnsigned]
  constructor
  · intro read
    split at read
    · cases read
    · rename_i wellformed
      obtain ⟨⟨fraction, after⟩, first, read⟩ := Option.bind_eq_some_iff.mp read
      obtain ⟨⟨exponent, later⟩, second, same⟩ := Option.map_eq_some_iff.mp read
      obtain ⟨rfl, rfl⟩ := Prod.mk.inj same
      exact ⟨_, rfl, rfl, wellformed, after, first, second⟩
  · rintro ⟨tail, sign, whole, wellformed, after, first, second⟩
    rw [whole] at wellformed
    rw [sign, if_neg wellformed]
    simp only [first, second, Option.bind_some, Option.map_some, ← whole]

section Stopping

variable (stops : Stops sep)
include stops

theorem readFraction_append {fraction : Option (List Char)}
    (read : readFraction cs = some (fraction, rest)) :
    readFraction (cs ++ sep :: more) = some (fraction, rest ++ sep :: more) := by
  unfold readFraction at read
  split at read
  · rename_i tail
    dsimp only at read
    split at read
    · cases read
    · rename_i some
      obtain ⟨rfl, rfl⟩ := Prod.mk.inj (Option.some.inj read)
      simp only [List.cons_append, readFraction, takeWhile_append_stop stops.digit, some,
        dropWhile_append_stop stops.digit]
      rfl
  · rename_i other
    obtain ⟨rfl, rfl⟩ := Prod.mk.inj (Option.some.inj read)
    unfold readFraction
    split
    · rename_i same
      rcases cs with _ | ⟨c, tail⟩
      · exact absurd (List.cons.inj same).1 stops.point
      · exact absurd (by rw [(List.cons.inj same).1]) (other tail)
    · rfl

theorem readExponent_append {exponent : Option (Bool × List Char)}
    (read : readExponent cs = some (exponent, rest)) :
    readExponent (cs ++ sep :: more) = some (exponent, rest ++ sep :: more) := by
  rw [readExponent_eq_some] at read ⊢
  rcases read with ⟨rfl, rfl, other⟩ | ⟨c, tail, rfl, mark, digits, rfl, rfl⟩
  · refine Or.inl ⟨rfl, rfl, ?_⟩
    rcases rest with _ | ⟨c, tail⟩
    · simpa using stops.exponent
    · exact other
  · have some : tail ≠ [] := by
      rintro rfl
      exact digits rfl
    refine Or.inr ⟨c, tail ++ sep :: more, rfl, mark, ?_⟩
    rw [powerSign_append some, takeWhile_append_stop stops.digit,
      dropWhile_append_stop stops.digit]
    exact ⟨digits, rfl, rfl⟩

theorem readNumeral_append {n : Numeral} (read : readNumeral cs = some (n, rest)) :
    readNumeral (cs ++ sep :: more) = some (n, rest ++ sep :: more) := by
  rw [readNumeral_eq_some] at read ⊢
  obtain ⟨tail, sign, whole, wellformed, after, first, second⟩ := read
  have some : cs ≠ [] := by
    rintro rfl
    obtain ⟨-, rfl⟩ := Prod.mk.inj sign
    exact wellformed (Or.inl (by rw [whole]; rfl))
  refine ⟨tail ++ sep :: more, by rw [numeralSign_append some, sign], ?_, wellformed,
    after ++ sep :: more, ?_, readExponent_append stops second⟩
  · rw [takeWhile_append_stop stops.digit, whole]
  · rw [dropWhile_append_stop stops.digit]
    exact readFraction_append stops first

end Stopping

/-! ## Values -/

/-- What the reader makes of a text that does not begin with a blank, with fuel for the values
inside it. -/
inductive TreeStep (fuel : Nat) : List Char → Tree → List Char → Prop
  | null {rest : List Char} : TreeStep fuel ('n' :: 'u' :: 'l' :: 'l' :: rest) .null rest
  | yes {rest : List Char} : TreeStep fuel ('t' :: 'r' :: 'u' :: 'e' :: rest) (.bool true) rest
  | no {rest : List Char} :
      TreeStep fuel ('f' :: 'a' :: 'l' :: 's' :: 'e' :: rest) (.bool false) rest
  | string {tail rest : List Char} {text : Option (List Char)}
      (ends : readString (tail.length + 1) tail = some (text, rest)) :
      TreeStep fuel ('"' :: tail) (.string (text.map String.ofList)) rest
  | emptyArray {tail rest : List Char} (closed : skipSpace tail = ']' :: rest) :
      TreeStep fuel ('[' :: tail) (.array []) rest
  | array {tail rest : List Char} {items : List Tree}
      (inner : readItems fuel (skipSpace tail) = some (items, rest)) :
      TreeStep fuel ('[' :: tail) (.array items) rest
  | emptyObject {tail rest : List Char} (closed : skipSpace tail = '}' :: rest) :
      TreeStep fuel ('{' :: tail) (.object []) rest
  | object {tail rest : List Char} {fields : List (Option String × Tree)}
      (inner : readFields fuel (skipSpace tail) = some (fields, rest)) :
      TreeStep fuel ('{' :: tail) (.object fields) rest
  | number {cs rest : List Char} {n : Numeral} (read : readNumeral cs = some (n, rest)) :
      TreeStep fuel cs (.number n) rest

/-- A numeral begins with a digit or a minus sign. -/
theorem head_of_readNumeral {n : Numeral} (read : readNumeral cs = some (n, rest)) :
    ∃ c tail, cs = c :: tail ∧ (c = '-' ∨ isDigit c = true) := by
  obtain ⟨tail, sign, whole, wellformed, -⟩ := readNumeral_eq_some.mp read
  rcases cs with _ | ⟨c, cs⟩
  · obtain ⟨-, rfl⟩ := Prod.mk.inj sign
    exact absurd (Or.inl (by rw [whole]; rfl)) wellformed
  · by_cases minus : c = '-'
    · exact ⟨c, cs, rfl, Or.inl minus⟩
    · have bare : numeralSign (c :: cs) = (false, c :: cs) := by simp [numeralSign, minus]
      rw [bare] at sign
      obtain ⟨-, rfl⟩ := Prod.mk.inj sign
      by_cases digit : isDigit c = true
      · exact ⟨c, cs, rfl, Or.inr digit⟩
      · refine absurd (Or.inl ?_) wellformed
        rw [whole, List.takeWhile_cons_of_neg digit]
        rfl

theorem skipSpace_of_head {c : Char} {tail : List Char} (apart : isSpace c = false) :
    skipSpace (c :: tail) = c :: tail :=
  List.dropWhile_cons_of_neg (by simp [apart])

/-- What no value begins with. -/
theorem readTree_eq_none {c : Char} {tail : List Char} (apart : isSpace c = false)
    (other : c ∉ ['n', 't', 'f', '"', '[', '{', '-']) (digit : isDigit c = false) :
    readTree fuel (c :: tail) = none := by
  cases fuel with
  | zero => rfl
  | succ fuel =>
    have none : readNumeral (c :: tail) = none := by
      cases read : readNumeral (c :: tail) with
      | none => rfl
      | some pair =>
        obtain ⟨b, rest, same, minus | number⟩ := head_of_readNumeral read
        · obtain ⟨rfl, -⟩ := List.cons.inj same
          exact absurd minus (by rintro rfl; exact other (by decide))
        · obtain ⟨rfl, -⟩ := List.cons.inj same
          rw [digit] at number
          cases number
    rw [readTree, skipSpace_of_head apart]
    split
    all_goals try (rename_i same; exact absurd (by rw [(List.cons.inj same).1]; decide) other)
    rw [none]
    rfl

theorem readTree_eq_some {t : Tree} :
    readTree (fuel + 1) cs = some (t, rest) ↔ TreeStep fuel (skipSpace cs) t rest := by
  rw [readTree]
  generalize skipSpace cs = cs
  constructor
  · intro read
    split at read
    · obtain ⟨rfl, rfl⟩ := Prod.mk.inj (Option.some.inj read)
      exact .null
    · obtain ⟨rfl, rfl⟩ := Prod.mk.inj (Option.some.inj read)
      exact .yes
    · obtain ⟨rfl, rfl⟩ := Prod.mk.inj (Option.some.inj read)
      exact .no
    · obtain ⟨⟨text, after⟩, ends, same⟩ := Option.map_eq_some_iff.mp read
      obtain ⟨rfl, rfl⟩ := Prod.mk.inj same
      exact .string ends
    · split at read
      · rename_i closed
        obtain ⟨rfl, rfl⟩ := Prod.mk.inj (Option.some.inj read)
        exact .emptyArray closed
      · obtain ⟨⟨items, after⟩, inner, same⟩ := Option.map_eq_some_iff.mp read
        obtain ⟨rfl, rfl⟩ := Prod.mk.inj same
        exact .array inner
    · split at read
      · rename_i closed
        obtain ⟨rfl, rfl⟩ := Prod.mk.inj (Option.some.inj read)
        exact .emptyObject closed
      · obtain ⟨⟨fields, after⟩, inner, same⟩ := Option.map_eq_some_iff.mp read
        obtain ⟨rfl, rfl⟩ := Prod.mk.inj same
        exact .object inner
    · obtain ⟨⟨n, after⟩, inner, same⟩ := Option.map_eq_some_iff.mp read
      obtain ⟨rfl, rfl⟩ := Prod.mk.inj same
      exact .number inner
  · intro step
    cases step with
    | null | yes | no => rfl
    | string ends => simp only [ends, Option.map_some, stringTree]
    | emptyArray closed => simp only [closed]
    | array inner =>
      simp only []
      split
      · rename_i closed
        rw [closed] at inner
        cases fuel with
        | zero => cases inner
        | succ fuel =>
          simp only [readItems, readTree_eq_none (show isSpace ']' = false by decide)
            (by decide) (by decide)] at inner
          cases inner
      · rw [inner, Option.map_some]
    | emptyObject closed => simp only [closed]
    | object inner =>
      simp only []
      split
      · rename_i closed
        rw [closed] at inner
        cases fuel with
        | zero => cases inner
        | succ fuel =>
          simp only [readFields, skipSpace_of_head (show isSpace '}' = false by decide)] at inner
          cases inner
      · rw [inner, Option.map_some]
    | number read =>
      obtain ⟨c, tail, rfl, first⟩ := head_of_readNumeral read
      have apart (mark : Char) (letter : isDigit mark = false) (plus : mark ≠ '-') : c ≠ mark := by
        rintro rfl
        rcases first with minus | digit
        · exact plus minus
        · rw [letter] at digit
          cases digit
      split
      all_goals try
        rename_i same
        exact absurd (List.cons.inj same).1 (apart _ (by decide) (by decide))
      rw [read, Option.map_some]

/-- What the reader makes of the inside of an array. -/
inductive ItemsStep (fuel : Nat) (cs : List Char) : List Tree → List Char → Prop
  | last {item : Tree} {after rest : List Char} (first : readTree fuel cs = some (item, after))
      (closed : skipSpace after = ']' :: rest) : ItemsStep fuel cs [item] rest
  | more {item : Tree} {items : List Tree} {after tail rest : List Char}
      (first : readTree fuel cs = some (item, after)) (comma : skipSpace after = ',' :: tail)
      (others : readItems fuel tail = some (items, rest)) : ItemsStep fuel cs (item :: items) rest

theorem readItems_eq_some {items : List Tree} :
    readItems (fuel + 1) cs = some (items, rest) ↔ ItemsStep fuel cs items rest := by
  rw [readItems]
  constructor
  · intro read
    split at read
    · cases read
    · rename_i item after first
      split at read
      · rename_i comma
        obtain ⟨⟨items, rest⟩, others, same⟩ := Option.map_eq_some_iff.mp read
        obtain ⟨rfl, rfl⟩ := Prod.mk.inj same
        exact .more first comma others
      · rename_i closed
        obtain ⟨rfl, rfl⟩ := Prod.mk.inj (Option.some.inj read)
        exact .last first closed
      · cases read
  · intro step
    cases step with
    | last first closed => simp only [first, closed]
    | more first comma others => simp only [first, comma, others, Option.map_some]

/-- What the reader makes of the inside of an object, a blank before it skipped. -/
inductive FieldsStep (fuel : Nat) : List Char → List (Option String × Tree) → List Char → Prop
  | last {quoted named tail after rest : List Char} {name : Option (List Char)} {v : Tree}
      (ends : readString (quoted.length + 1) quoted = some (name, named))
      (colon : skipSpace named = ':' :: tail) (value : readTree fuel tail = some (v, after))
      (closed : skipSpace after = '}' :: rest) :
      FieldsStep fuel ('"' :: quoted) [(name.map String.ofList, v)] rest
  | more {quoted named tail after next rest : List Char} {name : Option (List Char)}
      {v : Tree} {fields : List (Option String × Tree)}
      (ends : readString (quoted.length + 1) quoted = some (name, named))
      (colon : skipSpace named = ':' :: tail) (value : readTree fuel tail = some (v, after))
      (comma : skipSpace after = ',' :: next)
      (others : readFields fuel next = some (fields, rest)) :
      FieldsStep fuel ('"' :: quoted) ((name.map String.ofList, v) :: fields) rest

theorem readFields_eq_some {fields : List (Option String × Tree)} :
    readFields (fuel + 1) cs = some (fields, rest) ↔
      FieldsStep fuel (skipSpace cs) fields rest := by
  rw [readFields]
  generalize skipSpace cs = cs
  constructor
  · intro read
    split at read
    · split at read
      · cases read
      · rename_i name ends
        split at read
        · rename_i colon
          split at read
          · cases read
          · rename_i v after value
            split at read
            · rename_i comma
              obtain ⟨⟨fields, rest⟩, others, same⟩ := Option.map_eq_some_iff.mp read
              obtain ⟨rfl, rfl⟩ := Prod.mk.inj same
              exact .more ends colon value comma others
            · rename_i closed
              obtain ⟨rfl, rfl⟩ := Prod.mk.inj (Option.some.inj read)
              exact .last ends colon value closed
            · cases read
        · cases read
    · cases read
  · intro step
    cases step with
    | last ends colon value closed => simp only [ends, colon, value, closed, stringTree]
    | more ends colon value comma others =>
      simp only [ends, colon, value, comma, others, Option.map_some, stringTree]

/-! ## What follows -/

section Stopping

variable (stops : Stops sep)
include stops

theorem skipSpace_append (cs more : List Char) :
    skipSpace (cs ++ sep :: more) = skipSpace cs ++ sep :: more :=
  dropWhile_append_stop stops.space cs more

/-- More fuel and a text behind that does not go on with the last token change nothing. By
induction on the fuel, for values, items and fields at once. -/
theorem read_append (k fuel : Nat) (more : List Char) :
    (∀ cs t rest, readTree fuel cs = some (t, rest) →
      readTree (fuel + k) (cs ++ sep :: more) = some (t, rest ++ sep :: more)) ∧
    (∀ cs items rest, readItems fuel cs = some (items, rest) →
      readItems (fuel + k) (cs ++ sep :: more) = some (items, rest ++ sep :: more)) ∧
    (∀ cs fields rest, readFields fuel cs = some (fields, rest) →
      readFields (fuel + k) (cs ++ sep :: more) = some (fields, rest ++ sep :: more)) := by
  induction fuel with
  | zero =>
    refine ⟨fun _ _ _ read => ?_, fun _ _ _ read => ?_, fun _ _ _ read => ?_⟩ <;> cases read
  | succ fuel ih =>
    obtain ⟨trees, lists, records⟩ := ih
    have string {tail rest : List Char} {text : Option (List Char)}
        (ends : readString (tail.length + 1) tail = some (text, rest)) :
        readString ((tail ++ sep :: more).length + 1) (tail ++ sep :: more) =
          some (text, rest ++ sep :: more) := by
      have size : (tail ++ sep :: more).length + 1 = tail.length + 1 + (sep :: more).length := by
        rw [List.length_append]
        omega
      rw [size]
      exact readString_append ends
    have skip {cs tail : List Char} (is : skipSpace cs = tail) :
        skipSpace (cs ++ sep :: more) = tail ++ sep :: more := by
      rw [skipSpace_append stops, is]
    rw [Nat.succ_add]
    refine ⟨fun cs t rest read => ?_, fun cs items rest read => ?_, fun cs fields rest read => ?_⟩
    · rw [readTree_eq_some] at read ⊢
      rw [skipSpace_append stops]
      generalize skipSpace cs = cs at read
      cases read with
      | null => exact .null
      | yes => exact .yes
      | no => exact .no
      | string ends => exact .string (string ends)
      | emptyArray closed => exact .emptyArray (skip closed)
      | array inner =>
        have longer := lists _ _ _ inner
        rw [← skipSpace_append stops] at longer
        exact .array longer
      | emptyObject closed => exact .emptyObject (skip closed)
      | object inner =>
        have longer := records _ _ _ inner
        rw [← skipSpace_append stops] at longer
        exact .object longer
      | number inner => exact .number (readNumeral_append stops inner)
    · rw [readItems_eq_some] at read ⊢
      cases read with
      | last first closed =>
        exact .last (trees _ _ _ first) (skip closed)
      | more first comma others =>
        exact .more (trees _ _ _ first) (skip comma)
          (lists _ _ _ others)
    · rw [readFields_eq_some] at read ⊢
      rw [skipSpace_append stops]
      generalize skipSpace cs = cs at read
      cases read with
      | last ends colon value closed =>
        exact .last (string ends) (skip colon) (trees _ _ _ value)
          (skip closed)
      | more ends colon value comma others =>
        exact .more (string ends) (skip colon) (trees _ _ _ value)
          (skip comma) (records _ _ _ others)

/-- No text that is a whole value by itself is the front of another one, up to a character that
goes on with no token. -/
theorem Tree.read?_front {front behind : List Char} {t : Tree}
    (whole : Tree.read? (String.ofList front) = some t) :
    Tree.read? (String.ofList (front ++ sep :: behind)) = none := by
  simp only [Tree.read?, String.toList_ofList] at whole ⊢
  cases read : readTree (2 * front.length + 2) front with
  | none => simp [read] at whole
  | some pair =>
    obtain ⟨tree, rest⟩ := pair
    have size : 2 * (front ++ sep :: behind).length + 2 =
        2 * front.length + 2 + 2 * (sep :: behind).length := by
      rw [List.length_append]
      omega
    have longer := (read_append stops (2 * (sep :: behind).length) _ behind).1 _ _ _ read
    rw [size, longer]
    dsimp only
    rw [skipSpace_append stops, if_neg (by simp)]

end Stopping

end JobEngine.Json
