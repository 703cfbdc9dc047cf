import JobEngine.Client
import Mathlib.Algebra.Order.Group.Nat
import Mathlib.Data.List.Basic
import Mathlib.Logic.Function.Basic

/-!
# Identifiers as text

What an identifier is written as is read back as that identifier, so no two
identifiers are written alike. Whatever is read as an identifier, in whichever
form, has no character in it that could make a path of it.
-/
namespace JobEngine.JobId

open Text (hexValue?)

/-! ## Digits -/

theorem hexValue?_digitChar : ∀ d < 16, hexValue? (Nat.digitChar d) = some d := by decide

theorem length_hexDigits (count n : Nat) : (hexDigits count n).length = count := by
  induction count generalizing n with
  | zero => rfl
  | succ count ih => rw [hexDigits, List.length_append, ih, List.length_singleton]

theorem hex_of_mem_hexDigits {count n : Nat} {c : Char} (mem : c ∈ hexDigits count n) :
    (hexValue? c).isSome = true := by
  induction count generalizing n with
  | zero => cases mem
  | succ count ih =>
    rcases List.mem_append.mp mem with early | last
    · exact ih early
    · rw [List.mem_singleton.mp last, hexValue?_digitChar _ (Nat.mod_lt _ (by omega))]
      rfl

theorem ofDigits?_append (value : Nat) (front rest : List Char) :
    ofDigits? value (front ++ rest) = (ofDigits? value front).bind (ofDigits? · rest) := by
  induction front generalizing value with
  | nil => rfl
  | cons c front ih =>
    rw [List.cons_append, ofDigits?, ofDigits?]
    cases hexValue? c with
    | none => rfl
    | some d => exact ih _

theorem ofDigits?_hexDigits {count n : Nat} (fits : n < 16 ^ count) (value : Nat) :
    ofDigits? value (hexDigits count n) = some (value * 16 ^ count + n) := by
  induction count generalizing n with
  | zero =>
    obtain rfl : n = 0 := by omega
    simp [hexDigits, ofDigits?]
  | succ count ih =>
    have digit := hexValue?_digitChar (n % 16) (Nat.mod_lt _ (by omega))
    have front : n / 16 < 16 ^ count := by
      rw [Nat.pow_succ] at fits
      omega
    rw [hexDigits, ofDigits?_append, ih front, Option.bind_some, ofDigits?, digit]
    simp only [Option.bind_some, ofDigits?, Option.some.injEq, Nat.pow_succ]
    have whole := Nat.div_add_mod n 16
    rw [Nat.add_mul, Nat.mul_assoc]
    omega

theorem hex_of_ofDigits? {value result : Nat} {cs : List Char}
    (read : ofDigits? value cs = some result) : ∀ c ∈ cs, (hexValue? c).isSome = true := by
  induction cs generalizing value with
  | nil => simp
  | cons c rest ih =>
    obtain ⟨d, digit, later⟩ := Option.bind_eq_some_iff.mp read
    intro b mem
    rcases List.mem_cons.mp mem with rfl | mem
    · rw [digit]
      rfl
    · exact ih later b mem

/-! ## Hyphens -/

theorem filter_hyphenate {digits : List Char} (unbroken : '-' ∉ digits) :
    (hyphenate digits).filter (· ≠ '-') = digits := by
  have all (part : List Char) (among : part ⊆ digits) : part.filter (· ≠ '-') = part :=
    List.filter_eq_self.mpr fun c mem => by
      simpa using ne_of_mem_of_not_mem (among mem) unbroken
  have front (k : Nat) : (digits.take k).filter (· ≠ '-') = digits.take k :=
    all _ (List.take_subset _ _)
  have middle (k l : Nat) :
      ((digits.drop k).take l).filter (· ≠ '-') = (digits.drop k).take l :=
    all _ (List.Subset.trans (List.take_subset _ _) (List.drop_subset _ _))
  have back (k : Nat) : (digits.drop k).filter (· ≠ '-') = digits.drop k :=
    all _ (List.drop_subset _ _)
  have hyphen (rest : List Char) : ('-' :: rest).filter (· ≠ '-') = rest.filter (· ≠ '-') := by
    simp
  have join (k l : Nat) : (digits.drop k).take l ++ digits.drop (k + l) = digits.drop k := by
    rw [← List.drop_drop]
    exact List.take_append_drop l _
  simp only [hyphenate, List.filter_append, hyphen, front, middle, back, List.append_assoc]
  rw [join 16 4, join 12 4, join 8 4, List.take_append_drop]

theorem length_hyphenate {digits : List Char} (all : digits.length = 32) :
    (hyphenate digits).length = 36 := by
  simp [hyphenate, all]

theorem length_text (id : JobId) : id.text.toList.length = 36 := by
  rw [text, String.toList_ofList, length_hyphenate (length_hexDigits _ _)]

/-! ## Writing and reading -/

theorem head_hyphenate {digits : List Char} (all : digits.length = 32)
    (hex : ∀ c ∈ digits, (hexValue? c).isSome = true) :
    ∃ c rest, hyphenate digits = c :: rest ∧ (hexValue? c).isSome = true := by
  cases digits with
  | nil => cases all
  | cons c rest => exact ⟨c, _, rfl, hex c List.mem_cons_self⟩

/-- What begins with a digit is in braces in no way, nor a name. -/
theorem ofChars?_of_hex {c : Char} {rest : List Char} (hex : (hexValue? c).isSome = true) :
    ofChars? (c :: rest) = (plain? (c :: rest)).or (hyphenated? (c :: rest)) := by
  have brace : (hexValue? '{').isSome = false := by decide
  have name : (hexValue? 'u').isSome = false := by decide
  unfold ofChars?
  split
  · rename_i same
    rw [(List.cons.inj same).1, brace] at hex
    cases hex
  · rename_i same
    rw [(List.cons.inj same).1, name] at hex
    cases hex
  · rfl

theorem ofNat_toNat (id : JobId) : ofNat id.value.toNat = id := by
  simp [ofNat]

/-- An identifier is read back from its text. -/
theorem parse?_text (id : JobId) : parse? id.text = some id := by
  have all := length_hexDigits 32 id.value.toNat
  have hex (c : Char) (mem : c ∈ hexDigits 32 id.value.toNat) : (hexValue? c).isSome = true :=
    hex_of_mem_hexDigits mem
  have unbroken : '-' ∉ hexDigits 32 id.value.toNat := fun mem => by
    have digit := hex '-' mem
    revert digit
    decide
  have fits : id.value.toNat < 16 ^ 32 := id.value.isLt
  have compact : plain? (hexDigits 32 id.value.toNat) = some id := by
    rw [plain?, if_pos all, ofDigits?_hexDigits fits, Nat.zero_mul, Nat.zero_add]
    exact congrArg some id.ofNat_toNat
  have long : plain? (hyphenate (hexDigits 32 id.value.toNat)) = none := by
    rw [plain?, if_neg (by rw [length_hyphenate all]; omega)]
  rw [parse?, text, String.toList_ofList]
  obtain ⟨c, rest, shape, digit⟩ := head_hyphenate all hex
  rw [shape, ofChars?_of_hex digit, ← shape, long, Option.none_or, hyphenated?,
    filter_hyphenate unbroken, if_pos ⟨all, rfl⟩, compact]

theorem text_injective : Function.Injective text := fun id other same => by
  have read := parse?_text id
  rw [same, parse?_text] at read
  exact (Option.some.inj read).symm

/-! ## Characters of an identifier -/

/-- A character that separates the parts of a path, or a dot. -/
def marksPath (c : Char) : Bool := c = '/' || c = '\\' || c = '.'

theorem unmarked_of_hex {c : Char} (hex : (hexValue? c).isSome = true) : marksPath c = false := by
  have other (mark : Char) (none : hexValue? mark = none) : c ≠ mark := by
    rintro rfl
    rw [none] at hex
    cases hex
  simp [marksPath, other '/' (by decide), other '\\' (by decide), other '.' (by decide)]

variable {cs : List Char} {id : JobId}

theorem unmarked_of_plain? (read : plain? cs = some id) : ∀ c ∈ cs, marksPath c = false := by
  rw [plain?] at read
  split at read
  · obtain ⟨n, digits, -⟩ := Option.map_eq_some_iff.mp read
    exact fun c mem => unmarked_of_hex (hex_of_ofDigits? digits c mem)
  · cases read

theorem unmarked_of_hyphenated? (read : hyphenated? cs = some id) :
    ∀ c ∈ cs, marksPath c = false := by
  simp only [hyphenated?] at read
  split at read
  · intro c mem
    by_cases hyphen : c = '-'
    · rw [hyphen]
      rfl
    · exact unmarked_of_plain? read c (List.mem_filter.mpr ⟨mem, by simpa using hyphen⟩)
  · cases read

theorem unmarked_of_ofChars? (read : ofChars? cs = some id) : ∀ c ∈ cs, marksPath c = false := by
  unfold ofChars? at read
  split at read
  · rename_i rest
    split at read
    · rename_i closed
      have shape := List.dropLast_append_getLast? _ closed
      intro c mem
      rw [← shape] at mem
      rcases List.mem_cons.mp mem with rfl | mem
      · rfl
      rcases List.mem_append.mp mem with inner | brace
      · exact unmarked_of_hyphenated? read c inner
      · rw [List.mem_singleton.mp brace]
        rfl
    · cases read
  · intro c mem
    have scheme : "urn:uuid:".toList.any marksPath = false := by decide
    have parts : c ∈ "urn:uuid:".toList ∨ c ∈ _ := List.mem_append.mp mem
    rcases parts with front | inner
    · exact Bool.eq_false_iff.mpr (List.any_eq_false.mp scheme c front)
    · exact unmarked_of_hyphenated? read c inner
  · rcases Option.or_eq_some_iff.mp read with read | ⟨-, read⟩
    · exact unmarked_of_plain? read
    · exact unmarked_of_hyphenated? read

/-- What is read as an identifier does not look like a path. -/
theorem looksLikePath_of_parse? {t : String} (read : parse? t = some id) :
    Client.looksLikePath t = false := by
  have unmarked := unmarked_of_ofChars? read
  have parts : t.toList.any (fun c => c = '/' || c = '\\') = false := by
    rw [List.any_eq_false]
    intro c mem
    have plain := unmarked c mem
    simp only [marksPath, Bool.or_eq_false_iff] at plain
    simp [plain.1.1, plain.1.2]
  simp only [Client.looksLikePath, parts, Bool.false_or, List.any_eq_false]
  rintro ⟨a, b⟩ mem
  have plain := unmarked a (List.of_mem_zip mem).1
  simp only [marksPath, Bool.or_eq_false_iff] at plain
  simp [plain.2]

end JobEngine.JobId
