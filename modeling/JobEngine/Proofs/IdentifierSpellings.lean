import JobEngine.Proofs.IdentifierTexts
import Mathlib.Data.List.Induction

/-!
# The spellings of an identifier

An identifier is read from its digits with or without hyphens, and with hyphens
in braces or as a `urn:uuid:` name, the digits being of either case. Nothing
else is read as an identifier.
-/
namespace JobEngine.JobId

open Text (hexValue? lowerChar)

/-- The forms of an identifier. Its hexadecimal digits may be of either case. -/
inductive Spells (id : JobId) : String → Prop
  | hyphenated {t : String} (same : Text.lower t = id.text) : Spells id t
  | plain {t : String} (same : Text.lower t = String.ofList (hexDigits 32 id.value.toNat)) :
      Spells id t
  | braced {t : String} (same : Text.lower t = id.text) : Spells id ("\x7b" ++ t ++ "\x7d")
  | named {t : String} (same : Text.lower t = id.text) : Spells id ("urn:uuid:" ++ t)

/-! ## Digits of either case -/

theorem hexValue?_eq_find? (c : Char) :
    hexValue? c = (List.range 16).find? fun d => lowerChar c = Nat.digitChar d := by
  by_cases low : c ≤ 'f'
  · have table : ∀ n < 103, hexValue? (Char.ofNat n) =
        (List.range 16).find? fun d => lowerChar (Char.ofNat n) = Nat.digitChar d := by decide
    have bound : c.toNat < 103 := Nat.lt_succ_of_le low
    have entry := table c.toNat bound
    rwa [Char.ofNat_toNat] at entry
  · have beyond {top : Char} (small : top ≤ 'f') : ¬c ≤ top :=
      fun le => low (Char.le_trans le small)
    have digits : ∀ d < 16, Nat.digitChar d ≤ 'f' := by decide
    have upper : lowerChar c = c := if_neg fun range => beyond (by decide) range.2
    have none : (List.range 16).find? (fun d => lowerChar c = Nat.digitChar d) = none := by
      rw [List.find?_eq_none, upper]
      intro d mem
      have small := digits d (List.mem_range.mp mem)
      simpa using fun same : c = _ => beyond small (same ▸ Char.le_refl _)
    rw [none]
    simp only [hexValue?, Text.isDigit, beyond (show '9' ≤ 'f' by decide), low,
      beyond (show 'F' ≤ 'f' by decide), decide_false, Bool.and_false, and_false, if_false,
      Bool.false_eq_true]

theorem hexValue?_eq_some {c : Char} {d : Nat} :
    hexValue? c = some d ↔ d < 16 ∧ lowerChar c = Nat.digitChar d := by
  have distinct : ∀ d < 16, ∀ e < 16, Nat.digitChar d = Nat.digitChar e → d = e := by decide
  rw [hexValue?_eq_find?]
  constructor
  · intro found
    exact ⟨List.mem_range.mp (List.mem_of_find?_eq_some found),
      by simpa using List.find?_some found⟩
  · rintro ⟨bound, same⟩
    cases found : (List.range 16).find? fun d => lowerChar c = Nat.digitChar d with
    | none =>
      have none := List.find?_eq_none.mp found d (by simpa using bound)
      exact absurd same (by simpa using none)
    | some e =>
      have also : lowerChar c = Nat.digitChar e := by simpa using List.find?_some found
      have range := List.mem_range.mp (List.mem_of_find?_eq_some found)
      rw [distinct e range d bound (also.symm.trans same)]

/-- What is read as a number is, in lower case, what the number is written as. -/
theorem ofDigits?_eq_some {cs : List Char} {n : Nat} :
    ofDigits? 0 cs = some n ↔
      cs.map lowerChar = hexDigits cs.length n ∧ n < 16 ^ cs.length := by
  induction cs using List.reverseRecOn generalizing n with
  | nil => simp [ofDigits?, hexDigits, eq_comm]
  | append_singleton cs c ih =>
    simp only [ofDigits?_append, Option.bind_eq_some_iff, ih, ofDigits?, hexValue?_eq_some,
      Option.some.injEq, List.map_append, List.map_cons, List.map_nil, List.length_append,
      List.length_cons, List.length_nil, Nat.zero_add, hexDigits, Nat.pow_succ]
    constructor
    · rintro ⟨m, ⟨front, bound⟩, d, ⟨digit, last⟩, rfl⟩
      have high : (m * 16 + d) / 16 = m := by omega
      have low : (m * 16 + d) % 16 = d := by omega
      rw [high, low, front, last]
      exact ⟨rfl, by omega⟩
    · rintro ⟨same, bound⟩
      obtain ⟨front, last⟩ := List.append_inj' same rfl
      exact ⟨n / 16, ⟨front, by omega⟩, n % 16,
        ⟨Nat.mod_lt _ (by decide), List.singleton_inj.mp last⟩, by omega⟩

theorem plain?_eq_some {cs : List Char} {id : JobId} :
    plain? cs = some id ↔ cs.map lowerChar = hexDigits 32 id.value.toNat := by
  rw [plain?]
  constructor
  · intro read
    split at read
    · rename_i all
      obtain ⟨n, digits, rfl⟩ := Option.map_eq_some_iff.mp read
      obtain ⟨same, bound⟩ := ofDigits?_eq_some.mp digits
      rw [all] at same bound
      have whole : (ofNat n).value.toNat = n := Nat.mod_eq_of_lt bound
      rw [whole, same]
    · cases read
  · intro same
    have all : cs.length = 32 := by
      rw [← List.length_map lowerChar, same, length_hexDigits]
    have digits : ofDigits? 0 cs = some id.value.toNat := by
      rw [ofDigits?_eq_some, all]
      exact ⟨same, id.value.isLt⟩
    rw [if_pos all, digits, Option.map_some, ofNat_toNat]

/-! ## Hyphens -/

theorem lowerChar_eq_hyphen {c : Char} : lowerChar c = '-' ↔ c = '-' := by
  by_cases low : c ≤ 'Z'
  · have table : ∀ n < 91, lowerChar (Char.ofNat n) = '-' ↔ Char.ofNat n = '-' := by decide
    have entry := table c.toNat (Nat.lt_succ_of_le low)
    rwa [Char.ofNat_toNat] at entry
  · have same : lowerChar c = c := if_neg fun range => low range.2
    rw [same]

theorem lowerChar_lowerChar (c : Char) : lowerChar (lowerChar c) = lowerChar c := by
  by_cases low : c ≤ 'Z'
  · have table : ∀ n < 91, lowerChar (lowerChar (Char.ofNat n)) = lowerChar (Char.ofNat n) := by
      decide
    have entry := table c.toNat (Nat.lt_succ_of_le low)
    rwa [Char.ofNat_toNat] at entry
  · have same : lowerChar c = c := if_neg fun range => low range.2
    rw [same, same]

theorem hexValue?_lowerChar (c : Char) : hexValue? (lowerChar c) = hexValue? c := by
  rw [hexValue?_eq_find?, hexValue?_eq_find?, lowerChar_lowerChar]

theorem hyphen_not_mem_hexDigits (count n : Nat) : '-' ∉ hexDigits count n := fun mem => by
  have digit := hex_of_mem_hexDigits mem
  revert digit
  decide

theorem map_hyphenate (digits : List Char) :
    (hyphenate digits).map lowerChar = hyphenate (digits.map lowerChar) := by
  have hyphen : lowerChar '-' = '-' := by decide
  simp only [hyphenate, List.map_append, List.map_cons, List.map_take, List.map_drop, hyphen]

/-- Hyphens stand between the parts. -/
theorem hyphenate_append {a b c d : List Char} (sizes : a.length = 8 ∧ b.length = 4 ∧
    c.length = 4 ∧ d.length = 4) (e : List Char) :
    hyphenate (a ++ (b ++ (c ++ (d ++ e)))) =
      a ++ '-' :: b ++ '-' :: c ++ '-' :: d ++ '-' :: e := by
  obtain ⟨sizeA, sizeB, sizeC, sizeD⟩ := sizes
  have drop8 (rest : List Char) : (a ++ rest).drop 8 = rest := List.drop_left' sizeA
  have drop12 (rest : List Char) : (a ++ (b ++ rest)).drop 12 = rest := by
    rw [← List.append_assoc]
    exact List.drop_left' (by simp [sizeA, sizeB])
  have drop16 (rest : List Char) : (a ++ (b ++ (c ++ rest))).drop 16 = rest := by
    rw [← List.append_assoc a, ← List.append_assoc]
    exact List.drop_left' (by simp [sizeA, sizeB, sizeC])
  have drop20 : (a ++ (b ++ (c ++ (d ++ e)))).drop 20 = e := by
    rw [← List.append_assoc a, ← List.append_assoc, ← List.append_assoc]
    exact List.drop_left' (by simp [sizeA, sizeB, sizeC, sizeD])
  rw [hyphenate, drop8, drop12, drop16, drop20, List.take_left' sizeA, List.take_left' sizeB,
    List.take_left' sizeC, List.take_left' sizeD]

/-- What is hyphenated when put in lower case was hyphenated before. -/
theorem eq_hyphenate_of_map {cs digits : List Char} (all : digits.length = 32)
    (same : cs.map lowerChar = hyphenate digits) :
    ∃ before, cs = hyphenate before ∧ before.map lowerChar = digits := by
  simp only [hyphenate, List.map_eq_append_iff, List.map_eq_cons_iff, lowerChar_eq_hyphen] at same
  obtain ⟨_, _, rfl, ⟨_, _, rfl, ⟨_, _, rfl, ⟨a, _, rfl, first, _, b, rfl, rfl, second⟩,
    _, c, rfl, rfl, third⟩, _, d, rfl, rfl, fourth⟩, _, e, rfl, rfl, fifth⟩ := same
  have long {part piece : List Char} (is : part.map lowerChar = piece) :
      part.length = piece.length := by
    rw [← List.length_map lowerChar, is]
  refine ⟨a ++ (b ++ (c ++ (d ++ e))), (hyphenate_append ⟨?_, ?_, ?_, ?_⟩ e).symm, ?_⟩
  · simp [long first, all]
  · simp [long second, all]
  · simp [long third, all]
  · simp [long fourth, all]
  · have join (k l : Nat) : (digits.drop k).take l ++ digits.drop (k + l) = digits.drop k := by
      rw [← List.drop_drop]
      exact List.take_append_drop l _
    simp only [List.map_append, first, second, third, fourth, fifth]
    rw [join 16 4, join 12 4, join 8 4, List.take_append_drop]

theorem hyphenated?_eq_some {cs : List Char} {id : JobId} :
    hyphenated? cs = some id ↔ cs.map lowerChar = id.text.toList := by
  have all := length_hexDigits 32 id.value.toNat
  have unbroken := hyphen_not_mem_hexDigits 32 id.value.toNat
  rw [text, String.toList_ofList, hyphenated?]
  constructor
  · intro read
    split at read
    · rename_i shape
      rw [shape.2, map_hyphenate, plain?_eq_some.mp read]
    · cases read
  · intro same
    obtain ⟨before, rfl, lower⟩ := eq_hyphenate_of_map all same
    have plain : '-' ∉ before := fun mem =>
      unbroken (lower ▸ List.mem_map.mpr ⟨'-', mem, by decide⟩)
    have size : before.length = 32 := by
      rw [← List.length_map lowerChar, lower, all]
    rw [filter_hyphenate plain, if_pos ⟨size, rfl⟩, plain?_eq_some.mpr lower]

/-! ## Texts -/

variable {id : JobId} {t : String}

theorem lower_eq_iff {s : String} : Text.lower t = s ↔ t.toList.map lowerChar = s.toList := by
  rw [Text.lower, ← String.toList_inj, String.toList_ofList]

theorem spells_of_ofChars? {cs : List Char} (read : ofChars? cs = some id) :
    Spells id (String.ofList cs) := by
  have hyphens {part : List Char} (read : hyphenated? part = some id) :
      Text.lower (String.ofList part) = id.text := by
    rw [lower_eq_iff, String.toList_ofList]
    exact hyphenated?_eq_some.mp read
  unfold ofChars? at read
  split at read
  · rename_i rest
    split at read
    · rename_i closed
      have shape : String.ofList ('{' :: rest) =
          "\x7b" ++ String.ofList rest.dropLast ++ "\x7d" := by
        rw [← String.toList_inj]
        simp [List.dropLast_append_getLast? _ closed]
      rw [shape]
      exact .braced (hyphens read)
    · cases read
  · rename_i rest
    have shape : String.ofList ("urn:uuid:".toList ++ rest) =
        "urn:uuid:" ++ String.ofList rest := by
      rw [String.ofList_append, String.ofList_toList]
    exact shape ▸ .named (hyphens read)
  · rcases Option.or_eq_some_iff.mp read with read | ⟨-, read⟩
    · refine .plain (lower_eq_iff.mpr ?_)
      rw [String.toList_ofList, String.toList_ofList]
      exact plain?_eq_some.mp read
    · exact .hyphenated (hyphens read)

/-- What begins with a digit when put in lower case is in braces in no way, nor a name. -/
theorem ofChars?_of_lower {cs rest : List Char} {c : Char} (lower : cs.map lowerChar = c :: rest)
    (hex : (hexValue? c).isSome = true) : ofChars? cs = (plain? cs).or (hyphenated? cs) := by
  obtain ⟨c, rest, rfl, rfl, -⟩ := List.map_eq_cons_iff.mp lower
  rw [hexValue?_lowerChar] at hex
  exact ofChars?_of_hex hex

theorem ofChars?_of_spells (spells : Spells id t) : ofChars? t.toList = some id := by
  have all := length_hexDigits 32 id.value.toNat
  have hex (c : Char) (mem : c ∈ hexDigits 32 id.value.toNat) : (hexValue? c).isSome = true :=
    hex_of_mem_hexDigits mem
  cases spells with
  | hyphenated same =>
    have lower := lower_eq_iff.mp same
    have long : t.toList.length = 36 := by
      rw [← List.length_map lowerChar, lower, length_text]
    have compact : plain? t.toList = none := if_neg (by omega)
    obtain ⟨c, rest, shape, digit⟩ := head_hyphenate all hex
    have first : t.toList.map lowerChar = c :: rest := by
      rw [lower, text, String.toList_ofList, shape]
    rw [ofChars?_of_lower first digit, compact, Option.none_or, hyphenated?_eq_some.mpr lower]
  | plain same =>
    have lower := lower_eq_iff.mp same
    rw [String.toList_ofList] at lower
    cases shape : hexDigits 32 id.value.toNat with
    | nil =>
      rw [shape] at all
      cases all
    | cons c rest =>
      have digit := hex c (shape ▸ List.mem_cons_self)
      rw [ofChars?_of_lower (lower.trans shape) digit, plain?_eq_some.mpr lower, Option.some_or]
  | @braced t same =>
    have shape : ("\x7b" ++ t ++ "\x7d").toList = '{' :: (t.toList ++ ['}']) := by simp
    rw [shape]
    simp only [ofChars?, List.getLast?_concat, if_true, List.dropLast_concat]
    exact hyphenated?_eq_some.mpr (lower_eq_iff.mp same)
  | @named t same =>
    have shape : ("urn:uuid:" ++ t).toList = "urn:uuid:".toList ++ t.toList := String.toList_append
    rw [shape]
    exact hyphenated?_eq_some.mpr (lower_eq_iff.mp same)

/-- What is read as an identifier is one of its spellings. -/
theorem parse?_eq_some : parse? t = some id ↔ Spells id t := by
  constructor
  · intro read
    have spells := spells_of_ofChars? read
    rwa [String.ofList_toList] at spells
  · exact ofChars?_of_spells

end JobEngine.JobId
