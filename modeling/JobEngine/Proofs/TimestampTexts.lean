import JobEngine.Proofs.CalendarDays
import JobEngine.Time.Timestamp
import Mathlib.Algebra.Order.Group.Nat

/-!
# Texts of points in time

A point in time that the text can name is read back from its text: the fields
have as many digits as the reader takes, and none of them runs on into what
follows. Everything that is read can be written again, whatever spelling and
offset it had.
-/
namespace JobEngine.Time.Timestamp

open Text (isDigit isBlank digitValue trimStart)

variable {c : Char} {cs rest digits : List Char} {most width n : Nat}

/-! ## Digits -/

theorem isBlank_of_isDigit (digit : isDigit c = true) : isBlank c = false := by
  have range : 48 ≤ c.toNat ∧ c.toNat ≤ 57 := by
    simpa [isDigit, Char.le_def, UInt32.le_iff_toNat_le] using digit
  simp only [isBlank, Bool.or_eq_false_iff, Bool.and_eq_false_iff, decide_eq_false_iff_not,
    beq_eq_false_iff_ne]
  omega

theorem foldDigits_eq (digits : List Char) : foldDigits digits = Nat.ofDigitChars 10 digits 0 := by
  simp only [foldDigits, Nat.ofDigitChars, digitValue, Nat.mul_comm 10]

theorem foldDigits_zeros (count : Nat) (digits : List Char) :
    foldDigits (List.replicate count '0' ++ digits) = foldDigits digits := by
  induction count with
  | zero => rfl
  | succ count ih => exact ih

theorem toList_padded (width n : Nat) :
    (padded width n).toList =
      List.replicate (width - (Nat.toDigits 10 n).length) '0' ++ Nat.toDigits 10 n := by
  have shape : toString n = String.ofList (Nat.toDigits 10 n) := rfl
  simp only [padded, shape, String.toList_append, String.toList_ofList, String.length_ofList]

theorem digit_of_mem_padded (mem : c ∈ (padded width n).toList) : isDigit c = true := by
  rw [toList_padded, List.mem_append] at mem
  obtain zero | digit := mem
  · rw [List.eq_of_mem_replicate zero]
    decide
  · exact Nat.isDigit_of_mem_toDigits (by decide) (by decide) digit

theorem foldDigits_padded (width n : Nat) : foldDigits (padded width n).toList = n := by
  rw [toList_padded, foldDigits_zeros, foldDigits_eq,
    Nat.ofDigitChars_toDigits (by decide) (by decide)]

theorem length_padded (some : 0 < width) (fits : n < 10 ^ width) :
    (padded width n).toList.length = width := by
  have short := (Nat.length_toDigits_le_iff (by decide) some).mpr fits
  rw [toList_padded, List.length_append, List.length_replicate]
  omega

theorem padded_ne_nil (width n : Nat) : (padded width n).toList ≠ [] := by
  rw [toList_padded]
  simp [Nat.toDigits_ne_nil]

theorem head_padded (width n : Nat) :
    ∃ d more, (padded width n).toList = d :: more ∧ isDigit d = true := by
  obtain ⟨d, more, shape⟩ := List.exists_cons_of_ne_nil (padded_ne_nil width n)
  exact ⟨d, more, shape, digit_of_mem_padded (shape ▸ List.mem_cons_self)⟩

/-! ## Fields -/

theorem trimStart_of_head (bare : ∀ c ∈ cs.head?, isBlank c = false) : trimStart cs = cs := by
  cases cs with
  | nil => rfl
  | cons c cs => simp [trimStart, bare c rfl]

/-- Digits are read up to what is none. -/
theorem scanNumber_digits (all : ∀ c ∈ digits, isDigit c = true) (some : digits ≠ [])
    (few : digits.length ≤ most) (stop : ∀ c ∈ rest.head?, isDigit c = false) :
    scanNumber most (digits ++ rest) = Option.some (foldDigits digits, rest) := by
  have taken : (digits ++ rest).takeWhile isDigit = digits := by
    rw [List.takeWhile_append_of_pos all]
    cases rest with
    | nil => simp
    | cons c rest => simp [stop c rfl]
  simp only [scanNumber, taken, List.take_of_length_le few]
  simp [some]

theorem stop_of_mark {mark : Char} (stop : isDigit mark = false) (rest : List Char) :
    ∀ c ∈ (mark :: rest).head?, isDigit c = false := by
  simpa using stop

/-- A field of two digits, up to what is no digit. -/
theorem scanField_padded {least largest : Nat} (range : least ≤ n ∧ n ≤ largest) (small : n < 100)
    (stop : ∀ c ∈ rest.head?, isDigit c = false) :
    scanField least largest ((padded 2 n).toList ++ rest) = some (n, rest) := by
  have digits : ∀ c ∈ (padded 2 n).toList, isDigit c = true := fun c => digit_of_mem_padded
  have bare : ∀ c ∈ ((padded 2 n).toList ++ rest).head?, isBlank c = false := by
    obtain ⟨d, more, shape, digit⟩ := head_padded 2 n
    rw [shape]
    simpa using isBlank_of_isDigit digit
  rw [scanField, trimStart_of_head bare, scanNumber_digits digits (padded_ne_nil 2 n)
    (Nat.le_of_eq (length_padded (by decide) small)) stop, foldDigits_padded]
  simp [range]

theorem scanSeparator_mark {mark : Char} (bare : isBlank mark = false) :
    scanSeparator mark (mark :: rest) = some rest := by
  simp [scanSeparator, trimStart, bare]

/-- A year is read up to a mark; beyond four digits its sign tells that there are more. -/
theorem scanYear_yearText (year : Int) {mark : Char} (stop : isDigit mark = false)
    (rest : List Char) :
    scanYear ((yearText year).toList ++ mark :: rest) = some (year, mark :: rest) := by
  have digits (width n : Nat) : ∀ c ∈ (padded width n).toList, isDigit c = true :=
    fun c => digit_of_mem_padded
  have signed (n : Nat) :
      scanNumber ((padded 4 n).toList ++ mark :: rest).length
        ((padded 4 n).toList ++ mark :: rest) = some (n, mark :: rest) := by
    rw [scanNumber_digits (digits 4 n) (padded_ne_nil 4 n) (by simp) (stop_of_mark stop rest),
      foldDigits_padded]
  unfold yearText
  split
  · rename_i range
    have four : (padded 4 year.toNat).toList.length ≤ 4 :=
      Nat.le_of_eq (length_padded (by decide) (by omega))
    have read : scanNumber 4 ((padded 4 year.toNat).toList ++ mark :: rest) =
        some (year.toNat, mark :: rest) := by
      rw [scanNumber_digits (digits 4 year.toNat) (padded_ne_nil 4 year.toNat) four
        (stop_of_mark stop rest), foldDigits_padded]
    obtain ⟨d, more, shape, digit⟩ := head_padded 4 year.toNat
    have bare : ∀ c ∈ ((padded 4 year.toNat).toList ++ mark :: rest).head?, isBlank c = false := by
      rw [shape]
      simpa using isBlank_of_isDigit digit
    rw [scanYear, trimStart_of_head bare]
    rw [shape, List.cons_append] at read ⊢
    split
    · rename_i same
      rw [(List.cons.inj same).1] at digit
      cases digit
    · rename_i same
      rw [(List.cons.inj same).1] at digit
      cases digit
    · simp only [read, Option.map_some, Int.toNat_of_nonneg range.1]
  · split
    · rename_i range
      have plus : scanYear ('+' :: ((padded 4 year.toNat).toList ++ mark :: rest)) =
          some ((year.toNat : Int), mark :: rest) := by
        rw [scanYear, trimStart_of_head (by simp; decide)]
        simp only [signed, Option.map_some]
      rw [Int.toNat_of_nonneg range] at plus
      simpa using plus
    · rename_i range
      have minus : scanYear ('-' :: ((padded 4 (-year).toNat).toList ++ mark :: rest)) =
          some (-((-year).toNat : Int), mark :: rest) := by
        rw [scanYear, trimStart_of_head (by simp; decide)]
        simp only [signed, Option.map_some]
      rw [Int.toNat_of_nonneg (by omega), Int.neg_neg] at minus
      simpa using minus

theorem scanFraction_padded (some : 0 < width) (few : width ≤ 9) (fits : n < 10 ^ width)
    {mark : Char} (stop : isDigit mark = false) (rest : List Char) :
    scanFraction ('.' :: ((padded width n).toList ++ mark :: rest)) =
      Option.some (n * 10 ^ (9 - width), mark :: rest) := by
  have all : ∀ c ∈ (padded width n).toList, isDigit c = true := fun c => digit_of_mem_padded
  have taken : ((padded width n).toList ++ mark :: rest).takeWhile isDigit =
      (padded width n).toList := by
    rw [List.takeWhile_append_of_pos all]
    simp [stop]
  have length := length_padded some fits
  have kept : (padded width n).toList.take 9 = (padded width n).toList :=
    List.take_of_length_le (by omega)
  have full : (padded width n).toList.isEmpty = false := by
    simpa using padded_ne_nil width n
  have left : ((padded width n).toList ++ mark :: rest).drop width = mark :: rest := by
    exact List.drop_left' length
  simp only [scanFraction, taken, kept, full, foldDigits_padded, length, left]
  rfl

theorem scanFraction_fractionText (t : Timestamp) :
    scanFraction (t.fractionText.toList ++ ['Z']) = some (t.nanos % 1000000000, ['Z']) := by
  have stop : isDigit 'Z' = false := by decide
  simp only [fractionText]
  split
  · rename_i none
    rw [none]
    rfl
  · split
    · rename_i millis
      have exact : t.nanos % 1000000000 / 1000000 * 10 ^ (9 - 3) = t.nanos % 1000000000 := by
        omega
      have read := scanFraction_padded (by decide : 0 < 3) (by decide)
        (show t.nanos % 1000000000 / 1000000 < 10 ^ 3 by omega) stop []
      rw [exact] at read
      simpa using read
    · split
      · rename_i micros
        have exact : t.nanos % 1000000000 / 1000 * 10 ^ (9 - 6) = t.nanos % 1000000000 := by
          omega
        have read := scanFraction_padded (by decide : 0 < 6) (by decide)
          (show t.nanos % 1000000000 / 1000 < 10 ^ 6 by omega) stop []
        rw [exact] at read
        simpa using read
      · have read := scanFraction_padded (by decide : 0 < 9) (by decide)
          (show t.nanos % 1000000000 < 10 ^ 9 by omega) stop []
        simpa using read

/-! ## The parts of a text -/

/-- What stands between a date and its time of day. -/
def dayMark? : List Char → Option (List Char)
  | 'T' :: rest | 't' :: rest | ' ' :: rest => some rest
  | _ => none

/-- The point in time that the fields name. A sixtieth second is a second more behind the one
before it. -/
def settle? (date : Date) (hour minute second fraction : Nat) (offset : Int) : Option Timestamp :=
  if !date.valid ∨ date.year < earliestYear ∨ latestYear < date.year then none
  else
    let leap := if second = 60 then 1 else 0
    let moment := date.toDays * 86400 + (hour * 3600 + minute * 60 + (second - leap) : Nat) - offset
    if moment < earliest ∨ latest < moment then none
    else some ⟨moment, fraction + leap * 1000000000⟩

/-- The time of day behind a date. -/
def clock? (date : Date) (cs : List Char) : Option Timestamp := do
  let (hour, cs) ← scanField 0 23 cs
  let cs ← scanSeparator ':' cs
  let (minute, cs) ← scanField 0 59 cs
  let cs ← scanSeparator ':' cs
  let (second, cs) ← scanField 0 60 cs
  let (fraction, cs) ← scanFraction cs
  let (offset, cs) ← scanOffset (trimStart cs)
  if !(trimStart cs).isEmpty then none else settle? date hour minute second fraction offset

theorem dayMark?_bind {α : Type} (cs : List Char) (f : List Char → Option α) :
    (dayMark? cs).bind f = match cs with
      | 'T' :: rest | 't' :: rest | ' ' :: rest => f rest
      | _ => none := by
  unfold dayMark?
  split <;> rfl

theorem ofChars?_eq (cs : List Char) : ofChars? cs = (do
    let (year, cs) ← scanYear cs
    let cs ← scanSeparator '-' cs
    let (month, cs) ← scanField 1 12 cs
    let cs ← scanSeparator '-' cs
    let (day, cs) ← scanField 1 31 cs
    let cs ← dayMark? cs
    clock? ⟨year, month, day⟩ cs) := by
  refine bind_congr fun (year, cs) => bind_congr fun cs => bind_congr fun (month, cs) =>
    bind_congr fun cs => bind_congr fun (day, cs) => ?_
  exact (dayMark?_bind cs _).symm

/-! ## Texts -/

/-- What a text can name: a second of the years that are counted, and less than a second behind it,
or less than two in the last second of a minute. -/
structure Writable (t : Timestamp) : Prop where
  first : earliest ≤ t.second
  last : t.second ≤ latest
  nanos : t.nanos < 2000000000
  leap : 1000000000 ≤ t.nanos → t.second % 60 = 59

theorem toList_text (t : Timestamp) :
    t.text.toList =
      (yearText (Date.ofDays (t.second / 86400)).year).toList ++ '-' ::
        ((padded 2 (Date.ofDays (t.second / 86400)).month).toList ++ '-' ::
          ((padded 2 (Date.ofDays (t.second / 86400)).day).toList ++ 'T' ::
            ((padded 2 ((t.second % 86400).toNat / 3600)).toList ++ ':' ::
              ((padded 2 ((t.second % 86400).toNat / 60 % 60)).toList ++ ':' ::
                ((padded 2 ((t.second % 86400).toNat % 60 +
                    if 1000000000 ≤ t.nanos then 1 else 0)).toList ++
                  (t.fractionText.toList ++ ['Z'])))))) := by
  simp [text, clockText]

theorem stop_of_fractionText (t : Timestamp) :
    ∀ c ∈ (t.fractionText.toList ++ ['Z']).head?, isDigit c = false := by
  have point : isDigit '.' = false := by decide
  have zone : isDigit 'Z' = false := by decide
  simp only [fractionText]
  split
  · simpa using zone
  · split
    · simpa using point
    · split <;> simpa using point

section Writable

variable {t : Timestamp}

/-- The date of a second that is counted is in the years that are. -/
theorem Writable.year (w : t.Writable) :
    earliestYear ≤ (Date.ofDays (t.second / 86400)).year ∧
      (Date.ofDays (t.second / 86400)).year ≤ latestYear := by
  have valid := Date.valid_ofDays (t.second / 86400)
  have back := Date.toDays_ofDays (t.second / 86400)
  have first : (Date.mk earliestYear 1 1).toDays ≤ t.second / 86400 := by
    have first := w.first
    unfold earliest at first
    omega
  have last : t.second / 86400 < (Date.mk (latestYear + 1) 1 1).toDays := by
    have next : (Date.mk (latestYear + 1) 1 1).toDays = (Date.mk latestYear 12 31).toDays + 1 := by
      decide
    have last := w.last
    unfold latest at last
    omega
  rw [← back] at first last
  constructor
  · refine Int.not_lt.mp fun early => ?_
    have before := Date.toDays_lt_newYear valid early
    omega
  · refine Int.not_lt.mp fun late => ?_
    have after := Date.newYear_le_toDays valid (show latestYear + 1 ≤ _ from late)
    omega

/-- The fields of a second of a day name it, with what is a second or more behind it as a sixtieth
second. -/
theorem settle?_written (w : t.Writable) :
    settle? (Date.ofDays (t.second / 86400)) ((t.second % 86400).toNat / 3600)
      ((t.second % 86400).toNat / 60 % 60)
      ((t.second % 86400).toNat % 60 + if 1000000000 ≤ t.nanos then 1 else 0)
      (t.nanos % 1000000000) 0 = some t := by
  have valid := Date.valid_ofDays (t.second / 86400)
  have back := Date.toDays_ofDays (t.second / 86400)
  have year := w.year
  obtain ⟨first, last, bound, leap⟩ := w
  have sixty : (t.second % 86400).toNat % 60 + (if 1000000000 ≤ t.nanos then 1 else 0) = 60 ↔
      1000000000 ≤ t.nanos := by
    split <;> omega
  have moment : (Date.ofDays (t.second / 86400)).toDays * 86400 +
      (((t.second % 86400).toNat / 3600 * 3600 + (t.second % 86400).toNat / 60 % 60 * 60 +
        ((t.second % 86400).toNat % 60 + (if 1000000000 ≤ t.nanos then 1 else 0) -
          if 1000000000 ≤ t.nanos then 1 else 0) : Nat) : Int) - 0 = t.second := by
    rw [back]
    split <;> omega
  have fraction : t.nanos % 1000000000 + (if 1000000000 ≤ t.nanos then 1 else 0) * 1000000000 =
      t.nanos := by
    split <;> omega
  simp only [settle?, sixty, moment, fraction, valid]
  rw [if_neg (by simp; omega), if_neg (by omega)]

theorem clock?_text (w : t.Writable) :
    clock? (Date.ofDays (t.second / 86400))
      ((padded 2 ((t.second % 86400).toNat / 3600)).toList ++ ':' ::
        ((padded 2 ((t.second % 86400).toNat / 60 % 60)).toList ++ ':' ::
          ((padded 2 ((t.second % 86400).toNat % 60 +
              if 1000000000 ≤ t.nanos then 1 else 0)).toList ++
            (t.fractionText.toList ++ ['Z'])))) = some t := by
  have stop : isDigit ':' = false := by decide
  have bare : isBlank ':' = false := by decide
  have hours rest := scanField_padded (show 0 ≤ (t.second % 86400).toNat / 3600 ∧
    (t.second % 86400).toNat / 3600 ≤ 23 by omega) (by omega) (stop_of_mark stop rest)
  have minutes rest := scanField_padded (show 0 ≤ (t.second % 86400).toNat / 60 % 60 ∧
    (t.second % 86400).toNat / 60 % 60 ≤ 59 by omega) (by omega) (stop_of_mark stop rest)
  have seconds := scanField_padded (show 0 ≤ (t.second % 86400).toNat % 60 +
      (if 1000000000 ≤ t.nanos then 1 else 0) ∧ (t.second % 86400).toNat % 60 +
      (if 1000000000 ≤ t.nanos then 1 else 0) ≤ 60 by split <;> omega) (by split <;> omega)
    (stop_of_fractionText t)
  have zone : scanOffset (trimStart ['Z']) = some (0, []) := by decide
  simp only [clock?, Option.bind_eq_bind, Option.bind_some, hours, minutes, seconds,
    scanSeparator_mark bare, scanFraction_fractionText, zone]
  rw [if_neg (by decide), settle?_written w]

theorem parse?_text (w : t.Writable) : parse? t.text = some t := by
  have valid := Date.valid_ofDays (t.second / 86400)
  have clock := clock?_text w
  rw [parse?, toList_text, ofChars?_eq]
  generalize Date.ofDays (t.second / 86400) = date at valid clock
  have month : 1 ≤ date.month ∧ date.month ≤ 12 := by
    simp only [Date.valid, Bool.and_eq_true, decide_eq_true_eq] at valid
    omega
  have day : 1 ≤ date.day ∧ date.day ≤ 31 := by
    have long := Date.daysInMonth_le date.year date.month
    simp only [Date.valid, Bool.and_eq_true, decide_eq_true_eq] at valid
    omega
  have stop : isDigit '-' = false := by decide
  have bare : isBlank '-' = false := by decide
  have years rest := scanYear_yearText date.year stop rest
  have months rest := scanField_padded month (by omega) (stop_of_mark stop rest)
  have days rest := scanField_padded day (by omega)
    (stop_of_mark (show isDigit 'T' = false by decide) rest)
  simp only [Option.bind_eq_bind, Option.bind_some, years, months, days, scanSeparator_mark bare,
    dayMark?, clock]

/-- The year of a point in time. -/
def year (t : Timestamp) : Int := (Date.ofDays (t.second / 86400)).year

theorem writable_of_year (years : 0 ≤ t.year ∧ t.year ≤ 9999) (nanos : t.nanos < 1000000000) :
    t.Writable := by
  have valid := Date.valid_ofDays (t.second / 86400)
  have back := Date.toDays_ofDays (t.second / 86400)
  have first : (Date.mk earliestYear 1 1).toDays ≤ (Date.ofDays (t.second / 86400)).toDays :=
    Date.newYear_le_toDays valid (Int.le_trans (by decide) years.1)
  have last : (Date.ofDays (t.second / 86400)).toDays < (Date.mk (latestYear + 1) 1 1).toDays :=
    Date.toDays_lt_newYear valid (Int.lt_of_le_of_lt years.2 (by decide))
  have next : (Date.mk (latestYear + 1) 1 1).toDays = (Date.mk latestYear 12 31).toDays + 1 := by
    decide
  rw [back] at first last
  refine ⟨?_, ?_, by omega, fun leap => by omega⟩
  · unfold earliest
    omega
  · unfold latest
    omega

end Writable

/-! ## What is read -/

theorem foldDigits_lt (all : ∀ c ∈ digits, isDigit c = true) :
    foldDigits digits < 10 ^ digits.length := by
  have general (value : Nat) : digits.foldl (fun value c => value * 10 + digitValue c) value <
      (value + 1) * 10 ^ digits.length := by
    induction digits generalizing value with
    | nil => simp
    | cons c digits ih =>
      have digit := all c List.mem_cons_self
      have small : digitValue c ≤ 9 := by
        simp only [isDigit, Bool.and_eq_true, decide_eq_true_eq, Char.le_def,
          UInt32.le_iff_toNat_le] at digit
        have top : c.toNat ≤ 57 := digit.2
        have zero : '0'.toNat = 48 := rfl
        unfold digitValue
        omega
      have step := ih (fun d among => all d (List.mem_cons_of_mem _ among))
        (value * 10 + digitValue c)
      refine Nat.lt_of_lt_of_le step ?_
      rw [List.length_cons, Nat.pow_succ, Nat.mul_comm (10 ^ _) 10, ← Nat.mul_assoc]
      exact Nat.mul_le_mul_right _ (by omega)
  simpa [foldDigits] using general 0

theorem fraction_lt {value : Nat} (read : scanFraction cs = some (value, rest)) :
    value < 1000000000 := by
  unfold scanFraction at read
  split at read
  · rename_i tail
    dsimp only at read
    split at read
    · cases read
    · obtain ⟨rfl, -⟩ := Prod.mk.inj (Option.some.inj read)
      have all : ∀ c ∈ (tail.takeWhile isDigit).take 9, isDigit c = true := fun c among =>
        (List.all_eq_true.mp List.all_takeWhile) c (List.mem_of_mem_take among)
      have few : ((tail.takeWhile isDigit).take 9).length ≤ 9 := by
        rw [List.length_take]
        omega
      calc foldDigits ((tail.takeWhile isDigit).take 9) *
            10 ^ (9 - ((tail.takeWhile isDigit).take 9).length)
          < 10 ^ ((tail.takeWhile isDigit).take 9).length *
            10 ^ (9 - ((tail.takeWhile isDigit).take 9).length) :=
            Nat.mul_lt_mul_of_pos_right (foldDigits_lt all) (Nat.pow_pos (by decide))
        _ = 1000000000 := by rw [← Nat.pow_add, Nat.add_sub_cancel' few]
  · obtain ⟨rfl, -⟩ := Prod.mk.inj (Option.some.inj read)
    decide

/-- An offset is a number of whole minutes. -/
theorem offset_minutes {offset : Int} (read : scanOffset cs = some (offset, rest)) :
    offset % 60 = 0 := by
  unfold scanOffset at read
  split at read
  · cases read
    rfl
  · cases read
    rfl
  · split at read
    · cases read
      rfl
    · dsimp only at read
      split at read
      · split at read
        · rename_i minutes _ _
          split at read
          · cases read
            refine Int.emod_eq_zero_of_dvd (Int.dvd_mul_of_dvd_right ?_)
            omega
          · cases read
        · cases read
      · cases read
  · cases read

theorem writable_of_settle? {t : Timestamp} {date : Date} {hour minute second fraction : Nat}
    {offset : Int} (part : fraction < 1000000000) (zone : offset % 60 = 0)
    (settled : settle? date hour minute second fraction offset = some t) : t.Writable := by
  simp only [settle?] at settled
  split at settled
  · cases settled
  by_cases sixty : second = 60
  · simp only [if_pos sixty] at settled
    split at settled
    · cases settled
    · rename_i range
      obtain rfl := Option.some.inj settled
      constructor <;> dsimp only <;> omega
  · simp only [if_neg sixty] at settled
    split at settled
    · cases settled
    · rename_i range
      obtain rfl := Option.some.inj settled
      constructor <;> dsimp only <;> omega

theorem writable_of_clock? {t : Timestamp} {date : Date} (read : clock? date cs = some t) :
    t.Writable := by
  simp only [clock?, Option.bind_eq_bind, Option.bind_eq_some_iff] at read
  obtain ⟨⟨hour, cs⟩, -, cs, -, ⟨minute, cs⟩, -, cs, -, ⟨second, cs⟩, -, ⟨fraction, cs⟩, part,
    ⟨offset, cs⟩, zone, settled⟩ := read
  split at settled
  · cases settled
  · exact writable_of_settle? (fraction_lt part) (offset_minutes zone) settled

/-- What is read can be written, whatever the text it was read from. -/
theorem writable_of_parse? {s : String} {t : Timestamp} (read : parse? s = some t) :
    t.Writable := by
  rw [parse?, ofChars?_eq] at read
  simp only [Option.bind_eq_bind, Option.bind_eq_some_iff] at read
  obtain ⟨⟨year, cs⟩, -, cs, -, ⟨month, cs⟩, -, cs, -, ⟨day, cs⟩, -, cs, -, read⟩ := read
  exact writable_of_clock? read

end JobEngine.Time.Timestamp
