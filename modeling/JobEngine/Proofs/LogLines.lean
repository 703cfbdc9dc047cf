import JobEngine.Maintenance.Retention
import JobEngine.Proofs.LogFiles

/-!
# The lines of a log

An entry is one line as long as its message is, and then level and message are
read back from it. A message with several lines adds lines to the file. If one
of these begins like an entry, the same file could have been written by more
calls; if none does, the entries that were logged are the only ones that such
messages could have left there.
-/
namespace JobEngine

open Time (Timestamp)

/-! ## Time stamps -/

namespace Time.Timestamp

/-- A text that is one word. -/
def Unbroken (s : String) : Prop := ∀ c ∈ s.toList, c ≠ ' ' ∧ c ≠ '\n'

instance (s : String) : Decidable (Unbroken s) :=
  List.decidableBAll (fun c => c ≠ ' ' ∧ c ≠ '\n') s.toList

theorem unbroken_append {s t : String} : Unbroken (s ++ t) ↔ Unbroken s ∧ Unbroken t := by
  simp only [Unbroken, String.toList_append, List.forall_mem_append]

theorem unbroken_padded (width n : Nat) : Unbroken (padded width n) := by
  have digit {c : Char} (is : c.isDigit = true) : c ≠ ' ' ∧ c ≠ '\n' := by
    constructor <;> rintro rfl <;> cases is
  refine unbroken_append.mpr ⟨fun c mem => ?_, fun c mem => ?_⟩
  · rw [String.toList_ofList] at mem
    obtain rfl := List.eq_of_mem_replicate mem
    decide
  · have digits : c ∈ Nat.toDigits 10 n := by
      have shape : toString n = String.ofList (Nat.toDigits 10 n) := rfl
      rwa [shape, String.toList_ofList] at mem
    exact digit (Nat.isDigit_of_mem_toDigits (by decide) (by decide) digits)

theorem unbroken_yearText (year : Int) : Unbroken (yearText year) := by
  rw [yearText]
  split
  · exact unbroken_padded _ _
  · split
    · exact unbroken_append.mpr ⟨by decide, unbroken_padded _ _⟩
    · exact unbroken_append.mpr ⟨by decide, unbroken_padded _ _⟩

theorem unbroken_fractionText (t : Timestamp) : Unbroken t.fractionText := by
  simp only [fractionText]
  split
  · decide
  · split
    · exact unbroken_append.mpr ⟨by decide, unbroken_padded _ _⟩
    · split
      · exact unbroken_append.mpr ⟨by decide, unbroken_padded _ _⟩
      · exact unbroken_append.mpr ⟨by decide, unbroken_padded _ _⟩

theorem unbroken_offsetText (t : Timestamp) : Unbroken t.offsetText := by
  simp only [offsetText, clockText, unbroken_append, unbroken_padded, unbroken_yearText,
    unbroken_fractionText, true_and, and_true]
  decide

end Time.Timestamp

/-! ## Pieces of a text -/

namespace Text

variable {sep : Char}

/-- What has no separator goes to the first piece. -/
theorem splitAll_front {front : List Char} (unbroken : sep ∉ front) (cs : List Char) :
    ∃ piece more, splitAll sep cs = piece :: more ∧
      splitAll sep (front ++ cs) = (front ++ piece) :: more := by
  induction front with
  | nil =>
    have some : splitAll sep cs ≠ [] := splitAll_ne_nil cs
    obtain ⟨piece, more, pieces⟩ := List.exists_cons_of_ne_nil some
    exact ⟨piece, more, pieces, pieces⟩
  | cons c front ih =>
    rw [List.mem_cons, not_or] at unbroken
    obtain ⟨piece, more, pieces, joined⟩ := ih unbroken.2
    refine ⟨piece, more, pieces, ?_⟩
    rw [List.cons_append, splitAll, if_neg (Ne.symm unbroken.1), joined]
    rfl

theorem length_splitAll (cs : List Char) : (splitAll sep cs).length = cs.count sep + 1 := by
  induction cs with
  | nil => rfl
  | cons c rest ih =>
    by_cases same : c = sep
    · rw [splitAll, if_pos same, List.length_cons, ih, same, List.count_cons_self]
    · rw [splitAll, if_neg same, List.count_cons_of_ne same]
      cases pieces : splitAll sep rest with
      | nil => exact absurd pieces (splitAll_ne_nil rest)
      | cons piece more =>
        rw [pieces] at ih
        exact ih

/-- The first piece is where the text begins, any other one stands behind a separator. -/
theorem splitAll_pieces (cs : List Char) :
    ∃ first more, splitAll sep cs = first :: more ∧ first <+: cs ∧
      ∀ piece ∈ more, ∃ front rest, cs = front ++ sep :: (piece ++ rest) := by
  induction cs with
  | nil => exact ⟨[], [], rfl, List.prefix_rfl, by simp⟩
  | cons c cs ih =>
    obtain ⟨first, more, pieces, ⟨rest, starts⟩, behind⟩ := ih
    have later (piece : List Char) (mem : piece ∈ more) :
        ∃ front rest, c :: cs = front ++ sep :: (piece ++ rest) := by
      obtain ⟨front, rest, stands⟩ := behind piece mem
      exact ⟨c :: front, rest, by rw [stands, List.cons_append]⟩
    rw [splitAll, pieces]
    by_cases same : c = sep
    · rw [if_pos same]
      refine ⟨[], first :: more, rfl, List.nil_prefix, fun piece mem => ?_⟩
      rcases List.mem_cons.mp mem with rfl | mem
      · exact ⟨[], rest, by rw [starts, same, List.nil_append]⟩
      · exact later piece mem
    · rw [if_neg same]
      exact ⟨c :: first, more, rfl, ⟨rest, by rw [List.cons_append, starts]⟩, later⟩

theorem intercalate_splitAll (cs : List Char) : [sep].intercalate (splitAll sep cs) = cs := by
  induction cs with
  | nil => rfl
  | cons c cs ih =>
    have some : splitAll sep cs ≠ [] := splitAll_ne_nil cs
    obtain ⟨piece, more, pieces⟩ := List.exists_cons_of_ne_nil some
    rw [pieces] at ih
    rw [splitAll, pieces]
    by_cases same : c = sep
    · rw [if_pos same, List.intercalate_cons_cons, ih, same]
      rfl
    · rw [if_neg same]
      cases more with
      | nil => exact congrArg (c :: ·) ih
      | cons next more =>
        rw [List.intercalate_cons_cons] at ih ⊢
        exact congrArg (c :: ·) ih

theorem splitAll_injective : Function.Injective (splitAll sep) :=
  Function.LeftInverse.injective intercalate_splitAll

end Text

/-! ## Entries -/

/-- A call to a log, and when it is made. -/
structure LogCall where
  now : Timestamp
  level : Level
  message : String

namespace LogCall

/-- How an entry begins. -/
def head (now : Timestamp) (level : Level) : List Char :=
  (now.offsetText ++ " [" ++ level.text ++ "] ").toList

/-- The line begins like an entry. -/
def Opens (line : List Char) : Prop := ∃ now level, head now level <+: line

/-- Behind the first line of the message there is one that begins like an entry. -/
def Forges (message : String) : Prop :=
  ∃ line ∈ (Text.splitAll '\n' message.toList).tail, Opens line

def entry (call : LogCall) : String := LogBook.entry call.now call.level call.message

/-- What the calls add to a file. -/
def text (calls : List LogCall) : String := String.join (calls.map entry)

/-- The lines that a newline ends. -/
def lines (text : String) : List (List Char) := (Text.splitAll '\n' text.toList).dropLast

/-- The level and the message of a line: the first word is the time, the next one the level. -/
def readLine? (line : List Char) : Option (Level × String) :=
  let rest := (line.dropWhile (· ≠ ' ')).tail
  Level.all.findSome? fun level =>
    (("[" ++ level.text ++ "] ").toList.isPrefixOf? rest).map fun message =>
      (level, String.ofList message)

variable {now now' : Timestamp} {level level' : Level} {message message' : List Char}
  {call : LogCall} {calls others : List LogCall}

theorem toList_entry (call : LogCall) :
    call.entry.toList = (head call.now call.level ++ call.message.toList) ++ ['\n'] := by
  simp only [entry, LogBook.entry, head, String.toList_append]
  rfl

theorem unbroken_head : '\n' ∉ head now level := by
  have stamp : '\n' ∉ now.offsetText.toList := fun mem => (now.unbroken_offsetText _ mem).2 rfl
  have word : '\n' ∉ level.text.toList := by cases level <;> decide
  have left : '\n' ∉ " [".toList := by decide
  have right : '\n' ∉ "] ".toList := by decide
  simp only [head, String.toList_append, List.mem_append, not_or]
  exact ⟨⟨⟨stamp, left⟩, word⟩, right⟩

/-! ## Reading a line -/

theorem head_eq (now : Timestamp) (level : Level) :
    head now level = now.offsetText.toList ++ ' ' :: ("[" ++ level.text ++ "] ").toList := by
  simp only [head, String.toList_append, List.append_assoc]
  rfl

theorem takeWhile_head : (head now level ++ message).takeWhile (· ≠ ' ') =
    now.offsetText.toList := by
  have word : ∀ c ∈ now.offsetText.toList, decide (c ≠ ' ') = true := fun c mem => by
    simpa using (now.unbroken_offsetText c mem).1
  rw [head_eq, List.append_assoc, List.takeWhile_append_of_pos word]
  simp

theorem readLine?_head :
    readLine? (head now level ++ message) = some (level, String.ofList message) := by
  have word : ∀ c ∈ now.offsetText.toList, decide (c ≠ ' ') = true := fun c mem => by
    simpa using (now.unbroken_offsetText c mem).1
  have rest : ((head now level ++ message).dropWhile (· ≠ ' ')).tail =
      ("[" ++ level.text ++ "] ").toList ++ message := by
    rw [head_eq, List.append_assoc, List.dropWhile_append_of_pos word]
    simp
  simp only [readLine?, rest]
  cases level <;> rfl

/-- The beginning of an entry can be told from what follows it. -/
theorem head_append_inj (same : head now level ++ message = head now' level' ++ message') :
    now.offsetText = now'.offsetText ∧ level = level' ∧ message = message' := by
  have stamps := congrArg (List.takeWhile (· ≠ ' ')) same
  have read := congrArg readLine? same
  rw [takeWhile_head, takeWhile_head] at stamps
  rw [readLine?_head, readLine?_head, Option.some.injEq, Prod.mk.injEq] at read
  exact ⟨String.toList_inj.mp stamps, read.1, by simpa using congrArg String.toList read.2⟩

/-! ## The lines of calls -/

/-- The first line of an entry shows when and at which level it was logged; the others are the
further lines of the message. -/
theorem lines_entry (call : LogCall) :
    ∃ first more, Text.splitAll '\n' call.message.toList = first :: more ∧
      Text.splitAll '\n' (head call.now call.level ++ call.message.toList) =
        (head call.now call.level ++ first) :: more :=
  Text.splitAll_front unbroken_head _

theorem lines_text_cons (call : LogCall) (calls : List LogCall) :
    lines (text (call :: calls)) =
      Text.splitAll '\n' (head call.now call.level ++ call.message.toList) ++
        lines (text calls) := by
  have joined : (text (call :: calls)).toList =
      (head call.now call.level ++ call.message.toList) ++ '\n' :: (text calls).toList := by
    simp only [text, List.map_cons, String.join_cons, String.toList_append, toList_entry,
      List.append_assoc, List.singleton_append]
  rw [lines, joined, Text.splitAll_append,
    List.dropLast_append_of_ne_nil (Text.splitAll_ne_nil _), lines]

/-- Each line break in a message is one more line. -/
theorem length_lines (calls : List LogCall) :
    (lines (text calls)).length =
      calls.length + (calls.flatMap fun call => call.message.toList).count '\n' := by
  induction calls with
  | nil => rfl
  | cons call calls ih =>
    have head : (head call.now call.level).count '\n' = 0 := List.count_eq_zero.mpr unbroken_head
    rw [lines_text_cons, List.length_append, Text.length_splitAll, ih, List.count_append, head,
      List.length_cons, List.flatMap_cons, List.count_append]
    omega

theorem length_lines_eq_iff (calls : List LogCall) :
    (lines (text calls)).length = calls.length ↔ ∀ call ∈ calls, '\n' ∉ call.message.toList := by
  rw [length_lines, Nat.add_eq_left, List.count_eq_zero, List.mem_flatMap]
  simp only [not_exists, not_and]

theorem readLine?_lines (plain : ∀ call ∈ calls, '\n' ∉ call.message.toList) :
    (lines (text calls)).map readLine? =
      calls.map fun call => some (call.level, call.message) := by
  induction calls with
  | nil => rfl
  | cons call calls ih =>
    have rest := ih fun call mem => plain call (List.mem_cons_of_mem _ mem)
    have line : '\n' ∉ head call.now call.level ++ call.message.toList := by
      rw [List.mem_append, not_or]
      exact ⟨unbroken_head, plain call List.mem_cons_self⟩
    rw [lines_text_cons, Text.splitAll_unbroken line, List.map_append, rest, List.map_cons,
      List.map_nil, readLine?_head, String.ofList_toList]
    rfl

/-! ## Lines that begin like an entry -/

theorem opens_head : Opens (head now level ++ message) := ⟨now, level, List.prefix_append _ _⟩

theorem plain_lines (plain : ¬Forges call.message) {first : List Char} {more : List (List Char)}
    (pieces : Text.splitAll '\n' call.message.toList = first :: more) :
    ∀ line ∈ more, ¬Opens line := fun line mem opens =>
  plain ⟨line, by rwa [pieces], opens⟩

open scoped Classical in
/-- How many lines begin like an entry. -/
noncomputable def openings (lines : List (List Char)) : Nat := lines.countP fun line => Opens line

theorem openings_entry (call : LogCall) :
    1 ≤ openings (Text.splitAll '\n' (head call.now call.level ++ call.message.toList)) ∧
      (¬Forges call.message →
        openings (Text.splitAll '\n' (head call.now call.level ++ call.message.toList)) = 1) := by
  obtain ⟨first, more, pieces, joined⟩ := lines_entry call
  have opens : Opens (head call.now call.level ++ first) := opens_head
  rw [joined, openings, List.countP_cons_of_pos (by simpa using opens)]
  refine ⟨by omega, fun plain => ?_⟩
  have none := plain_lines plain pieces
  rw [List.countP_eq_zero.mpr (by simpa using none)]

theorem openings_lines (calls : List LogCall) :
    calls.length ≤ openings (lines (text calls)) ∧
      ((∀ call ∈ calls, ¬Forges call.message) →
        openings (lines (text calls)) = calls.length) := by
  induction calls with
  | nil => exact ⟨Nat.zero_le _, fun _ => rfl⟩
  | cons call calls ih =>
    have split : openings (lines (text (call :: calls))) =
        openings (Text.splitAll '\n' (head call.now call.level ++ call.message.toList)) +
          openings (lines (text calls)) := by
      rw [lines_text_cons, openings, List.countP_append]
      rfl
    obtain ⟨least, exact⟩ := openings_entry call
    rw [split, List.length_cons]
    refine ⟨by omega, fun plain => ?_⟩
    rw [exact (plain call List.mem_cons_self),
      ih.2 fun call mem => plain call (List.mem_cons_of_mem _ mem), Nat.add_comm]

theorem entry_split (call : LogCall) {front rest : List Char}
    (stands : call.message.toList = front ++ '\n' :: (head now level ++ rest)) :
    call.entry = entry ⟨call.now, call.level, String.ofList front⟩ ++
      entry ⟨now, level, String.ofList rest⟩ := by
  rw [← String.toList_inj, String.toList_append]
  simp only [toList_entry, stands, String.toList_ofList, List.append_assoc, List.cons_append,
    List.nil_append]

/-- More calls could have left the same text exactly if there is a message that forges an entry. -/
theorem more_calls_iff (calls : List LogCall) :
    (∃ more, calls.length < more.length ∧ text more = text calls) ↔
      ∃ call ∈ calls, Forges call.message := by
  constructor
  · rintro ⟨more, longer, same⟩
    by_contra plain
    have most := (openings_lines more).1
    rw [same, (openings_lines calls).2 fun call mem forges => plain ⟨call, mem, forges⟩] at most
    omega
  · rintro ⟨call, mem, line, piece, now, level, tail, begins⟩
    obtain ⟨before, after, rfl⟩ := List.append_of_mem mem
    obtain ⟨first, more, pieces, -, behind⟩ := @Text.splitAll_pieces '\n' call.message.toList
    obtain ⟨front, rest, stands⟩ := behind line (by rwa [pieces] at piece)
    rw [← begins, List.append_assoc] at stands
    refine ⟨before ++ ⟨call.now, call.level, String.ofList front⟩ ::
      ⟨now, level, String.ofList (tail ++ rest)⟩ :: after, by simp, ?_⟩
    simp only [text, List.map_append, List.map_cons, String.join_append, String.join_cons,
      entry_split call stands, String.append_assoc]

/-! ## Reading a whole text -/

/-- What an entry shows of a call. -/
def shown (call : LogCall) : String × Level × String :=
  (call.now.offsetText, call.level, call.message)

/-- What stands before the first line that begins like an entry is determined. -/
theorem append_inj_opens {front front' rest rest' : List (List Char)}
    (plain : ∀ line ∈ front, ¬Opens line) (plain' : ∀ line ∈ front', ¬Opens line)
    (starts : ∀ line ∈ rest.head?, Opens line) (starts' : ∀ line ∈ rest'.head?, Opens line)
    (same : front ++ rest = front' ++ rest') : front = front' ∧ rest = rest' := by
  induction front generalizing front' with
  | nil =>
    cases front' with
    | nil => exact ⟨rfl, same⟩
    | cons line front' =>
      obtain rfl : rest = line :: (front' ++ rest') := same
      exact absurd (starts line rfl) (plain' line List.mem_cons_self)
  | cons line front ih =>
    cases front' with
    | nil =>
      obtain rfl : line :: (front ++ rest) = rest' := same
      exact absurd (starts' line rfl) (plain line List.mem_cons_self)
    | cons line' front' =>
      obtain ⟨rfl, tails⟩ := List.cons.inj same
      obtain ⟨rfl, rests⟩ := ih (fun line mem => plain line (List.mem_cons_of_mem _ mem))
        (fun line mem => plain' line (List.mem_cons_of_mem _ mem)) tails
      exact ⟨rfl, rests⟩

theorem opens_of_head? {line : List Char} (first : line ∈ (lines (text calls)).head?) :
    Opens line := by
  cases calls with
  | nil => cases first
  | cons call calls =>
    obtain ⟨piece, more, -, joined⟩ := lines_entry call
    rw [lines_text_cons, joined] at first
    obtain rfl := Option.some.inj first
    exact opens_head

theorem shown_unique (plain : ∀ call ∈ calls, ¬Forges call.message)
    (plain' : ∀ call ∈ others, ¬Forges call.message)
    (same : lines (text others) = lines (text calls)) : others.map shown = calls.map shown := by
  induction calls generalizing others with
  | nil =>
    cases others with
    | nil => rfl
    | cons other others =>
      have longer := (length_lines (other :: others)).symm.trans (congrArg List.length same)
      rw [List.length_cons] at longer
      have none : (lines (text [])).length = 0 := rfl
      omega
  | cons call calls ih =>
    obtain ⟨first, more, pieces, joined⟩ := lines_entry call
    cases others with
    | nil =>
      rw [lines_text_cons, joined] at same
      cases same
    | cons other others =>
      obtain ⟨first', more', pieces', joined'⟩ := lines_entry other
      rw [lines_text_cons, lines_text_cons, joined, joined'] at same
      obtain ⟨firsts, rests⟩ := List.cons.inj same
      obtain ⟨stamps, levels, rfl⟩ := head_append_inj firsts
      obtain ⟨rfl, later⟩ := append_inj_opens
        (plain_lines (plain' other List.mem_cons_self) pieces')
        (plain_lines (plain call List.mem_cons_self) pieces)
        (fun _ => opens_of_head?) (fun _ => opens_of_head?) rests
      have messages : other.message = call.message :=
        String.toList_inj.mp (Text.splitAll_injective (pieces'.trans pieces.symm))
      rw [List.map_cons, List.map_cons, shown, shown, stamps, levels, messages,
        ih (fun call mem => plain call (List.mem_cons_of_mem _ mem))
          (fun call mem => plain' call (List.mem_cons_of_mem _ mem)) later]

end LogCall

/-! ## A log from its opening to its end -/

namespace LogBook

open LogCall

/-- Makes the calls to an open log. -/
def logAll (record : Record) (calls : List LogCall) (now : OpenLog × LogBook) :
    OpenLog × LogBook :=
  calls.foldl (fun now call => now.2.log record call.now call.level call.message now.1) now

/-- Opens the log of a record, makes the calls and closes it. -/
def session (book : LogBook) (target : LogTarget) (record : Record) (calls : List LogCall) :
    Except QueueError LogBook :=
  (book.openLog target record).map fun opened =>
    let (log, book) := logAll record calls opened
    book.close log

variable {book : LogBook} {path name : String} {place : List String} {content : String}
  {buffer : List String}

theorem Holds.logAll (record : Record) (calls : List LogCall)
    (holds : book.Holds path place content) (ends : Path.Ends path name)
    (full : ∀ line ∈ buffer, line ≠ "") :
    ∃ flushed kept later, logAll record calls (.file path buffer, book) = (.file path kept, later) ∧
      later.Holds path place (content ++ String.join flushed) ∧
      flushed ++ kept = buffer ++ calls.map LogCall.entry := by
  induction calls generalizing book content buffer with
  | nil => exact ⟨[], buffer, book, rfl, by simpa using holds, by simp⟩
  | cons call calls ih =>
    have noted : (book.note record call.level call.message).Holds path place content := holds
    obtain ⟨flushed, holds', whole⟩ := noted.writeBuffered ends full call.entry
    rcases written : (book.note record call.level call.message).writeBuffered path buffer
      call.entry with ⟨kept, next⟩
    rw [written] at holds' whole
    have full' : ∀ line ∈ kept, line ≠ "" := fun line mem => by
      have logged := List.mem_append_right flushed mem
      rw [whole] at logged
      rcases List.mem_append.mp logged with old | new
      · exact full line old
      · obtain rfl := List.mem_singleton.mp new
        exact entry_ne_empty _ _ _
    obtain ⟨more, held, later, logged, last, all⟩ := ih holds' full'
    refine ⟨flushed ++ more, held, later, ?_, ?_, ?_⟩
    · rw [LogBook.logAll, List.foldl_cons, log_file written]
      exact logged
    · rw [String.join_append, ← String.append_assoc]
      exact last
    · rw [List.append_assoc, all, ← List.append_assoc, whole, List.append_assoc]
      rfl

variable {directory : String} {record : Record} {found : Option String}

theorem session_holds
    (there : book.files.locate (logPath directory record.id) = .ok (place, found.map .file))
    (calls : List LogCall) :
    ∃ closed, book.session (.directory directory) record calls = .ok closed ∧
      closed.Holds (logPath directory record.id) place (found.getD "" ++ text calls) := by
  have ends := ends_logPath directory record.id
  have opens : ∃ files, book.files.openAppend (logPath directory record.id) = .ok files ∧
      ({ book with files } : LogBook).Holds (logPath directory record.id) place
        (found.getD "") := by
    cases found with
    | none => exact Files.openAppend_new ends there
    | some content => exact ⟨book.files, Files.openAppend_file there, there⟩
  obtain ⟨files, opened, holds⟩ := opens
  obtain ⟨flushed, kept, later, logged, written, all⟩ :=
    holds.logAll record calls ends (fun _ none => absurd none List.not_mem_nil)
  refine ⟨later.flush (logPath directory record.id) kept, ?_, ?_⟩
  · simp only [session, openLog, opened, Except.map, logged, close]
  · have closed := written.flush ends kept
    rw [String.append_assoc, ← String.join_append, all] at closed
    exact closed

/-- After a log is closed, its file holds what it held before and an entry for each call. The
entries are one line each exactly if no message has a line break; then level and message of every
call are read back from its line. The same text could have been left by more calls exactly if the
lines that some message adds include one that begins like an entry; calls without such messages
are determined by it. -/
theorem session_lines
    (there : book.files.locate (logPath directory record.id) = .ok (place, found.map .file))
    (calls : List LogCall) :
    (∃ closed, book.session (.directory directory) record calls = .ok closed ∧
      closed.files.read (logPath directory record.id) = .ok (found.getD "" ++ text calls)) ∧
    ((lines (text calls)).length = calls.length ↔ ∀ call ∈ calls, '\n' ∉ call.message.toList) ∧
    ((∀ call ∈ calls, '\n' ∉ call.message.toList) →
      (lines (text calls)).map readLine? =
        calls.map fun call => some (call.level, call.message)) ∧
    ((∃ more, calls.length < more.length ∧ text more = text calls) ↔
      ∃ call ∈ calls, Forges call.message) ∧
    ∀ others, (∀ call ∈ calls ++ others, ¬Forges call.message) → text others = text calls →
      others.map shown = calls.map shown := by
  obtain ⟨closed, closes, holds⟩ := session_holds there calls
  refine ⟨⟨closed, closes, ?_⟩, length_lines_eq_iff calls, readLine?_lines, more_calls_iff calls,
    fun others plain same => ?_⟩
  · rw [Files.read, Files.lookup, holds]
  · exact shown_unique (fun call mem => plain call (List.mem_append_left _ mem))
      (fun call mem => plain call (List.mem_append_right _ mem)) (congrArg lines same)

/-- The log of a job in an empty directory. -/
theorem session_lines_begun :
    let book : LogBook := { files := ⟨[(["logs"], .directory)]⟩ }
    let record : Record := .ofRequest ⟨"work", [], none⟩ (.ofNat 1) (.ofMillis 0)
    let calls : List LogCall := [⟨.ofMillis 0, .info, "begun"⟩, ⟨.ofMillis 5, .error, "lost"⟩]
    book.files.locate (logPath "logs" record.id) =
        .ok (["logs", logFileName record.id], (none : Option String).map .file) ∧
      (∃ closed, book.session (.directory "logs") record calls = .ok closed ∧
        closed.files.read (logPath "logs" record.id) =
          .ok ("1970-01-01T00:00:00+00:00 [INFO] begun\n" ++
            "1970-01-01T00:00:00.005+00:00 [ERROR] lost\n")) ∧
      (lines (text calls)).map readLine? = [some (.info, "begun"), some (.error, "lost")] := by
  intro book record calls
  have there : book.files.locate (logPath "logs" record.id) =
      .ok (["logs", logFileName record.id], (none : Option String).map .file) := by
    decide +kernel
  have plain : ∀ call ∈ calls, '\n' ∉ call.message.toList := by decide +kernel
  have written : text calls = "1970-01-01T00:00:00+00:00 [INFO] begun\n" ++
      "1970-01-01T00:00:00.005+00:00 [ERROR] lost\n" := by decide +kernel
  obtain ⟨⟨closed, closes, reads⟩, -, readable, -⟩ := session_lines there calls
  rw [written, Option.getD_none, String.empty_append] at reads
  exact ⟨there, ⟨closed, closes, reads⟩, readable plain⟩

/-- The name of a repository is a parameter of the sweep. With a line break in it one call leaves
what two calls would leave. -/
theorem sweep_forges :
    let book : LogBook := { files := ⟨[(["logs"], .directory)]⟩ }
    let stamp := Time.Timestamp.ofMillis 0
    let parameters : Parameters :=
      [("repository", .string "web\n1970-01-01T00:00:00+00:00 [ERROR] lost web"),
        ("retain", .number (.whole 5))]
    let record : Record := .ofRequest ⟨"retention.sweep", parameters, none⟩ (.ofNat 1) stamp
    let message := "retention sweep of web\n1970-01-01T00:00:00+00:00 [ERROR] lost web" ++
      " keeping 5 most recent"
    let reads (calls : List LogCall) : Except FileError String :=
      match book.session (.directory "logs") record calls with
      | .ok closed => closed.files.read (logPath "logs" record.id)
      | .error _ => .error .notFound
    Maintenance.Retention.job.validate parameters = .ok () ∧
      (∃ next, Maintenance.Retention.job.run ⟨record.id, record.jobType, parameters, 0⟩ =
        .log .info message next) ∧
      reads [⟨stamp, .info, message⟩] =
        reads [⟨stamp, .info, "retention sweep of web"⟩,
          ⟨stamp, .error, "lost web keeping 5 most recent"⟩] ∧
      (reads [⟨stamp, .info, message⟩]).isOk = true := by
  refine ⟨by rfl, ⟨_, by rfl⟩, by decide +kernel, by decide +kernel⟩

end LogBook

end JobEngine
