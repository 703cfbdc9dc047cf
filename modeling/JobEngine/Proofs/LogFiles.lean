import JobEngine.JobLog
import JobEngine.Proofs.IdentifierTexts

/-!
# The files of job logs

Each identifier has a log file of its own in the directory of the logs. To open
one, or to write to it, leaves those of all others alone. The text that was
logged is what the file holds followed by what is still in the buffer, and only
whole lines go from the one to the other.
-/
namespace JobEngine

/-! ## Paths -/

namespace Text

variable {sep : Char}

theorem splitAll_ne_nil (cs : List Char) : splitAll sep cs ≠ [] := by
  cases cs with
  | nil => simp [splitAll]
  | cons c rest =>
    rw [splitAll]
    split
    · simp
    · split <;> simp

theorem splitAll_append (front rest : List Char) :
    splitAll sep (front ++ sep :: rest) = splitAll sep front ++ splitAll sep rest := by
  induction front with
  | nil => simp [splitAll]
  | cons c front ih =>
    rw [List.cons_append, splitAll, splitAll]
    by_cases same : c = sep
    · rw [if_pos same, if_pos same, ih, List.cons_append]
    · rw [if_neg same, if_neg same, ih]
      cases pieces : splitAll sep front with
      | nil => exact absurd pieces (splitAll_ne_nil front)
      | cons piece more => rfl

theorem splitAll_unbroken {cs : List Char} (unbroken : sep ∉ cs) : splitAll sep cs = [cs] := by
  induction cs with
  | nil => rfl
  | cons c rest ih =>
    rw [List.mem_cons, not_or] at unbroken
    rw [splitAll, if_neg (Ne.symm unbroken.1), ih unbroken.2]

end Text

namespace Path

/-- The path leads to something of this name, whatever it is. -/
structure Ends (path name : String) : Prop where
  some : path.isEmpty = false
  parsed : ∃ above, parse path = ⟨above ++ [name], false⟩
  plain : name ≠ ".." ∧ name ≠ "/"

/-- Behind a slash, or at the start, stands the last name of a path. -/
theorem parse_append {front name : String} (unbroken : '/' ∉ name.toList)
    (plain : name ≠ "" ∧ name ≠ ".")
    (apart : front = "" ∨ ∃ before, front.toList = before ++ ['/']) :
    ∃ above, parse (front ++ name) = ⟨above ++ [name], false⟩ := by
  have pieces : ∃ before, Text.splitAll '/' (front ++ name).toList = before ++ [name.toList] := by
    rcases apart with rfl | ⟨before, slash⟩
    · exact ⟨[], by simp [Text.splitAll_unbroken unbroken]⟩
    · refine ⟨Text.splitAll '/' before, ?_⟩
      rw [String.toList_append, slash, List.append_assoc, List.singleton_append,
        Text.splitAll_append, Text.splitAll_unbroken unbroken]
  obtain ⟨before, pieces⟩ := pieces
  have last : (before.map String.ofList ++ [name]).getLast? = some name := List.getLast?_concat
  have kept : [name].filter (fun p => p ≠ "" ∧ p ≠ ".") = [name] := by simp [plain]
  simp only [parse, pieces, List.map_append, List.map_cons, List.map_nil, String.ofList_toList,
    last, Option.some.injEq, plain.1, plain.2, or_self, decide_false, List.filter_append, kept]
  split
  · exact ⟨"/" :: _, rfl⟩
  · exact ⟨_, rfl⟩

theorem ends_inside (directory : String) {name : String} (unbroken : '/' ∉ name.toList)
    (plain : name ≠ "" ∧ name ≠ "." ∧ name ≠ "..") : Ends (inside directory name) name := by
  have parts : ∃ front, inside directory name = front ++ name ∧
      (front = "" ∨ ∃ before, front.toList = before ++ ['/']) := by
    rw [inside]
    split
    · exact ⟨"", by simp, .inl rfl⟩
    · split
      · rename_i slash
        exact ⟨directory, rfl, .inr ⟨_, (List.dropLast_append_getLast? _ slash).symm⟩⟩
      · exact ⟨directory ++ "/", rfl, .inr ⟨directory.toList, by simp⟩⟩
  obtain ⟨front, joined, apart⟩ := parts
  refine ⟨?_, ?_, plain.2.2, ?_⟩
  · rw [joined]
    simpa using fun _ => plain.1
  · rw [joined]
    exact parse_append unbroken ⟨plain.1, plain.2.1⟩ apart
  · rintro rfl
    exact unbroken (by decide)

end Path

/-! ## Nodes -/

namespace Files

variable {files : Files} {target other : List String} {node : Node}

theorem not_root (free : files.node? target ≠ some .directory) :
    ¬(target.isEmpty ∨ target = ["/"]) := fun root => by
  rw [node?, if_pos root] at free
  exact free rfl

/-- Names stay as they are when a node is replaced. -/
theorem find?_replaced (nodes : List (List String × Node)) (target other : List String)
    (node : Node) :
    (nodes.map fun entry => if entry.1 = target then (target, node) else entry).find?
        (·.1 = other) =
      (nodes.find? (·.1 = other)).map fun entry =>
        if other = target then (target, node) else entry := by
  have names : ((fun entry : List String × Node => decide (entry.1 = other)) ∘
      fun entry : List String × Node => if entry.1 = target then (target, node) else entry) =
      fun entry : List String × Node => decide (entry.1 = other) := by
    funext entry
    by_cases here : entry.1 = target <;> simp [here]
  rw [List.find?_map, names]
  refine Option.map_congr fun entry found => ?_
  obtain rfl : entry.1 = other := by simpa using List.find?_some found
  rfl

theorem node?_setNode (free : files.node? target ≠ some .directory) (other : List String) :
    (files.setNode target node).node? other =
      if other = target then some node else files.node? other := by
  have root := not_root free
  by_cases top : other.isEmpty ∨ other = ["/"]
  · have differs : other ≠ target := fun same => root (same ▸ top)
    rw [if_neg differs, node?, if_pos top, node?, if_pos top]
  · rw [node?, if_neg top, node?, if_neg top, setNode, node?, if_neg root]
    by_cases same : other = target
    · subst same
      rw [if_pos rfl]
      cases found : files.nodes.find? (·.1 = other) with
      | none => simp [found]
      | some entry => simp [find?_replaced, found, -List.find?_map]
    · rw [if_neg same]
      cases found : files.nodes.find? (·.1 = target) with
      | none => cases there : files.nodes.find? (·.1 = other) <;> simp [there, Ne.symm same]
      | some entry => simp [find?_replaced, same, -List.find?_map]

/-- A path that leads through directories still does when something else is put in place. -/
theorem resolve_setNode (free : files.node? target ≠ some .directory)
    {above rest place : List String} (leads : files.resolve above rest = .ok place) :
    (files.setNode target node).resolve above rest = .ok place := by
  induction rest generalizing above with
  | nil => exact leads
  | cons name rest ih =>
    simp only [resolve] at leads ⊢
    by_cases up : name = ".."
    · rw [if_pos up] at leads ⊢
      by_cases top : above.isEmpty = true
      · rw [if_pos top] at leads
        cases leads
      · rw [if_neg top] at leads ⊢
        exact ih leads
    · rw [if_neg up] at leads ⊢
      by_cases final : rest.isEmpty = true
      · rw [if_pos final] at leads ⊢
        exact leads
      · rw [if_neg final] at leads ⊢
        split at leads
        · rename_i there
          have other : above ++ [name] ≠ target := fun same => free (same ▸ there)
          rw [node?_setNode free, if_neg other, there]
          exact ih leads
        · cases leads
        · cases leads

theorem resolve_last {above front place : List String} {last : String} (plain : last ≠ "..")
    (leads : files.resolve above (front ++ [last]) = .ok place) :
    ∃ home, place = home ++ [last] := by
  induction front generalizing above with
  | nil =>
    simp only [List.nil_append, resolve, plain, if_false, List.isEmpty_nil, if_true] at leads
    exact ⟨above, (Except.ok.inj leads).symm⟩
  | cons name front ih =>
    have more : (front ++ [last]).isEmpty = false := by simp
    simp only [List.cons_append, resolve, more, Bool.false_eq_true, if_false] at leads
    split at leads
    · split at leads
      · cases leads
      · exact ih leads
    · split at leads
      · exact ih leads
      · cases leads
      · cases leads

/-! ## Files that are written to -/

section Located

variable {path name : String} {place : List String} {found : Option Node}

theorem locate_eq (ends : Path.Ends path name) :
    files.locate path =
      (files.resolve [] (Path.parse path).names).map fun place => (place, files.node? place) := by
  obtain ⟨above, parsed⟩ := ends.parsed
  simp only [locate, ends.some, parsed, Bool.false_eq_true, if_false]
  cases files.resolve [] (above ++ [name]) with
  | error e => rfl
  | ok place =>
    dsimp only [Except.map]
    cases files.node? place with
    | none => rfl
    | some node => cases node <;> rfl

theorem locate_eq_ok (ends : Path.Ends path name) :
    files.locate path = .ok (place, found) ↔
      files.resolve [] (Path.parse path).names = .ok place ∧ files.node? place = found := by
  rw [locate_eq ends]
  cases files.resolve [] (Path.parse path).names with
  | error e => simp [Except.map]
  | ok names =>
    simp only [Except.map, Except.ok.injEq, Prod.mk.injEq]
    exact and_congr_right fun same => by rw [same]

theorem place_last (ends : Path.Ends path name) (located : files.locate path = .ok (place, found)) :
    ∃ home, place = home ++ [name] := by
  obtain ⟨above, parsed⟩ := ends.parsed
  have leads := ((locate_eq_ok ends).mp located).1
  rw [parsed] at leads
  exact resolve_last ends.plain.1 leads

theorem locate_setNode (ends : Path.Ends path name)
    (located : files.locate path = .ok (place, found))
    (free : files.node? target ≠ some .directory) :
    (files.setNode target node).locate path =
      .ok (place, if place = target then some node else found) := by
  obtain ⟨leads, there⟩ := (locate_eq_ok ends).mp located
  refine (locate_eq_ok ends).mpr ⟨resolve_setNode free leads, ?_⟩
  rw [node?_setNode free, there]

/-- What is put in place under another name is not seen. -/
theorem locate_setNode_other {path' name' : String} {place' : List String} {found' : Option Node}
    (ends : Path.Ends path name) (located : files.locate path = .ok (place, found))
    (ends' : Path.Ends path' name') (located' : files.locate path' = .ok (place', found'))
    (differs : name' ≠ name) (free : found' ≠ some .directory) :
    (files.setNode place' node).locate path = .ok (place, found) := by
  obtain ⟨home, rfl⟩ := place_last ends located
  obtain ⟨home', rfl⟩ := place_last ends' located'
  have there := ((locate_eq_ok ends').mp located').2
  have apart : home ++ [name] ≠ home' ++ [name'] := fun same =>
    differs (List.append_inj_right' same rfl |> List.singleton_inj.mp |>.symm)
  rw [locate_setNode ends located (there ▸ free), if_neg apart]

variable {content : String}

theorem append_file (ends : Path.Ends path name)
    (located : files.locate path = .ok (place, some (.file content))) (text : String) :
    (files.append path text).locate path = .ok (place, some (.file (content ++ text))) := by
  have there := ((locate_eq_ok ends).mp located).2
  simp only [append, located]
  rw [locate_setNode ends located (by simp [there]), if_pos rfl]

theorem openAppend_file (located : files.locate path = .ok (place, some (.file content))) :
    files.openAppend path = .ok files := by
  simp only [openAppend, located]

theorem openAppend_new (ends : Path.Ends path name)
    (located : files.locate path = .ok (place, none)) :
    ∃ opened, files.openAppend path = .ok opened ∧
      opened.locate path = .ok (place, some (.file "")) := by
  obtain ⟨above, parsed⟩ := ends.parsed
  have there := ((locate_eq_ok ends).mp located).2
  refine ⟨files.setNode place (.file ""), ?_, ?_⟩
  · simp only [openAppend, located, parsed, Bool.false_eq_true, if_false]
  · rw [locate_setNode ends located (by simp [there]), if_pos rfl]

section Others

variable {path' name' : String} (ends : Path.Ends path name)
  (located : files.locate path = .ok (place, found)) (ends' : Path.Ends path' name')
  (differs : name' ≠ name)

include ends located ends' differs

theorem locate_append_other (text : String) :
    (files.append path' text).locate path = .ok (place, found) := by
  rw [append]
  split
  · rename_i located'
    exact locate_setNode_other ends located ends' located' differs (by simp)
  · exact located

theorem locate_openAppend_other {opened : Files} (opens : files.openAppend path' = .ok opened) :
    opened.locate path = .ok (place, found) := by
  rw [openAppend] at opens
  split at opens
  · cases opens
  · cases opens
  · obtain rfl := Except.ok.inj opens
    exact located
  · rename_i located'
    split at opens
    · cases opens
    · obtain rfl := Except.ok.inj opens
      exact locate_setNode_other ends located ends' located' differs (by simp)

end Others

end Located

end Files

/-! ## Log files -/

namespace LogBook

theorem toList_logFileName (id : JobId) :
    (logFileName id).toList = id.text.toList ++ ".log".toList := String.toList_append

theorem logFileName_injective : Function.Injective logFileName := fun id other same => by
  have chars := congrArg String.toList same
  rw [toList_logFileName, toList_logFileName] at chars
  exact JobId.text_injective (String.toList_inj.mp (List.append_cancel_right chars))

theorem slash_not_mem_logFileName (id : JobId) : '/' ∉ (logFileName id).toList := by
  rw [toList_logFileName, List.mem_append, not_or]
  refine ⟨fun mem => ?_, by decide⟩
  have marked := JobId.unmarked_of_ofChars? (JobId.parse?_text id) '/' mem
  revert marked
  decide

/-- A log file is named after its job. -/
theorem ends_logPath (directory : String) (id : JobId) :
    Path.Ends (logPath directory id) (logFileName id) := by
  have long : (logFileName id).toList.length = 40 := by
    rw [toList_logFileName, List.length_append, id.length_text]
    rfl
  have other (s : String) (short : s.toList.length < 40) : logFileName id ≠ s := by
    rintro rfl
    omega
  exact Path.ends_inside directory (slash_not_mem_logFileName id)
    ⟨other "" (by decide), other "." (by decide), other ".." (by decide)⟩

/-! ## Lines and their buffer -/

theorem entry_ne_empty (now : Time.Timestamp) (level : Level) (message : String) :
    entry now level message ≠ "" := by
  simp [entry]

theorem eq_nil_of_bufferedBytes {buffer : List String} (full : ∀ line ∈ buffer, line ≠ "")
    (none : bufferedBytes buffer = 0) : buffer = [] := by
  cases buffer with
  | nil => rfl
  | cons line rest =>
    simp only [bufferedBytes, List.foldr_cons, Nat.add_eq_zero_iff,
      String.utf8ByteSize_eq_zero_iff] at none
    exact absurd none.1 (full line List.mem_cons_self)

/-- The file that the path leads to holds this text. -/
def Holds (book : LogBook) (path : String) (place : List String) (text : String) : Prop :=
  book.files.locate path = .ok (place, some (.file text))

variable {book : LogBook} {path name : String} {place : List String} {text : String}
  {buffer : List String}

theorem Holds.flush (holds : book.Holds path place text) (ends : Path.Ends path name)
    (lines : List String) : (book.flush path lines).Holds path place (text ++ String.join lines) :=
  Files.append_file ends holds _

/-- Whole lines go to the file, in the order in which they were logged. -/
theorem Holds.writeBuffered (holds : book.Holds path place text) (ends : Path.Ends path name)
    (full : ∀ line ∈ buffer, line ≠ "") (line : String) :
    ∃ flushed, (book.writeBuffered path buffer line).2.Holds path place
        (text ++ String.join flushed) ∧
      flushed ++ (book.writeBuffered path buffer line).1 = buffer ++ [line] := by
  have room : bufferCapacity = 8192 := rfl
  simp only [LogBook.writeBuffered]
  by_cases tight : bufferCapacity - bufferedBytes buffer < line.utf8ByteSize
  · have flushed := holds.flush ends buffer
    rw [if_pos tight]
    by_cases long : bufferCapacity ≤ line.utf8ByteSize
    · rw [if_pos long]
      refine ⟨buffer ++ [line], ?_, List.append_nil _⟩
      rw [String.join_append, ← String.append_assoc]
      exact flushed.flush ends [line]
    · rw [if_neg long]
      exact ⟨buffer, flushed, rfl⟩
  · rw [if_neg tight]
    by_cases long : bufferCapacity ≤ line.utf8ByteSize
    · -- a line that fits and is as long as the buffer finds it empty
      obtain rfl := eq_nil_of_bufferedBytes full (by omega)
      rw [if_pos long]
      exact ⟨[line], holds.flush ends [line], rfl⟩
    · rw [if_neg long]
      exact ⟨[], by simpa using holds, rfl⟩

theorem log_file {later : LogBook} {record : Record} {now : Time.Timestamp} {level : Level}
    {message : String} {kept : List String}
    (written : (book.note record level message).writeBuffered path buffer
      (entry now level message) = (kept, later)) :
    book.log record now level message (.file path buffer) = (.file path kept, later) := by
  rw [LogBook.log, written]

section Others

variable {path' name' : String} {found : Option Node} (ends : Path.Ends path name)
  (ends' : Path.Ends path' name') (differs : name' ≠ name)

include ends ends' differs

theorem locate_flush_other (located : book.files.locate path = .ok (place, found))
    (lines : List String) : (book.flush path' lines).files.locate path = .ok (place, found) :=
  Files.locate_append_other ends located ends' differs _

theorem locate_writeBuffered_other (located : book.files.locate path = .ok (place, found))
    (line : String) :
    (book.writeBuffered path' buffer line).2.files.locate path = .ok (place, found) := by
  have flushed := locate_flush_other ends ends' differs located buffer
  simp only [LogBook.writeBuffered]
  by_cases tight : bufferCapacity - bufferedBytes buffer < line.utf8ByteSize
  · rw [if_pos tight]
    split
    · exact locate_flush_other ends ends' differs flushed _
    · exact flushed
  · rw [if_neg tight]
    split
    · exact locate_flush_other ends ends' differs located _
    · exact located

end Others

end LogBook

end JobEngine
