import JobEngine.Json.Decode
import JobEngine.Proofs.ArtifactTables

/-!
# Records as objects and as arrays

What the shape of a record admits is said once for objects and once for
arrays. A decoder that looks at a record through the values of its fields gives
the same for both, in whatever order the object lists them.
-/
namespace JobEngine.Json

abbrev Fields := List (String × Value)

variable {fs gs : Fields} {name : String} {v : Value}

/-! ## Fields -/

theorem field?_eq_some (distinct : (fs.map (·.1)).Nodup) :
    field? name fs = some v ↔ (name, v) ∈ fs := by
  induction fs with
  | nil => simp [field?]
  | cons entry fs ih =>
    obtain ⟨k, w⟩ := entry
    rw [List.map_cons, List.nodup_cons] at distinct
    by_cases same : k = name
    · subst same
      have absent : (k, v) ∉ fs := fun among =>
        distinct.1 (List.mem_map.mpr ⟨(k, v), among, rfl⟩)
      simp [field?, absent, eq_comm]
    · simp [field?, same, ih distinct.2, Ne.symm same]

theorem field?_isSome : (field? name fs).isSome ↔ name ∈ fs.map (·.1) := by
  induction fs with
  | nil => simp [field?]
  | cons entry fs ih =>
    obtain ⟨k, w⟩ := entry
    by_cases same : k = name
    · simp [field?, same]
    · simp [field?, same, ih, Ne.symm same]

/-- The order of distinct fields does not matter. -/
theorem field?_perm (perm : fs.Perm gs) (distinct : (fs.map (·.1)).Nodup) (name : String) :
    field? name fs = field? name gs := by
  have distinct' : (gs.map (·.1)).Nodup := (perm.map _).nodup_iff.mp distinct
  refine Option.ext fun v => ?_
  rw [field?_eq_some distinct, field?_eq_some distinct', perm.mem_iff]

/-! ## Objects -/

namespace Shape

variable {shape : Shape}

theorem checkFields_eq_ok :
    shape.checkFields fs = .ok () ↔ ∀ entry ∈ fs, shape.checkField entry.1 entry.2 = .ok () := by
  induction fs with
  | nil => simp [checkFields]
  | cons entry fs ih =>
    obtain ⟨k, w⟩ := entry
    rw [List.forall_mem_cons, ← ih]
    cases first : shape.checkField k w with
    | error e => simp [checkFields, first, bind, Except.bind]
    | ok => simp [checkFields, first, bind, Except.bind]

theorem checkPresent_eq_ok {slots : List Slot} :
    checkPresent fs slots = .ok () ↔
      ∀ slot ∈ slots, slot.presence = .required → slot.name ∈ fs.map (·.1) := by
  induction slots with
  | nil => simp [checkPresent]
  | cons slot slots ih =>
    rw [List.forall_mem_cons, ← ih, ← field?_isSome]
    rw [checkPresent]
    by_cases present : (field? slot.name fs).isSome
    · simp [present, Option.isSome_iff_ne_none.mp present]
    · by_cases needed : slot.presence = .required
      · simp_all
      · simp [needed]

theorem fields_object :
    shape.fields (.object fs) = .ok gs ↔
      gs = fs ∧ (∀ entry ∈ fs, shape.checkField entry.1 entry.2 = .ok ()) ∧
        ∀ slot ∈ shape.slots, slot.presence = .required → slot.name ∈ fs.map (·.1) := by
  rw [← checkFields_eq_ok, ← checkPresent_eq_ok]
  cases first : shape.checkFields fs with
  | error e => simp [fields, first, bind, Except.bind]
  | ok =>
    cases second : checkPresent fs shape.slots with
    | error e => simp [fields, first, second, bind, Except.bind]
    | ok => simp [fields, first, second, bind, Except.bind, pure, Except.pure, eq_comm]

/-! ## Arrays -/

/-- A field that an array may not leave out is followed by one that no record may. -/
def closes : List Presence → Bool
  | [] => true
  | p :: rest => (p != .optional || rest.contains .required) && closes rest

/-- The fields of an array, one after the other. -/
def listed (slots : List Slot) (items : List Value) : Fields := (slots.map (·.name)).zip items

theorem ofItems_eq_ok {slots : List Slot} {items : List Value}
    (ends : closes (slots.map (·.presence)) = true) :
    ofItems slots items = .ok gs ↔
      gs = listed slots items ∧ items.length ≤ slots.length ∧
        (∀ pair ∈ slots.zip items, pair.1.check pair.2 = .ok ()) ∧
        ∀ slot ∈ slots.drop items.length, slot.presence ≠ .required := by
  induction slots generalizing items gs with
  | nil =>
    cases items with
    | nil => simp [ofItems, listed, eq_comm]
    | cons v items => simp [ofItems]
  | cons slot slots ih =>
    rw [List.map_cons, closes, Bool.and_eq_true] at ends
    cases items with
    | nil =>
      rw [ofItems]
      cases need : slot.presence with
      | required => simp [need]
      | optional =>
        have later : ∃ other ∈ slots, other.presence = .required := by
          simpa [need] using ends.1
        obtain ⟨other, among, required⟩ := later
        simp only [reduceCtorEq, if_false, false_iff]
        exact fun ⟨_, _, _, optional⟩ => optional other (List.mem_cons_of_mem _ among) required
      | defaulted =>
        rw [if_pos rfl, ih ends.2]
        simp [listed, need]
    | cons v items =>
      cases first : slot.check v with
      | error e => simp [ofItems, first, bind, Except.bind]
      | ok =>
        have step : ofItems (slot :: slots) (v :: items) =
            (ofItems slots items).map ((slot.name, v) :: ·) := by
          simp only [ofItems, first, bind, Except.bind, pure, Except.pure]
          cases ofItems slots items <;> rfl
        rw [step]
        constructor
        · intro read
          cases rest : ofItems slots items with
          | error e =>
            rw [rest] at read
            cases read
          | ok fs =>
            rw [rest] at read
            cases read
            obtain ⟨rfl, size, checks, later⟩ := (ih ends.2).mp rest
            exact ⟨rfl, Nat.succ_le_succ size, List.forall_mem_cons.mpr ⟨first, checks⟩, later⟩
        · rintro ⟨rfl, size, checks, later⟩
          rw [(ih ends.2).mpr ⟨rfl, Nat.le_of_succ_le_succ size,
            (List.forall_mem_cons.mp checks).2, later⟩]
          rfl

/-- The names are distinct, and an array may end early only where an object may. -/
structure Regular (shape : Shape) : Prop where
  distinct : (shape.slots.map (·.name)).Nodup
  ends : closes (shape.slots.map (·.presence)) = true

theorem listed_eq_map (slots : List Slot) (items : List Value) :
    listed slots items = (slots.zip items).map fun pair => (pair.1.name, pair.2) := by
  rw [listed, List.zip_map_left]
  rfl

theorem names_listed (slots : List Slot) (items : List Value) :
    (listed slots items).map (·.1) = (slots.take items.length).map (·.name) := by
  induction slots generalizing items with
  | nil => simp [listed]
  | cons slot slots ih =>
    cases items with
    | nil => rfl
    | cons v items => exact congrArg (slot.name :: ·) (ih items)

theorem Regular.nodup_listed (regular : shape.Regular) (items : List Value) :
    ((listed shape.slots items).map (·.1)).Nodup := by
  rw [names_listed]
  exact regular.distinct.sublist ((List.take_sublist _ _).map _)

variable {items : List Value}

theorem Regular.checkField (regular : shape.Regular) {slot : Slot} (mem : slot ∈ shape.slots)
    (v : Value) : shape.checkField slot.name v = slot.check v := by
  unfold Shape.checkField
  rw [ArtifactStore.find?_keyed regular.distinct mem]

/-- An array and an object of the same values are both records of the shape, or neither is. -/
theorem Regular.fields_iff (regular : shape.Regular) (fits : items.length ≤ shape.slots.length)
    (perm : fs.Perm (listed shape.slots items)) :
    shape.fields (.array items) = .ok (listed shape.slots items) ↔
      shape.fields (.object fs) = .ok fs := by
  have checks : (∀ entry ∈ fs, shape.checkField entry.1 entry.2 = .ok ()) ↔
      ∀ pair ∈ shape.slots.zip items, pair.1.check pair.2 = .ok () := by
    rw [listed_eq_map] at perm
    simp only [perm.mem_iff, List.forall_mem_map]
    constructor
    · intro every pair among
      rw [← regular.checkField (List.of_mem_zip among).1]
      exact every pair among
    · intro every pair among
      rw [regular.checkField (List.of_mem_zip among).1]
      exact every pair among
  have present : (∀ slot ∈ shape.slots, slot.presence = .required → slot.name ∈ fs.map (·.1)) ↔
      ∀ slot ∈ shape.slots.drop items.length, slot.presence ≠ .required := by
    have names : ∀ name, name ∈ fs.map (·.1) ↔
        name ∈ (shape.slots.take items.length).map (·.name) := fun name => by
      rw [(perm.map _).mem_iff, names_listed]
    have distinct := regular.distinct
    rw [← List.take_append_drop items.length shape.slots, List.map_append,
      List.nodup_append] at distinct
    simp only [names]
    constructor
    · intro every slot among required
      have named := every slot (List.mem_of_mem_drop among) required
      exact distinct.2.2 _ named _ (List.mem_map_of_mem among) rfl
    · intro every slot among required
      rw [← List.take_append_drop items.length shape.slots, List.mem_append] at among
      obtain front | behind := among
      · exact List.mem_map_of_mem front
      · exact absurd required (every slot behind)
  rw [fields_object, checks, present]
  unfold fields
  rw [ofItems_eq_ok regular.ends]
  simp [fits]

theorem ofItems_eq_checkFields {slots : List Slot} (known : ∀ slot ∈ slots, slot ∈ shape.slots)
    (regular : shape.Regular) (full : items.length = slots.length) :
    ofItems slots items =
      (shape.checkFields (listed slots items)).map fun _ => listed slots items := by
  induction slots generalizing items with
  | nil =>
    obtain rfl := List.length_eq_zero_iff.mp full
    rfl
  | cons slot slots ih =>
    obtain ⟨v, items, rfl⟩ := List.exists_cons_of_length_eq_add_one full
    obtain ⟨here, others⟩ := List.forall_mem_cons.mp known
    have step : listed (slot :: slots) (v :: items) = (slot.name, v) :: listed slots items := rfl
    rw [step, ofItems, ih others (Nat.succ.inj full), checkFields, regular.checkField here]
    cases slot.check v with
    | error e => rfl
    | ok => cases shape.checkFields (listed slots items) <;> rfl

/-- The fields that an array lists in full are an object's, and they are refused alike. -/
theorem Regular.fields_full (regular : shape.Regular) (full : items.length = shape.slots.length) :
    shape.fields (.array items) = shape.fields (.object (listed shape.slots items)) := by
  have all : ∀ slot ∈ shape.slots, slot.presence = .required →
      slot.name ∈ (listed shape.slots items).map (·.1) := fun slot among _ => by
    rw [names_listed, full, List.take_length]
    exact List.mem_map_of_mem among
  have array : shape.fields (.array items) = ofItems shape.slots items := rfl
  rw [array, ofItems_eq_checkFields (fun _ among => among) regular full]
  simp only [fields, bind, Except.bind, checkPresent_eq_ok.mpr all]
  cases shape.checkFields (listed shape.slots items) <;> rfl

/-- The values of the fields in the order of declaration. -/
def arrayForm (shape : Shape) (fs : Fields) : List Value :=
  shape.slots.map fun slot => (field? slot.name fs).getD .null

theorem length_arrayForm (shape : Shape) (fs : Fields) :
    (shape.arrayForm fs).length = shape.slots.length := by
  rw [arrayForm, List.length_map]

/-- The array form lists the fields of a record that has them all. -/
theorem Regular.perm_arrayForm (regular : shape.Regular)
    (names : (fs.map (·.1)).Perm (shape.slots.map (·.name))) :
    fs.Perm (listed shape.slots (shape.arrayForm fs)) := by
  have distinct : (fs.map (·.1)).Nodup := names.nodup_iff.mpr regular.distinct
  have distinct' := regular.nodup_listed (shape.arrayForm fs)
  refine (List.perm_ext_iff_of_nodup (.of_map _ distinct) (.of_map _ distinct')).mpr fun entry => ?_
  obtain ⟨name, v⟩ := entry
  rw [listed, arrayForm, List.zip_map', List.mem_map, ← field?_eq_some distinct]
  constructor
  · intro found
    have present : name ∈ fs.map (·.1) := field?_isSome.mp (by rw [found]; rfl)
    obtain ⟨slot, among, rfl⟩ := List.mem_map.mp (names.mem_iff.mp present)
    exact ⟨slot, among, by rw [found]; rfl⟩
  · rintro ⟨slot, among, same⟩
    obtain ⟨rfl, rfl⟩ := Prod.mk.inj same
    have present := field?_isSome.mpr (names.mem_iff.mpr (List.mem_map_of_mem among))
    obtain ⟨w, found⟩ := Option.isSome_iff_exists.mp present
    rw [found]
    rfl

/-- What an array of the shape gives is what its fields are. -/
theorem Regular.fields_array (regular : shape.Regular)
    (read : shape.fields (.array items) = .ok gs) :
    gs = listed shape.slots items ∧ items.length ≤ shape.slots.length := by
  obtain ⟨same, fits, -⟩ := (ofItems_eq_ok regular.ends).mp read
  exact ⟨same, fits⟩

end Shape

/-! ## Decoders -/

/-- A decoder of records of a shape that looks at the values of the fields and at nothing else. -/
def ReadsFields {α : Type} (shape : Shape) (decode : Decoder α) : Prop :=
  ∃ assemble : Fields → Except DecodeError α,
    (∀ v, decode v = (shape.fields v).bind assemble) ∧
      ∀ fs gs, (∀ name, field? name fs = field? name gs) → assemble fs = assemble gs

section Decoders

variable {α : Type} {shape : Shape} {decode : Decoder α} (reads : ReadsFields shape decode)
  (regular : shape.Regular) {items : List Value}
include reads regular

/-- A record may be given by its values in the order of declaration, or by its fields in any. -/
theorem ReadsFields.array_iff (fits : items.length ≤ shape.slots.length)
    (perm : fs.Perm (Shape.listed shape.slots items)) (a : α) :
    decode (.array items) = .ok a ↔ decode (.object fs) = .ok a := by
  obtain ⟨assemble, shaped, same⟩ := reads
  have admitted := regular.fields_iff fits perm
  have distinct : (fs.map (·.1)).Nodup :=
    (perm.map _).nodup_iff.mpr (regular.nodup_listed items)
  have equal := same _ _ (field?_perm perm distinct)
  rw [shaped, shaped]
  constructor
  · intro read
    cases array : shape.fields (.array items) with
    | error e =>
      rw [array] at read
      cases read
    | ok gs =>
      obtain ⟨rfl, -⟩ := regular.fields_array array
      rw [array] at read
      rw [admitted.mp array]
      exact equal.trans read
  · intro read
    cases object : shape.fields (.object fs) with
    | error e =>
      rw [object] at read
      cases read
    | ok gs =>
      obtain ⟨rfl, -⟩ := Shape.fields_object.mp object
      rw [object] at read
      rw [admitted.mpr object]
      exact equal.symm.trans read

/-- Listed in the order of declaration, the fields are also refused alike. -/
theorem ReadsFields.array_eq (full : items.length = shape.slots.length) :
    decode (.array items) = decode (.object (Shape.listed shape.slots items)) := by
  obtain ⟨assemble, shaped, -⟩ := reads
  rw [shaped, shaped, regular.fields_full full]

end Decoders

end JobEngine.Json
