import JobEngine.Proofs.IdentifierTexts
import JobEngine.Proofs.RecordShapes
import JobEngine.Proofs.TimestampTexts

/-!
# Wire formats

Requests, receipts, records, statistics and artifacts are decoded from what
they are encoded to. The fields of each have a round trip of their own; the
shape of the record does the rest.
-/
namespace JobEngine

open Json (Value Decoder DecodeError Shape Slot ReadsFields required orElse)
open Time (Timestamp)

/-! ## Values of fields -/

namespace Json

theorem bind_eq_ok {ε α β : Type} {x : Except ε α} {f : α → Except ε β} {b : β} :
    x >>= f = .ok b ↔ ∃ a, x = .ok a ∧ f a = .ok b := by
  cases x <;> simp [bind, Except.bind]

namespace Decode

@[simp] theorem text_string (s : String) : text (.string s) = .ok s := rfl

@[simp] theorem fields_object (fs : List (String × Value)) : fields (.object fs) = .ok fs := rfl

@[simp] theorem word32_ofNat (n : UInt32) : word32 (.ofNat n.toNat) = .ok n := by
  have small := n.toNat_lt_size
  have range : 0 ≤ (n.toNat : Int) ∧ (n.toNat : Int) ≤ ((UInt32.size - 1 : Nat) : Int) := by omega
  simp only [word32, wholeUpTo, Value.ofNat, if_pos range, Except.map, Int.toNat_natCast,
    UInt32.ofNat_toNat]

@[simp] theorem word64_ofNat (n : UInt64) : word64 (.ofNat n.toNat) = .ok n := by
  have small := n.toNat_lt_size
  have range : 0 ≤ (n.toNat : Int) ∧ (n.toNat : Int) ≤ ((UInt64.size - 1 : Nat) : Int) := by omega
  simp only [word64, wholeUpTo, Value.ofNat, if_pos range, Except.map, Int.toNat_natCast,
    UInt64.ofNat_toNat]

theorem optional_ofOption {α : Type} {encode : α → Value} {decode : Decoder α} {o : Option α}
    (some : ∀ a ∈ o, encode a ≠ .null ∧ decode (encode a) = .ok a) :
    optional decode (.ofOption encode o) = .ok o := by
  cases o with
  | none => rfl
  | some a =>
    obtain ⟨present, read⟩ := some a rfl
    simp only [Value.ofOption]
    unfold optional
    split
    · rename_i null
      exact absurd null present
    · rw [read]
      rfl

@[simp] theorem listOf_text (items : List String) :
    listOf text (.array (items.map .string)) = .ok items := by
  simp only [listOf]
  induction items with
  | nil => rfl
  | cons s items ih => rw [List.map_cons, List.mapM_cons, ih]; rfl

end Decode

end Json

@[simp] theorem JobId.decode_encode (id : JobId) : JobId.decode id.encode = .ok id := by
  simp only [JobId.decode, JobId.encode, JobId.parse?_text]

theorem decodeTime_encodeTime {t : Timestamp} (w : t.Writable) :
    decodeTime (encodeTime t) = .ok t := by
  simp only [decodeTime, encodeTime, Timestamp.parse?_text w]

@[simp] theorem Status.decode_encode (s : Status) : Status.decode s.encode = .ok s := by
  cases s <;> rfl

@[simp] theorem Command.decode_encode (c : Command) : Command.decode c.encode = .ok c := by
  cases c <;> rfl

theorem writable_of_decodeTime {v : Value} {t : Timestamp} (read : decodeTime v = .ok t) :
    t.Writable := by
  unfold decodeTime at read
  split at read
  · split at read
    · rename_i parsed
      cases read
      exact Timestamp.writable_of_parse? parsed
    · cases read
  · cases read

theorem writable_of_required {name : String} {fields : List (String × Value)} {t : Timestamp}
    (read : required name decodeTime fields = .ok t) : t.Writable := by
  unfold required at read
  split at read
  · exact writable_of_decodeTime read
  · cases read

theorem writable_of_orElse {name : String} {fields : List (String × Value)}
    {o : Option Timestamp}
    (read : orElse name (Json.Decode.optional decodeTime) none fields = .ok o) :
    ∀ t ∈ o, t.Writable := by
  rintro t rfl
  unfold orElse at read
  split at read
  · rename_i v _
    unfold Json.Decode.optional at read
    split at read
    · cases read
    · cases inner : decodeTime v with
      | error e =>
        rw [inner] at read
        cases read
      | ok t' =>
        rw [inner] at read
        cases read
        exact writable_of_decodeTime inner
  · cases read

/-! ## Wire formats -/

/-- What a wire format promises for the values that `writable` admits. -/
structure Faithful {α : Type} (shape : Shape) (encode : α → Value) (decode : Decoder α)
    (writable : α → Prop) : Prop where
  decode_encode : ∀ a, writable a → decode (encode a) = .ok a
  /-- The values of an encoding in the order of declaration are an array that is decoded alike. -/
  array_encode : ∀ a, writable a → ∃ fs, encode a = .object fs ∧
    decode (.array (shape.arrayForm fs)) = .ok a
  /-- Whatever its items are, an array in full is read as the object of these fields is. -/
  array_eq : ∀ items, items.length = shape.slots.length →
    decode (.array items) = decode (.object (Shape.listed shape.slots items))
  /-- An array that may end early gives what the object gives, in whatever order that lists them. -/
  array_iff : ∀ items fs, items.length ≤ shape.slots.length →
    fs.Perm (Shape.listed shape.slots items) →
      ∀ a, decode (.array items) = .ok a ↔ decode (.object fs) = .ok a
  /-- What was decoded from any value is encoded to one that is decoded to the same. -/
  again : ∀ v a, decode v = .ok a → decode (encode a) = .ok a
  /-- To decode and encode once is as much as to do it twice. -/
  canonical : ∀ v w, (decode v).map encode = .ok w → (decode w).map encode = .ok w

theorem Faithful.of_fields {α : Type} {shape : Shape} {encode : α → Value} {decode : Decoder α}
    {writable : α → Prop} (names : List String) (sorted : names.Perm (shape.slots.map (·.name)))
    (reads : ReadsFields shape decode) (regular : shape.Regular)
    (decode_encode : ∀ a, writable a → decode (encode a) = .ok a)
    (complete : ∀ a, ∃ fs, encode a = .object fs ∧ fs.map (·.1) = names)
    (writable_of_decode : ∀ v a, decode v = .ok a → writable a) :
    Faithful shape encode decode writable where
  decode_encode := decode_encode
  array_encode := fun a admitted => by
    obtain ⟨fs, encoded, rfl⟩ := complete a
    refine ⟨fs, encoded, ?_⟩
    rw [reads.array_iff regular (Nat.le_of_eq (shape.length_arrayForm fs))
      (regular.perm_arrayForm sorted), ← encoded]
    exact decode_encode a admitted
  array_eq := fun items full => reads.array_eq regular full
  array_iff := fun items fs fits perm a => reads.array_iff regular fits perm a
  again := fun v a read => decode_encode a (writable_of_decode v a read)
  canonical := fun v w read => by
    cases first : decode v with
    | error e =>
      rw [first] at read
      cases read
    | ok a =>
      rw [first] at read
      cases read
      rw [decode_encode a (writable_of_decode v a first)]
      rfl

/-- An optional word is null or a number. -/
theorem optional_word32 (n : Option UInt32) :
    Json.Decode.optional Json.Decode.word32 (.ofOption (fun n => .ofNat n.toNat) n) = .ok n :=
  Json.Decode.optional_ofOption fun _ _ => ⟨by simp [Value.ofNat], by simp⟩

theorem optional_time {t : Option Timestamp} (w : ∀ t' ∈ t, t'.Writable) :
    Json.Decode.optional decodeTime (.ofOption encodeTime t) = .ok t :=
  Json.Decode.optional_ofOption fun t' is => ⟨by simp [encodeTime], decodeTime_encodeTime (w t' is)⟩

namespace Request

theorem readsFields : ReadsFields shape decode :=
  ⟨_, fun _ => rfl, fun fs gs same => by simp only [required, orElse, same]⟩

theorem regular : shape.Regular := ⟨by decide, by decide⟩

theorem decode_encode (r : Request) : decode r.encode = .ok r := by
  simp [decode, encode, shape, Shape.fields, Shape.checkFields, Shape.checkField,
    Shape.checkPresent, Slot.of, Json.field?, required, orElse, optional_word32,
    bind, Except.bind, Except.map, pure, Except.pure]

theorem faithful : Faithful shape encode decode fun _ => True :=
  .of_fields ["job_type", "max_fails", "parameters"] (by decide) readsFields regular
    (fun r _ => decode_encode r) (fun _ => ⟨_, rfl, rfl⟩) fun _ _ _ => trivial

end Request

namespace Receipt

theorem readsFields : ReadsFields shape decode :=
  ⟨_, fun _ => rfl, fun fs gs same => by simp only [required, same]⟩

theorem regular : shape.Regular := ⟨by decide, by decide⟩

theorem decode_encode (r : Receipt) : decode r.encode = .ok r := by
  simp [decode, encode, shape, Shape.fields, Shape.checkFields, Shape.checkField,
    Shape.checkPresent, Slot.of, Json.field?, required, bind, Except.bind, Except.map, pure,
    Except.pure]

theorem faithful : Faithful shape encode decode fun _ => True :=
  .of_fields ["job_id"] (by decide) readsFields regular (fun r _ => decode_encode r)
    (fun _ => ⟨_, rfl, rfl⟩) fun _ _ _ => trivial

end Receipt

namespace Record

theorem readsFields : ReadsFields shape decode :=
  ⟨_, fun _ => rfl, fun fs gs same => by simp only [required, orElse, same]⟩

theorem regular : shape.Regular := ⟨by decide, by decide⟩

theorem decode_encode {r : Record} (w : r.enqueuedAt.Writable) : decode r.encode = .ok r := by
  simp [decode, encode, shape, Shape.fields, Shape.checkFields, Shape.checkField,
    Shape.checkPresent, Slot.of, Json.field?, required, orElse, optional_word32,
    decodeTime_encodeTime w, bind, Except.bind, Except.map, pure, Except.pure]

theorem writable_of_decode {v : Value} {r : Record} (read : decode v = .ok r) :
    r.enqueuedAt.Writable := by
  simp only [decode, Json.bind_eq_ok] at read
  obtain ⟨fields, -, id, -, jobType, -, parameters, -, fails, -, maxFails, -, enqueuedAt, time,
    same⟩ := read
  obtain rfl := Except.ok.inj same
  exact writable_of_required time

theorem faithful : Faithful shape encode decode fun r => r.enqueuedAt.Writable :=
  .of_fields ["enqueued_at", "fails", "id", "job_type", "max_fails", "parameters"] (by decide)
    readsFields regular (fun _ => decode_encode) (fun _ => ⟨_, rfl, rfl⟩)
    fun _ _ => writable_of_decode

end Record

namespace Stats

/-- Every time in the statistics can be written. -/
structure Writable (s : Stats) : Prop where
  checkInAt : ∀ t ∈ s.checkInAt, t.Writable
  dieAt : ∀ t ∈ s.dieAt, t.Writable
  updatedAt : s.updatedAt.Writable

theorem readsFields : ReadsFields shape decode :=
  ⟨_, fun _ => rfl, fun fs gs same => by simp only [required, orElse, same]⟩

theorem regular : shape.Regular := ⟨by decide, by decide⟩

theorem optional_text (text : Option String) :
    Json.Decode.optional Json.Decode.text (.ofOption .string text) = .ok text :=
  Json.Decode.optional_ofOption fun _ _ => ⟨by simp, by simp⟩

theorem optional_command (command : Option Command) :
    Json.Decode.optional Command.decode (.ofOption Command.encode command) = .ok command :=
  Json.Decode.optional_ofOption fun _ _ => ⟨by simp [Command.encode], by simp⟩

theorem decode_encode {s : Stats} (w : s.Writable) : decode s.encode = .ok s := by
  simp [decode, encode, shape, Shape.fields, Shape.checkFields, Shape.checkField,
    Shape.checkPresent, Slot.of, Json.field?, required, orElse, optional_text, optional_command,
    optional_time w.checkInAt, optional_time w.dieAt, decodeTime_encodeTime w.updatedAt,
    bind, Except.bind, Except.map, pure, Except.pure]

theorem writable_of_decode {v : Value} {s : Stats} (read : decode v = .ok s) : s.Writable := by
  simp only [decode, Json.bind_eq_ok] at read
  obtain ⟨fields, -, jobId, -, status, -, checkIn, -, checkInAt, seen, command, -, dieAt, ends,
    updatedAt, time, same⟩ := read
  obtain rfl := Except.ok.inj same
  exact ⟨writable_of_orElse seen, writable_of_orElse ends, writable_of_required time⟩

theorem faithful : Faithful shape encode decode Writable :=
  .of_fields ["check_in", "check_in_at", "command", "die_at", "job_id", "status", "updated_at"]
    (by decide) readsFields regular (fun _ => decode_encode) (fun _ => ⟨_, rfl, rfl⟩)
    fun _ _ => writable_of_decode

end Stats

namespace Artifact

theorem readsFields : ReadsFields shape decode :=
  ⟨_, fun _ => rfl, fun fs gs same => by simp only [required, orElse, same]⟩

theorem regular : shape.Regular := ⟨by decide, by decide⟩

theorem decode_encode {a : Artifact} (w : a.pushedAt.Writable) : decode a.encode = .ok a := by
  simp [decode, encode, shape, Shape.fields, Shape.checkFields, Shape.checkField,
    Shape.checkPresent, Slot.of, Json.field?, required, orElse, decodeTime_encodeTime w,
    bind, Except.bind, Except.map, pure, Except.pure]

theorem writable_of_decode {v : Value} {a : Artifact} (read : decode v = .ok a) :
    a.pushedAt.Writable := by
  simp only [decode, Json.bind_eq_ok] at read
  obtain ⟨fields, -, repository, -, digest, -, tags, -, pushedAt, time, size, -, same⟩ := read
  obtain rfl := Except.ok.inj same
  exact writable_of_required time

theorem faithful : Faithful shape encode decode fun a => a.pushedAt.Writable :=
  .of_fields ["digest", "pushed_at", "repository", "size", "tags"] (by decide) readsFields regular
    (fun _ => decode_encode) (fun _ => ⟨_, rfl, rfl⟩) fun _ _ => writable_of_decode

end Artifact

/-- The five formats are faithful, and the times of four-digit years are among those that can be
written. -/
theorem every_format_faithful :
    (∀ t : Timestamp, 0 ≤ t.year ∧ t.year ≤ 9999 → t.nanos < 1000000000 → t.Writable) ∧
      Faithful Request.shape Request.encode Request.decode (fun _ => True) ∧
      Faithful Receipt.shape Receipt.encode Receipt.decode (fun _ => True) ∧
      Faithful Record.shape Record.encode Record.decode (fun r => r.enqueuedAt.Writable) ∧
      Faithful Stats.shape Stats.encode Stats.decode Stats.Writable ∧
      Faithful Artifact.shape Artifact.encode Artifact.decode (fun a => a.pushedAt.Writable) :=
  ⟨fun _ => Timestamp.writable_of_year, Request.faithful, Receipt.faithful, Record.faithful,
    Stats.faithful, Artifact.faithful⟩

/-- A record in the last nanosecond of a leap day, with its counts at their largest. -/
def lastNanosecond : Record :=
  ⟨.ofNat 7, "sweep", [("depth", .ofNat 3)], 18446744073709551615, some 4294967295,
    ⟨951868799, 999999999⟩⟩

theorem every_format_faithful_lastNanosecond :
    lastNanosecond.enqueuedAt.year = 2000 ∧
      Record.decode lastNanosecond.encode = .ok lastNanosecond ∧
      Receipt.decode (.array [.string "0000000000000000000000000000000A"]) = .ok ⟨.ofNat 10⟩ ∧
      Receipt.decode (Receipt.encode ⟨.ofNat 10⟩) = .ok ⟨.ofNat 10⟩ := by
  obtain ⟨ordinary, -, receipts, records, -⟩ := every_format_faithful
  have year : lastNanosecond.enqueuedAt.year = 2000 := by decide
  have read : Receipt.decode (.array [.string "0000000000000000000000000000000A"]) =
      .ok ⟨.ofNat 10⟩ := by cbv
  exact ⟨year, records.decode_encode _ (ordinary _ (by rw [year]; decide) (by decide)), read,
    receipts.again _ _ read⟩

end JobEngine
