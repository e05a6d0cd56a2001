import VersionInfo.Error
import VersionInfo.Field.Basic
import VersionInfo.NameMap
import VersionInfo.Text.Blank
import VersionInfo.Text.Case
import VersionInfo.Text.Integer

/-!
# Fields as they arrive

A raw field, a `FieldSpec`, has a name, a type tag and a value in text. Resolving it checks the name
first, then the tag, then reads the value: a string is taken as it is, a truth value and a tick
count without the blanks around them (`parse_bool`, `parse_ticks`).

* `RawField.resolve`: `resolve`, the field or the first cause against it.
* `RawField.ofMetadata`: `from_metadata`, a raw field of metadata, where a key names the type.
* `readBoolean_boolean`, `readTicks_ticks`: what the constructors write is read back, ticks if they
  are valid.
-/

namespace VersionInfo

open Text (Blank SameIgnoringCase)

/-- A field as it arrives: a name, a type tag and a value in text. -/
structure RawField where
  name : String
  type : String
  value : String := ""
  emitIfEmpty : Bool := false
deriving DecidableEq

namespace RawField

/-! ## Making raw fields -/

/-- A string field. -/
def string (name value : String) : RawField := ⟨name, FieldType.string.tag, value, false⟩

/-- A truth value as text. -/
def booleanText (b : Bool) : String := if b then "true" else "false"

/-- A field of a truth value. -/
def boolean (name : String) (b : Bool) : RawField :=
  ⟨name, FieldType.boolean.tag, booleanText b, false⟩

/-- A tick count as text. -/
def ticksText (t : Ticks) : String := String.ofList (Text.writeInt t.toInt)

/-- A field of a tick count, which need not be valid. -/
def ticks (name : String) (t : Ticks) : RawField :=
  ⟨name, FieldType.ticks.tag, ticksText t, false⟩

/-- A field of an instant. -/
def timestamp (name : String) (i : Instant) : RawField := ticks name i.ticks

/-! ## Reading values -/

/-- The truth value of a text, without regard to case and to blanks around it. -/
def readBoolean (s : String) : Option Bool :=
  if SameIgnoringCase (Text.trim s) "true" then some true
  else if SameIgnoringCase (Text.trim s) "false" then some false
  else none

/-- The valid tick count that a text denotes, without regard to blanks around it. -/
def readTicks (s : String) : Option Ticks := do
  let n ← Text.readInt (Text.strip s.toList)
  if 0 ≤ n ∧ n ≤ Ticks.last then some (Int64.ofInt n) else none

/-- The value of a text that is to have a type. -/
def readValue (field : String) (type : FieldType) (s : String) :
    Except GenerationError FieldValue :=
  match type with
  | .string => .ok (.string s)
  | .boolean =>
    match readBoolean s with
    | some b => .ok (.boolean b)
    | none => .error (.malformedBoolean field s)
  | .ticks =>
    match readTicks s with
    | some t => .ok (.ticks t)
    | none => .error (.malformedTicks field s)

/-- The field that a raw field stands for. -/
def resolve (raw : RawField) : Except GenerationError Field :=
  if Blank raw.name then .error (.invalidFieldName raw.name)
  else
    match FieldType.ofTag? raw.type with
    | none => .error (.invalidFieldType raw.name raw.type)
    | some type => do
      let value ← readValue raw.name type raw.value
      return ⟨raw.name, value, raw.emitIfEmpty⟩

/-! ## Metadata -/

/-- The value under the first key that is `name` but for case. -/
def lookUp (metadata : NameMap String) (name : String) : Option String :=
  (metadata.find? fun e => SameIgnoringCase e.1 name).map Prod.snd

/-- The key that says whether an empty value is emitted. -/
def emitIfEmptyKey : String := "EmitIfEmpty"

/-- The raw field of some metadata. Its type is the first one that is named by a key. -/
def ofMetadata (name : String) (metadata : NameMap String) : Except GenerationError RawField :=
  let typed := FieldType.all.findSome? fun t => (lookUp metadata t.tag).map fun v => (t, v)
  match typed with
  | none => .error (.invalidFieldType name (",".intercalate (metadata.map Prod.fst)))
  | some (type, value) =>
    match lookUp metadata emitIfEmptyKey with
    | none => .ok ⟨name, type.tag, value, false⟩
    | some flag =>
      match readBoolean flag with
      | some b => .ok ⟨name, type.tag, value, b⟩
      | none => .error (.malformedBoolean name flag)

/-! ## Lemmas -/

theorem readBoolean_boolean (b : Bool) : readBoolean (booleanText b) = some b := by
  cases b <;> decide

/-- The text that a typed constructor makes of ticks is read as those ticks if they are in range,
and is refused otherwise. -/
theorem readTicks_ticks (t : Ticks) :
    readTicks (ticksText t) = if t.Valid then some t else none := by
  have notBlank : ∀ c ∈ Text.writeInt t.toInt, Text.isBlank c = false := by
    intro c hc
    rcases Text.eq_or_isDigit_of_mem_writeInt hc with rfl | digit
    · decide
    · exact Text.isBlank_of_isDigit digit
  rw [readTicks, ticksText, String.toList_ofList, Text.strip_of_forall notBlank,
    Text.readInt_writeInt, Option.bind_eq_bind, Option.bind_some, Int64.ofInt_toInt]
  rfl

end RawField

end VersionInfo
