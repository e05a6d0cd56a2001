import VersionInfo.Instant.Basic

/-!
# Fields

A field is a named member of the generated type, a `FieldDescriptor`. Its value has one of three
types; a date is set when the program runs, the other values are constants. An empty string is left
out unless the field asks for it (`should_emit`).

* `ofTag?_eq_some_iff`: a type tag is exact, and each names one type.
* `shouldEmit_eq_false_iff`: only an empty string is ever left out.
-/

namespace VersionInfo

/-- The type of a field. -/
inductive FieldType where
  | string
  | boolean
  | ticks
deriving DecidableEq

namespace FieldType

/-- All types, in the order they are looked for. -/
def all : List FieldType := [string, boolean, ticks]

/-- The tag that names the type. -/
def tag : FieldType → String
  | string => "String"
  | boolean => "Boolean"
  | ticks => "Ticks"

/-- The type of a tag; case counts. -/
def ofTag? (s : String) : Option FieldType := all.find? fun t => t.tag == s

/-! ## Lemmas -/

theorem mem_all (t : FieldType) : t ∈ all := by cases t <;> decide

/-- A tag is known only in its exact spelling, and it names one type. -/
theorem ofTag?_eq_some_iff {s : String} {t : FieldType} : ofTag? s = some t ↔ t.tag = s := by
  constructor
  · intro h
    simpa using List.find?_some h
  · rintro rfl
    cases t <;> rfl

end FieldType

/-- How a member gets its value. -/
inductive ValueKind where
  /-- When the program is compiled. -/
  | constant
  /-- Once, when the program runs. -/
  | runtime
deriving DecidableEq

/-- The value of a field. -/
inductive FieldValue where
  | string (s : String)
  | boolean (b : Bool)
  | ticks (t : Ticks)
deriving DecidableEq

namespace FieldValue

/-- The type of the value. -/
def type : FieldValue → FieldType
  | string _ => .string
  | boolean _ => .boolean
  | ticks _ => .ticks

/-- A date is never a constant. -/
def kind : FieldValue → ValueKind
  | ticks _ => .runtime
  | _ => .constant

/-- Only a string can be empty. -/
def isEmpty : FieldValue → Bool
  | string s => s == ""
  | _ => false

/-- The instant that a valid tick count denotes. -/
def instant? : FieldValue → Option Instant
  | ticks t => Instant.ofTicks? t
  | _ => none

end FieldValue

/-- A member of the generated type. -/
structure Field where
  name : String
  value : FieldValue
  /-- Whether an empty value is emitted. -/
  emitIfEmpty : Bool := false
deriving DecidableEq

namespace Field

/-- Whether the field becomes a member. -/
def shouldEmit (f : Field) : Bool := f.emitIfEmpty || !f.value.isEmpty

/-! ## Lemmas -/

/-- Only an empty string is left out, and only when it is not kept: other values are never empty. -/
theorem shouldEmit_eq_false_iff {f : Field} :
    f.shouldEmit = false ↔ f.emitIfEmpty = false ∧ f.value = .string "" := by
  obtain ⟨name, value, emitIfEmpty⟩ := f
  cases value <;> simp [shouldEmit, FieldValue.isEmpty]

end Field

end VersionInfo
