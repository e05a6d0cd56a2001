import VersionInfo.Proofs.Json.Canonical

/-!
# What stands inside a value

The parts of a value are the elements of an array and the values of an object's members. A property
holds **everywhere** in a value if it holds of the value, of its parts, of their parts and so on.

* `Value.inductionOn`: what passes from the parts of values to the values holds of all values.
* `Value.Everywhere`, `Value.Nested`: what a value holds, and how deep arrays and objects nest.
* `Value.Plain`: all numbers are integers of JSON text.
* `everywhere_canonical`, `Value.Nested.canonical`: the canonical value holds no more.
-/

namespace VersionInfo.Json

namespace Value

/-- The elements of an array, the values of the members of an object. -/
def parts : Value → List Value
  | array vs => vs
  | object ms => ms.map Prod.snd
  | _ => []

/-- The parts of a value are smaller than the value, on which `inductionOn` descends. -/
theorem sizeOf_lt_of_mem_parts {u v : Value} (h : u ∈ v.parts) : sizeOf u < sizeOf v := by
  cases v with
  | array vs =>
    have lt := List.sizeOf_lt_of_mem (show u ∈ vs from h)
    simp only [array.sizeOf_spec]
    omega
  | object ms =>
    obtain ⟨m, mem, rfl⟩ := List.mem_map.mp (show u ∈ ms.map Prod.snd from h)
    have lt := List.sizeOf_lt_of_mem mem
    obtain ⟨k, u⟩ := m
    simp only [object.sizeOf_spec, Prod.mk.sizeOf_spec] at lt ⊢
    omega
  | _ => exact absurd h List.not_mem_nil

/-- What passes from the parts of every value to the value holds of all values. -/
theorem inductionOn {motive : Value → Prop} (v : Value)
    (step : ∀ v, (∀ u ∈ v.parts, motive u) → motive v) : motive v :=
  step v fun u _ => inductionOn u step
termination_by sizeOf v
decreasing_by exact sizeOf_lt_of_mem_parts ‹_›

/-- `P` holds of the value and of all values inside it. -/
inductive Everywhere (P : Value → Prop) : Value → Prop
  | intro {v : Value} (here : P v) (inside : ∀ u ∈ v.parts, Everywhere P u) : Everywhere P v

theorem Everywhere.here {P : Value → Prop} {v : Value} : v.Everywhere P → P v
  | intro here _ => here

theorem Everywhere.inside {P : Value → Prop} {v : Value} :
    v.Everywhere P → ∀ u ∈ v.parts, u.Everywhere P
  | intro _ inside => inside

/-- No number is a floating point number. -/
def NoFloat (v : Value) : Prop := v.Everywhere fun u => ∀ x, u ≠ float x

/-- Every integer is in the range of JSON text. -/
def InRange (v : Value) : Prop := v.Everywhere fun u => ∀ n, u = integer n → IntegerRange n

/-- All numbers are integers of JSON text. -/
structure Plain (v : Value) : Prop where
  noFloat : v.NoFloat
  inRange : v.InRange

/-- The parts of a value that is written and read back without loss are such values. -/
theorem Plain.inside {v : Value} (h : v.Plain) (u : Value) (mem : u ∈ v.parts) : u.Plain :=
  ⟨h.noFloat.inside u mem, h.inRange.inside u mem⟩

/-- Neither an array nor an object. -/
def IsScalar : Value → Prop
  | array _ | object _ => False
  | _ => True

/-- A value is a scalar, an array or an object. Proofs by `inductionOn` split on this and not on all
constructors. -/
theorem kind_cases (v : Value) :
    v.IsScalar ∨ (∃ vs, v = array vs) ∨ ∃ ms, v = object ms := by
  cases v with
  | array vs => exact Or.inr (Or.inl ⟨vs, rfl⟩)
  | object ms => exact Or.inr (Or.inr ⟨ms, rfl⟩)
  | _ => exact Or.inl trivial

/-- A scalar has no parts, so what holds of it holds everywhere in it. -/
theorem everywhere_of_isScalar {P : Value → Prop} {v : Value} (scalar : v.IsScalar) (here : P v) :
    v.Everywhere P := by
  refine .intro here fun u mem => ?_
  cases v with
  | array vs => exact scalar.elim
  | object ms => exact scalar.elim
  | _ => exact absurd mem List.not_mem_nil

/-- An array is read back if its elements are. -/
@[simp]
theorem plain_array {vs : List Value} : (array vs).Plain ↔ ∀ v ∈ vs, v.Plain := by
  refine ⟨Plain.inside, fun h => ⟨.intro nofun fun v mem => ?_, .intro nofun fun v mem => ?_⟩⟩
  · exact (h v mem).noFloat
  · exact (h v mem).inRange

@[simp]
theorem plain_object {ms : List (String × Value)} :
    (object ms).Plain ↔ ∀ m ∈ ms, m.2.Plain := by
  constructor
  · exact fun h m mem => h.inside m.2 (List.mem_map_of_mem mem)
  · intro h
    have values : ∀ v ∈ (object ms).parts, v.Plain := List.forall_mem_map.mpr h
    exact ⟨.intro nofun fun v mem => (values v mem).noFloat,
      .intro nofun fun v mem => (values v mem).inRange⟩

@[simp]
theorem plain_null : null.Plain :=
  ⟨everywhere_of_isScalar trivial nofun, everywhere_of_isScalar trivial nofun⟩

@[simp]
theorem plain_boolean (b : Bool) : (boolean b).Plain :=
  ⟨everywhere_of_isScalar trivial nofun, everywhere_of_isScalar trivial nofun⟩

@[simp]
theorem plain_string (s : String) : (string s).Plain :=
  ⟨everywhere_of_isScalar trivial nofun, everywhere_of_isScalar trivial nofun⟩

/-- Of the scalars without a fraction only integers can be refused: they have a range. -/
@[simp]
theorem plain_integer {n : Int} : (integer n).Plain ↔ IntegerRange n := by
  refine ⟨fun h => h.inRange.here n rfl, fun range => ?_⟩
  refine ⟨everywhere_of_isScalar trivial nofun, everywhere_of_isScalar trivial ?_⟩
  rintro _ ⟨⟩
  exact range

/-- Arrays and objects are nested at most `depth` deep. -/
inductive Nested : (depth : Nat) → Value → Prop
  | scalar {depth : Nat} {v : Value} (h : v.IsScalar) : Nested depth v
  | inside {depth : Nat} {v : Value} (h : ∀ u ∈ v.parts, Nested depth u) : Nested (depth + 1) v

@[simp]
theorem nested_null (depth : Nat) : null.Nested depth := .scalar trivial

@[simp]
theorem nested_boolean (depth : Nat) (b : Bool) : (boolean b).Nested depth := .scalar trivial

@[simp]
theorem nested_integer (depth : Nat) (n : Int) : (integer n).Nested depth := .scalar trivial

@[simp]
theorem nested_string (depth : Nat) (s : String) : (string s).Nested depth := .scalar trivial

/-- An array takes one level of the nesting that the reader allows. -/
@[simp]
theorem nested_array {depth : Nat} {vs : List Value} :
    (array vs).Nested (depth + 1) ↔ ∀ v ∈ vs, v.Nested depth := by
  refine ⟨fun h => ?_, fun h => .inside h⟩
  cases h with
  | scalar scalar => exact scalar.elim
  | inside h => exact h

@[simp]
theorem nested_object {depth : Nat} {ms : List (String × Value)} :
    (object ms).Nested (depth + 1) ↔ ∀ m ∈ ms, m.2.Nested depth := by
  refine ⟨fun h => ?_, fun h => .inside (List.forall_mem_map.mpr h)⟩
  cases h with
  | scalar scalar => exact scalar.elim
  | inside h => exact List.forall_mem_map.mp h

/-! ## Canonical values -/

/-- The parts of a canonical value are canonical forms of parts: members are dropped and moved, but
none is made. -/
theorem parts_canonical (v : Value) : ∀ u ∈ v.canonical.parts, ∃ w ∈ v.parts, u = w.canonical := by
  intro u mem
  cases v with
  | array vs =>
    rw [canonical_array] at mem
    obtain ⟨w, given, rfl⟩ := List.mem_map.mp (show u ∈ vs.map canonical from mem)
    exact ⟨w, given, rfl⟩
  | object ms =>
    rw [canonical_object] at mem
    obtain ⟨e, kept, rfl⟩ := List.mem_map.mp mem
    obtain ⟨m, given, rfl⟩ := List.mem_map.mp (NameMap.mem_of_mem_ofList kept)
    exact ⟨m.2, List.mem_map_of_mem given, rfl⟩
  | _ => exact absurd mem List.not_mem_nil

/-- What canonical values have, if the values inside them do, they have everywhere. -/
theorem everywhere_canonical {P Q : Value → Prop} (step : ∀ v, P v → Q v.canonical) {v : Value}
    (h : v.Everywhere P) : v.canonical.Everywhere Q := by
  induction h with
  | @intro v here _ ih =>
    refine .intro (step v here) fun u mem => ?_
    obtain ⟨w, given, rfl⟩ := parts_canonical v u mem
    exact ih w given

/-- The canonical form brings in no fractions. -/
theorem NoFloat.canonical {v : Value} (h : v.NoFloat) : v.canonical.NoFloat := by
  refine everywhere_canonical (fun v none x same => ?_) h
  cases v with
  | float y => exact none y rfl
  | _ => cases same

theorem InRange.canonical {v : Value} (h : v.InRange) : v.canonical.InRange := by
  refine everywhere_canonical (fun v range n same => ?_) h
  cases v with
  | integer m => exact range n same
  | _ => cases same

/-- The canonical form of a scalar is a scalar. -/
theorem isScalar_canonical {v : Value} (h : v.IsScalar) : v.canonical.IsScalar := by
  cases v with
  | array vs => exact h.elim
  | object ms => exact h.elim
  | _ => trivial

/-- The canonical form is nested no deeper, so it is read wherever the value is. -/
theorem Nested.canonical {depth : Nat} {v : Value} (h : v.Nested depth) :
    v.canonical.Nested depth := by
  induction h with
  | scalar h => exact .scalar (isScalar_canonical h)
  | @inside depth v _ ih =>
    refine .inside fun u mem => ?_
    obtain ⟨w, given, rfl⟩ := parts_canonical v u mem
    exact ih w given

end Value

end VersionInfo.Json
