import VersionInfo.Json.Skip

/-!
# Reading data of known types

Each reader expects one kind of data and says what it found when the text holds another: `string`,
`boolean`, `int64`, `option`, `list`, and `variant` for one of several names. A `Shape` says how
the fields of a structure are read; the structure stands either as an object, whose keys come in
any order and may be unknown, or as an array of the fields in their order.
-/

namespace VersionInfo.Json

/-- Fails at the first character of a value that is not what is expected. The value is read far
enough to say what it is, and its own faults come first. -/
def unexpected {α : Type} (expected : String) (c : Char) : Reader α :=
  let report : Reader Found → Reader α := fun p =>
    p.andThen fun found => .fail (.invalidType found expected)
  if c = 'n' then report (literal "ull".toList .null)
  else if c = 't' then report (literal "rue".toList (.boolean true))
  else if c = 'f' then report (literal "alse".toList (.boolean false))
  else if startsNumber c then report (number.map Number.found)
  else if c = '"' then report (stringBody.map .string)
  else if c = '[' then .fail (.invalidType .sequence expected)
  else if c = '\x7b' then .fail (.invalidType .map expected)
  else .fail .expectedValue

/-! ## Single values -/

/-- Reads a string. -/
def string : Reader String := atValue fun c =>
  if c = '"' then stringBody else unexpected "a string" c

/-- Reads a truth value. -/
def boolean : Reader Bool := atValue fun c =>
  if c = 't' then literal "rue".toList true
  else if c = 'f' then literal "alse".toList false
  else unexpected "a boolean" c

/-- Reads nothing but `null`. -/
def unit : Reader Unit := atValue fun c =>
  if c = 'n' then literal "ull".toList () else unexpected "unit" c

/-- An integer of 64 bits with a sign, from a number. -/
def Number.int64 : Number → Except Error Int64
  | integer n =>
    if n ≤ Int64.maxValue.toInt then .ok (Int64.ofInt n)
    else .error (.invalidValue (.integer n) "i64")
  | float x => .error (.invalidType (.float x) "i64")

/-- Reads an integer of 64 bits with a sign. -/
def int64 : Reader Int64 := atValue fun c =>
  if startsNumber c then fun s => do
    let r ← number s
    let n ← r.value.int64
    return r.map fun _ => n
  else unexpected "i64" c

/-- Reads `null` as nothing, and else what `p` reads. -/
def option {α : Type} (p : Reader α) : Reader (Option α) := atValue fun c =>
  if c = 'n' then literal "ull".toList none else p.map some

/-- Reads an array of what `p` reads. -/
def list {α : Type} (p : Reader α) : Reader (List α) := atValue fun c =>
  if c = '[' then (elements (fun done => p.map (· :: done)) []).map List.reverse
  else unexpected "a sequence" c

/-! ## One of several names -/

/-- The value that a name stands for. -/
def named {α : Type} (known : List (String × α)) (name : String) : Except Error α :=
  match known.find? fun e => e.1 == name with
  | some e => .ok e.2
  | none => .error (.unknownVariant name (known.map Prod.fst))

/-- Reads the only key of an object; there must be one. -/
def soleKey : Reader String := fun s =>
  match nextKey true s with
  | .error e => .error e
  | .ok (.close _ _) => .error .expectedValue
  | .ok (.key read) => .ok read

/-- Reads a known name with `p`. -/
def known {α : Type} (names : List (String × α)) (p : Reader String) : Reader α := fun s => do
  let r ← p s
  let v ← named names r.value
  return r.map fun _ => v

/-- Reads the closing brace right after the only member of an object. -/
def closing : Reader Unit := fun s =>
  match h : skipSpaces s with
  | [] => .error .endInObject
  | c :: rest =>
    if c = '\x7d' then .ok ⟨(), rest, lt_of_skipSpaces h⟩
    else .error .expectedValue

/-- Reads the first character, whatever it is. -/
def first : Reader Unit
  | [] => .error .endInValue
  | _ :: s => .ok ⟨(), s, Nat.lt_succ_self _⟩

/-- Reads one of several names, alone or as the key of `null` in an object. -/
def variant {α : Type} (names : List (String × α)) : Reader α := atValue fun c =>
  if c = '"' then known names stringBody
  else if c = '\x7b' then
    first.andThen fun _ => (known names soleKey).andThen fun v =>
      colon.andThen fun _ => unit.andThen fun _ => closing.map fun _ => v
  else .fail .expectedValue

/-! ## Structures -/

/-- How the fields of a structure are read. -/
structure Shape (κ σ : Type) where
  /-- What messages call the structure. -/
  title : String
  /-- The fields, in their order. -/
  keys : List κ
  /-- The key of a field in an object. -/
  label : κ → String
  /-- Whether a field must be given. -/
  required : κ → Bool
  /-- The structure before any field is read. -/
  start : σ
  /-- Reads the value of a field into the structure. -/
  field : κ → σ → Reader σ

namespace Shape

variable {κ σ : Type} [DecidableEq κ] (shape : Shape κ σ)

/-- The field of a key, if the key is known. -/
def key? (name : String) : Option κ := shape.keys.find? fun k => shape.label k == name

/-- Reads what follows a key of an object; the state holds the fields seen so far. -/
def member (state : List κ × σ) (name : String) : Reader (List κ × σ) :=
  match shape.key? name with
  | none => colon.andThen fun _ => skip.map fun _ => state
  | some k =>
    if k ∈ state.1 then .fail (.duplicateField name)
    else colon.andThen fun _ => (shape.field k state.2).map fun s => (k :: state.1, s)

/-- The structure, unless a required field was not seen. -/
def complete (state : List κ × σ) : Except Error σ :=
  match shape.keys.find? fun k => shape.required k && decide (k ∉ state.1) with
  | some k => .error (.missingField (shape.label k))
  | none => .ok state.2

/-- Reads the structure as an object. -/
def ofObject : Reader σ := fun s => do
  let r ← members shape.member ([], shape.start) s
  let v ← shape.complete r.value
  return r.map fun _ => v

/-- Reads the closing bracket after the last field. -/
def endOfArray : Reader Unit := fun s =>
  match h : skipSpaces s with
  | [] => .error .endInList
  | c :: rest =>
    if c = ']' then .ok ⟨(), rest, lt_of_skipSpaces h⟩
    else if c = ',' ∧ (skipSpaces rest).head? = some ']' then .error .trailingComma
    else .error .trailingCharacters

/-- The structure of an array that ends before the fields `keys`, unless one of them is required;
`count` fields were given. -/
def short (keys : List κ) (count : Nat) (state : σ) : Except Error σ :=
  match keys.findIdx? shape.required with
  | some i =>
    .error (.invalidLength (count + i)
      (shape.title ++ " with " ++ toString shape.keys.length ++ " elements"))
  | none => .ok state

/-- Reads the fields `keys` of an array, after `count` others, and the closing bracket. -/
def fieldsFrom (keys : List κ) (count : Nat) (state : σ) (n : Nat) (s : List Char)
    (h : s.length ≤ n) : Except Error (Reading σ n) :=
  match keys with
  | [] => do
    let r ← endOfArray s
    return (r.map fun _ => state).widen h
  | k :: keys =>
    match nextElement (count == 0) s with
    | .error e => .error e
    | .ok (.close rest lt) => do
      let v ← shape.short (k :: keys) count state
      return ⟨v, rest, Nat.lt_of_lt_of_le lt h⟩
    | .ok (.element s' le) => do
      let r ← shape.field k state s'
      fieldsFrom keys (count + 1) r.value n r.rest (by have := r.lt; omega)

/-- Reads the structure as an array. -/
def ofArray : Reader σ
  | [] => .error .endInList
  | _ :: s => shape.fieldsFrom shape.keys 0 shape.start (s.length + 1) s (length_le_succ s)

/-- Reads the structure. -/
def reader : Reader σ := atValue fun c =>
  if c = '[' then shape.ofArray
  else if c = '\x7b' then shape.ofObject
  else unexpected shape.title c

end Shape

end VersionInfo.Json
