import VersionInfo.Json.Error

/-!
# Reading a text from its start

A reader takes the characters still to be read and gives a value with the characters left, of
which there are fewer. That bound is part of every reading, so a loop over readings ends because
the text does.

* `Reader.andThen` reads one thing after another, `Reader.map` changes the value read.
* `Reader.text` reads a whole text: only spaces may be left.
-/

namespace VersionInfo.Json

/-- A value, and the fewer than `n` characters left after it. -/
structure Reading (α : Type) (n : Nat) where
  value : α
  rest : List Char
  lt : rest.length < n

/-- Reads a value from the start of a text. -/
abbrev Reader (α : Type) := (s : List Char) → Except Error (Reading α s.length)

/-- The reading within a looser bound. -/
def Reading.widen {α : Type} {m n : Nat} (r : Reading α m) (h : m ≤ n) : Reading α n :=
  ⟨r.value, r.rest, Nat.lt_of_lt_of_le r.lt h⟩

theorem Reading.le {α : Type} {n : Nat} (r : Reading α n) : r.rest.length ≤ n :=
  Nat.le_of_lt r.lt

/-- The reading with another value. -/
def Reading.map {α β : Type} {n : Nat} (f : α → β) (r : Reading α n) : Reading β n :=
  ⟨f r.value, r.rest, r.lt⟩

namespace Reader

variable {α β : Type}

/-- Reads with `p`, then what `q` makes of its value. -/
def andThen (p : Reader α) (q : α → Reader β) : Reader β := fun s => do
  let first ← p s
  let second ← q first.value first.rest
  return second.widen (Nat.le_of_lt first.lt)

/-- Reads with `p` and changes the value. -/
def map (f : α → β) (p : Reader α) : Reader β := fun s => (p s).map (Reading.map f)

/-- Fails whatever the text. -/
def fail (e : Error) : Reader α := fun _ => .error e

end Reader

/-! ## Spaces and words -/

/-- The characters that may stand between the parts of a text. -/
def isSpace (c : Char) : Bool := c == ' ' || c == '\n' || c == '\t' || c == '\r'

/-- The text from the first character that is no space. -/
def skipSpaces (s : List Char) : List Char := s.dropWhile isSpace

theorem length_skipSpaces_le (s : List Char) : (skipSpaces s).length ≤ s.length :=
  (List.dropWhile_sublist isSpace).length_le

/-- The text behind any spaces, its first character included, is no longer than the text. -/
theorem le_of_skipSpaces {s rest : List Char} {c : Char} (h : skipSpaces s = c :: rest) :
    (c :: rest).length ≤ s.length := h ▸ length_skipSpaces_le s

/-- Behind the first character that is no space the text is shorter, which is what a reading needs.
-/
theorem lt_of_skipSpaces {s rest : List Char} {c : Char} (h : skipSpaces s = c :: rest) :
    rest.length < s.length := le_of_skipSpaces h

theorem rest_le_of_skipSpaces {s rest : List Char} {c : Char} (h : skipSpaces s = c :: rest) :
    rest.length ≤ s.length := Nat.le_of_lt (lt_of_skipSpaces h)

theorem length_le_self (s : List Char) : s.length ≤ s.length := Nat.le_refl _

theorem length_le_succ (s : List Char) : s.length ≤ s.length + 1 := Nat.le_succ _

/-- What follows the letters of a word. -/
def word : List Char → List Char → Except Error (List Char)
  | [], s => .ok s
  | _ :: _, [] => .error .endInValue
  | c :: expected, d :: s => if c = d then word expected s else .error .expectedIdent

/-- What is left behind a word is no longer than the text. -/
theorem length_le_of_word {expected s rest : List Char} (h : word expected s = .ok rest) :
    rest.length ≤ s.length := by
  induction expected generalizing s with
  | nil => cases h; exact Nat.le_refl _
  | cons c expected ih =>
    cases s with
    | nil => cases h
    | cons d s =>
      simp only [word] at h
      split at h
      · exact Nat.le_succ_of_le (ih h)
      · cases h

/-- Reads the rest of a word whose first letter stands at the start of the text. -/
def literal {α : Type} (expected : List Char) (value : α) : Reader α
  | [] => .error .endInValue
  | _ :: s =>
    match h : word expected s with
    | .error e => .error e
    | .ok rest => .ok ⟨value, rest, Nat.lt_succ_of_le (length_le_of_word h)⟩

/-- Reads a value after any spaces, by its first character; the text must not end there. -/
def atValue {α : Type} (p : Char → Reader α) : Reader α := fun s =>
  match h : skipSpaces s with
  | [] => .error .endInValue
  | c :: rest => do
    let r ← p c (c :: rest)
    return r.widen (le_of_skipSpaces h)

/-- The value that makes up the whole of a text. -/
def Reader.text {α : Type} (p : Reader α) (s : String) : Except Error α := do
  let r ← p s.toList
  if skipSpaces r.rest = [] then return r.value else throw .trailingCharacters

end VersionInfo.Json
