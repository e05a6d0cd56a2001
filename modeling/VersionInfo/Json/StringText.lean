import VersionInfo.Json.Reading
import VersionInfo.Text.Hexadecimal

/-!
# Strings of JSON text

A string stands between quotes. Quotes, backslashes and the characters below U+0020 are written
as escapes, every other character as itself. Read, an escape of four hexadecimal digits gives a
UTF-16 unit; two such units that are a high and a low surrogate give one character, and half a
pair is an error.

* `stringText` writes a string, `stringBody` reads one after its opening quote.
* `skipString` passes over a string without pairing surrogates.
-/

namespace VersionInfo.Json

open Text (fourHex readFourHex)

/-! ## Writing -/

/-- The written form of a character. -/
def escaped (c : Char) : List Char :=
  match c with
  | '"' => ['\\', '"']
  | '\\' => ['\\', '\\']
  | '\x08' => ['\\', 'b']
  | '\t' => ['\\', 't']
  | '\n' => ['\\', 'n']
  | '\x0c' => ['\\', 'f']
  | '\r' => ['\\', 'r']
  | c => if c.toNat < 0x20 then '\\' :: 'u' :: fourHex c.toNat else [c]

/-- The written form of a string. -/
def stringText (s : String) : List Char := '"' :: s.toList.flatMap escaped ++ ['"']

/-! ## Escapes -/

/-- Reads the UTF-16 unit of four hexadecimal digits. The text ends too early when fewer than four
bytes are left of it. -/
def hexUnit : Reader Nat
  | a :: b :: c :: d :: rest =>
    match readFourHex a b c d with
    | some n => .ok ⟨n, rest, by simp only [List.length_cons]; omega⟩
    | none => .error .invalidEscape
  | s => .error (if (String.ofList s).utf8ByteSize < 4 then .endInString else .invalidEscape)

/-- The character of a pair of surrogates. -/
def pairedChar (high low : Nat) : Char :=
  Char.ofNat ((high - 0xd800) * 0x400 + (low - 0xdc00) + 0x10000)

/-- Reads the second half of a pair of surrogates. -/
def lowSurrogate (high : Nat) : Reader Char
  | [] => .error .endInString
  | '\\' :: [] => .error .endInString
  | '\\' :: 'u' :: rest => do
    let low ← hexUnit rest
    if 0xdc00 ≤ low.value ∧ low.value ≤ 0xdfff then
      return (low.map (pairedChar high)).widen (by simp only [List.length_cons]; omega)
    else throw .loneSurrogate
  | _ => .error .endOfHexEscape

/-- Reads the character of an escape in hexadecimal. -/
def hexChar : Reader Char := fun s => do
  let unit ← hexUnit s
  if 0xdc00 ≤ unit.value ∧ unit.value ≤ 0xdfff then throw .loneSurrogate
  else if 0xd800 ≤ unit.value ∧ unit.value ≤ 0xdbff then
    let r ← lowSurrogate unit.value unit.rest
    return r.widen (Nat.le_of_lt unit.lt)
  else return unit.map Char.ofNat

/-- The character of an escape of one letter. -/
def letterEscape? : Char → Option Char
  | '"' => some '"'
  | '\\' => some '\\'
  | '/' => some '/'
  | 'b' => some '\x08'
  | 'f' => some '\x0c'
  | 'n' => some '\n'
  | 'r' => some '\r'
  | 't' => some '\t'
  | _ => none

/-- Reads what follows a backslash; `unicode` reads what follows `u`. -/
def escape {α : Type} (letter : Char → α) (unicode : Reader α) : Reader α
  | [] => .error .endInString
  | c :: rest =>
    if c = 'u' then do
      let r ← unicode rest
      return r.widen (by simp only [List.length_cons]; omega)
    else
      match letterEscape? c with
      | some e => .ok ⟨letter e, rest, by simp⟩
      | none => .error .invalidEscape

/-! ## Reading -/

/-- Reads up to the closing quote; `done` holds the characters so far, last first. -/
def stringFrom (n : Nat) (done : List Char) (s : List Char) (h : s.length ≤ n) :
    Except Error (Reading String n) :=
  match s with
  | [] => .error .endInString
  | c :: rest =>
    have shorter : rest.length < n := by simp only [List.length_cons] at h; omega
    if c = '"' then .ok ⟨String.ofList done.reverse, rest, shorter⟩
    else if c = '\\' then
      match escape id hexChar rest with
      | .error e => .error e
      | .ok r => stringFrom n (r.value :: done) r.rest (by have := r.lt; omega)
    else if c.toNat < 0x20 then .error .controlCharacter
    else stringFrom n (c :: done) rest (Nat.le_of_lt shorter)
termination_by s.length
decreasing_by
  · have := r.lt
    simp only [List.length_cons]
    omega
  · simp

/-- Reads a string whose opening quote is the first character. -/
def stringBody : Reader String
  | [] => .error .endInString
  | _ :: s => stringFrom (s.length + 1) [] s (length_le_succ s)

/-- Passes over a string up to its closing quote. Escapes must be well formed, but surrogates need
not come in pairs. -/
def skipStringFrom (n : Nat) (s : List Char) (h : s.length ≤ n) :
    Except Error (Reading Unit n) :=
  match s with
  | [] => .error .endInString
  | c :: rest =>
    have shorter : rest.length < n := by simp only [List.length_cons] at h; omega
    if c = '"' then .ok ⟨(), rest, shorter⟩
    else if c = '\\' then
      match escape (fun _ => ()) (hexUnit.map fun _ => ()) rest with
      | .error e => .error e
      | .ok r => skipStringFrom n r.rest (by have := r.lt; omega)
    else if c.toNat < 0x20 then .error .controlCharacter
    else skipStringFrom n rest (Nat.le_of_lt shorter)
termination_by s.length
decreasing_by
  · have := r.lt
    simp only [List.length_cons]
    omega
  · simp

/-- Passes over a string whose opening quote is the first character. -/
def skipString : Reader Unit
  | [] => .error .endInString
  | _ :: s => skipStringFrom (s.length + 1) s (length_le_succ s)

end VersionInfo.Json
