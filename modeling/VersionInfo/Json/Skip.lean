import VersionInfo.Json.Number
import VersionInfo.Json.Structure

/-!
# Passing over a value

A value that nobody asks for is passed over by a looser rule: brackets are kept on a stack, so
they may be nested to any depth; numbers may have any size and surrogates need not come in pairs.
A comma must be followed by a value or by a key, whatever bracket stands there.
-/

namespace VersionInfo.Json

/-- An opened bracket. -/
inductive Frame where
  | list
  | object
deriving DecidableEq

namespace Frame

/-- The bracket that closes the frame. -/
def closer : Frame → Char
  | list => ']'
  | object => '\x7d'

/-- The text ends inside the frame. -/
def endError : Frame → Error
  | list => .endInList
  | object => .endInObject

/-- Neither a comma nor the closing bracket follows a part of the frame. -/
def separatorError : Frame → Error
  | list => .expectedListCommaOrEnd
  | object => .expectedObjectCommaOrEnd

end Frame

/-- Passes over the key and the colon of an object's member, and over nothing in a list. -/
def skipKey (f : Frame) (s : List Char) :
    Except Error { rest : List Char // rest.length ≤ s.length } :=
  match f with
  | .list => .ok ⟨s, length_le_self s⟩
  | .object =>
    match h : skipSpaces s with
    | [] => .error .endInObject
    | c :: rest =>
      if c = '"' then do
        let r ← (skipString.andThen fun _ => colon) (c :: rest)
        let r := r.widen (le_of_skipSpaces h)
        return ⟨r.rest, r.le⟩
      else .error .keyMustBeString

/-- Where the scan goes on after a value or an opening bracket. -/
inductive Resumed (n : Nat) where
  /-- All brackets are closed. -/
  | done (rest : List Char) (le : rest.length ≤ n)
  /-- A value stands next, inside these brackets. -/
  | value (stack : List Frame) (rest : List Char) (le : rest.length ≤ n)

/-- The place within a looser bound. -/
def Resumed.widen {m n : Nat} (h : m ≤ n) : Resumed m → Resumed n
  | done rest le => done rest (Nat.le_trans le h)
  | value stack rest le => value stack rest (Nat.le_trans le h)

/-- Passes over closing brackets and a comma with what leads to the next value. `part` says whether
a part of the innermost frame has just ended. -/
def resume (part : Bool) (stack : List Frame) (s : List Char) : Except Error (Resumed s.length) :=
  match stack with
  | [] => .ok (.done s (length_le_self s))
  | f :: outer =>
    match h : skipSpaces s with
    | [] => .error f.endError
    | c :: rest =>
      if c = ',' ∧ part = true then do
        let r ← skipKey f rest
        return (Resumed.value (f :: outer) r.val r.property).widen (rest_le_of_skipSpaces h)
      else if c = f.closer then do
        let r ← resume true outer rest
        return r.widen (rest_le_of_skipSpaces h)
      else if part then .error f.separatorError
      else do
        let r ← skipKey f (c :: rest)
        return (Resumed.value (f :: outer) r.val r.property).widen (le_of_skipSpaces h)

/-- Passes over a value without brackets. -/
def skipScalar (c : Char) : Reader Unit :=
  if c = 'n' then literal "ull".toList ()
  else if c = 't' then literal "rue".toList ()
  else if c = 'f' then literal "alse".toList ()
  else if startsNumber c then skipNumber
  else if c = '"' then skipString
  else .fail .expectedValue

/-- Passes over a value without brackets, or over an opening bracket, and goes on. -/
def skipPart (stack : List Frame) (c : Char) (rest : List Char) :
    Except Error (Resumed rest.length) :=
  if c = '[' then resume false (.list :: stack) rest
  else if c = '\x7b' then resume false (.object :: stack) rest
  else do
    let scalar ← skipScalar c (c :: rest)
    let r ← resume true stack scalar.rest
    return r.widen (Nat.le_of_lt_succ scalar.lt)

/-- Passes over a value inside the brackets of `stack`, and over all up to their end. -/
def skipFrom (n : Nat) (stack : List Frame) (s : List Char) (h : s.length ≤ n) :
    Except Error (Reading Unit n) :=
  match hs : skipSpaces s with
  | [] => .error .endInValue
  | c :: rest =>
    have lt := lt_of_skipSpaces hs
    match skipPart stack c rest with
    | .error e => .error e
    | .ok (.done rest' le) => .ok ⟨(), rest', Nat.lt_of_lt_of_le (Nat.lt_of_le_of_lt le lt) h⟩
    | .ok (.value stack rest' le) =>
      skipFrom n stack rest' (Nat.le_trans (Nat.le_trans le (Nat.le_of_lt lt)) h)
termination_by s.length
decreasing_by exact Nat.lt_of_le_of_lt le lt

/-- Passes over a value. -/
def skip : Reader Unit := fun s => skipFrom s.length [] s (length_le_self s)

end VersionInfo.Json
