import VersionInfo.Json.StringText

/-!
# Arrays and objects of JSON text

`nextElement` and `nextKey` say what stands next inside brackets: their end, or another part.
`elements` and `members` read all parts in turn and carry a state along, which each part changes.
-/

namespace VersionInfo.Json

/-- The bound of a reading that passes spaces, one character and spaces again, as between members.
-/
theorem le_of_skipSpaces_twice {s t rest : List Char} {c d : Char} (h : skipSpaces s = c :: t)
    (h' : skipSpaces t = d :: rest) : (d :: rest).length ≤ s.length :=
  Nat.le_trans (le_of_skipSpaces h') (Nat.le_of_lt (lt_of_skipSpaces h))

/-! ## Arrays -/

/-- What stands next inside an array. -/
inductive NextElement (n : Nat) where
  /-- The closing bracket. -/
  | close (rest : List Char) (lt : rest.length < n)
  /-- An element. -/
  | element (rest : List Char) (le : rest.length ≤ n)

/-- Finds the closing bracket or the next element, past a comma unless the element is the first. -/
def nextElement (first : Bool) (s : List Char) : Except Error (NextElement s.length) :=
  match h : skipSpaces s with
  | [] => .error .endInList
  | c :: rest =>
    if c = ']' then .ok (.close rest (lt_of_skipSpaces h))
    else if first then .ok (.element (c :: rest) (le_of_skipSpaces h))
    else if c = ',' then
      match h' : skipSpaces rest with
      | [] => .error .endInValue
      | d :: rest' =>
        if d = ']' then .error .trailingComma
        else .ok (.element (d :: rest') (le_of_skipSpaces_twice h h'))
    else .error .expectedListCommaOrEnd

/-- Reads the elements up to the closing bracket. -/
def elementsFrom {σ : Type} (step : σ → Reader σ) (n : Nat) (first : Bool) (state : σ)
    (s : List Char) (h : s.length ≤ n) : Except Error (Reading σ n) :=
  match nextElement first s with
  | .error e => .error e
  | .ok (.close rest lt) => .ok ⟨state, rest, Nat.lt_of_lt_of_le lt h⟩
  | .ok (.element s' le) =>
    match step state s' with
    | .error e => .error e
    | .ok r => elementsFrom step n false r.value r.rest (by have := r.lt; omega)
termination_by s.length
decreasing_by
  have := r.lt
  omega

/-- Reads an array whose opening bracket is the first character. -/
def elements {σ : Type} (step : σ → Reader σ) (state : σ) : Reader σ
  | [] => .error .endInList
  | _ :: s => elementsFrom step (s.length + 1) true state s (length_le_succ s)

/-! ## Objects -/

/-- What stands next inside an object. -/
inductive NextKey (n : Nat) where
  /-- The closing brace. -/
  | close (rest : List Char) (lt : rest.length < n)
  /-- A key, which is read already. -/
  | key (read : Reading String n)

/-- Finds the closing brace or the next key, past a comma unless the key is the first. -/
def nextKey (first : Bool) (s : List Char) : Except Error (NextKey s.length) :=
  match h : skipSpaces s with
  | [] => .error .endInObject
  | c :: rest =>
    if c = '\x7d' then .ok (.close rest (lt_of_skipSpaces h))
    else if first then
      if c = '"' then (stringBody (c :: rest)).map fun r => .key (r.widen (le_of_skipSpaces h))
      else .error .keyMustBeString
    else if c = ',' then
      match h' : skipSpaces rest with
      | [] => .error .endInValue
      | d :: rest' =>
        if d = '"' then
          (stringBody (d :: rest')).map fun r => .key (r.widen (le_of_skipSpaces_twice h h'))
        else if d = '\x7d' then .error .trailingComma
        else .error .keyMustBeString
    else .error .expectedObjectCommaOrEnd

/-- Reads the colon after a key. -/
def colon : Reader Unit := fun s =>
  match h : skipSpaces s with
  | [] => .error .endInObject
  | c :: rest =>
    if c = ':' then .ok ⟨(), rest, lt_of_skipSpaces h⟩ else .error .expectedColon

/-- Reads the members up to the closing brace; `step` reads what follows a key. -/
def membersFrom {σ : Type} (step : σ → String → Reader σ) (n : Nat) (first : Bool) (state : σ)
    (s : List Char) (h : s.length ≤ n) : Except Error (Reading σ n) :=
  match nextKey first s with
  | .error e => .error e
  | .ok (.close rest lt) => .ok ⟨state, rest, Nat.lt_of_lt_of_le lt h⟩
  | .ok (.key key) =>
    match step state key.value key.rest with
    | .error e => .error e
    | .ok r => membersFrom step n false r.value r.rest (by have := key.lt; have := r.lt; omega)
termination_by s.length
decreasing_by
  have := key.lt
  have := r.lt
  omega

/-- Reads an object whose opening brace is the first character. -/
def members {σ : Type} (step : σ → String → Reader σ) (state : σ) : Reader σ
  | [] => .error .endInObject
  | _ :: s => membersFrom step (s.length + 1) true state s (length_le_succ s)

end VersionInfo.Json
