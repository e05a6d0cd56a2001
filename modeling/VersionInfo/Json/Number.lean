import VersionInfo.Json.Reading

/-!
# Numbers of JSON text

A numeral is an optional `-`, digits without a leading zero, an optional fraction and an optional
exponent. One without fraction and exponent that fits 64 bits is an integer, except `-0`; all
others are floating point numbers, which must not be beyond the greatest.

* `number` reads a number, `skipNumber` passes over one of any size.
-/

namespace VersionInfo.Json

open Decimal (Binary64)

/-- A number of JSON text. -/
inductive Number where
  | integer (n : Int)
  | float (x : Binary64)
deriving DecidableEq

/-- The number as something found in place of another value. -/
def Number.found : Number → Found
  | integer n => .integer n
  | float x => .float x

/-- A number as it is written: its digits make a whole number, to be scaled by a power of ten. -/
structure Numeral where
  negative : Bool
  digits : Nat
  exponent : Int
  /-- Neither a fraction nor an exponent is written. -/
  whole : Bool
deriving DecidableEq

/-- Why characters are no numeral. -/
inductive NumeralFault where
  /-- The text ends where a digit is expected. -/
  | cutOff
  /-- Another character stands there, or a zero leads further digits. -/
  | malformed
deriving DecidableEq

/-- The digits at the start of a text, of which there is at least one, and the rest. -/
def digitRun (s : List Char) : Except NumeralFault (List Char × List Char) :=
  match s with
  | [] => .error .cutOff
  | c :: _ =>
    if c.isDigit then .ok (s.takeWhile Char.isDigit, s.dropWhile Char.isDigit)
    else .error .malformed

/-- A run of digits takes at least one character, so a reading of a number is shorter than its text.
-/
theorem length_lt_of_digitRun {s digits rest : List Char} (h : digitRun s = .ok (digits, rest)) :
    rest.length < s.length := by
  cases s with
  | nil => cases h
  | cons c s =>
    by_cases hc : c.isDigit = true
    · simp only [digitRun, hc, ↓reduceIte, Except.ok.injEq, Prod.mk.injEq] at h
      rw [← h.2]
      simp only [List.dropWhile_cons, hc, ↓reduceIte, List.length_cons]
      exact Nat.lt_succ_of_le (List.dropWhile_sublist _).length_le
    · simp [digitRun, hc] at h

/-- The digits after a point, none if no point stands there, and the rest. -/
def fraction (s : List Char) : Except NumeralFault (List Char × List Char) :=
  match s with
  | '.' :: rest => digitRun rest
  | _ => .ok ([], s)

/-- The power of ten after an `e`, if one stands there, and the rest. -/
def exponent (s : List Char) : Except NumeralFault (Option Int × List Char) :=
  match s with
  | c :: rest =>
    if c = 'e' ∨ c = 'E' then
      match rest with
      | '-' :: digits => (digitRun digits).map fun r => (some (-(Nat.ofDigitChars 10 r.1 0)), r.2)
      | '+' :: digits => (digitRun digits).map fun r => (some (Nat.ofDigitChars 10 r.1 0), r.2)
      | _ => (digitRun rest).map fun r => (some (Nat.ofDigitChars 10 r.1 0), r.2)
    else .ok (none, s)
  | [] => .ok (none, [])

theorem length_le_of_fraction {s digits rest : List Char} (h : fraction s = .ok (digits, rest)) :
    rest.length ≤ s.length := by
  unfold fraction at h
  split at h
  · exact Nat.le_succ_of_le (Nat.le_of_lt (length_lt_of_digitRun h))
  · cases h; exact Nat.le_refl _

theorem length_le_of_exponent {s rest : List Char} {e : Option Int}
    (h : exponent s = .ok (e, rest)) : rest.length ≤ s.length := by
  have run : ∀ {t : List Char} {f : List Char × List Char → Option Int},
      (digitRun t).map (fun r => (f r, r.2)) = .ok (e, rest) → rest.length < t.length := by
    intro t f h
    cases hd : digitRun t with
    | error => simp [hd, Except.map] at h
    | ok r =>
      simp only [hd, Except.map, Except.ok.injEq, Prod.mk.injEq] at h
      exact h.2 ▸ length_lt_of_digitRun hd
  unfold exponent at h
  split at h
  · split at h
    · split at h
      all_goals
        have := run h
        simp only [List.length_cons] at this ⊢
        omega
    · cases h; exact Nat.le_refl _
  · cases h; exact Nat.le_refl _

/-- The numeral of three parts. -/
def Numeral.ofParts (negative : Bool) (whole fraction : List Char) (exponent : Option Int) :
    Numeral :=
  ⟨negative, Nat.ofDigitChars 10 (whole ++ fraction) 0, exponent.getD 0 - fraction.length,
    fraction.isEmpty && exponent.isNone⟩

/-- The numeral without sign at the start of a text, and the rest. -/
def unsigned (negative : Bool) (s : List Char) : Except NumeralFault (Reading Numeral s.length) :=
  match hw : digitRun s with
  | .error e => .error e
  | .ok (whole, s₁) =>
    if whole.head? = some '0' ∧ 1 < whole.length then .error .malformed
    else
      match hf : fraction s₁ with
      | .error e => .error e
      | .ok (fraction, s₂) =>
        match he : exponent s₂ with
        | .error e => .error e
        | .ok (exponent, rest) =>
          .ok ⟨.ofParts negative whole fraction exponent, rest, by
            have := length_lt_of_digitRun hw
            have := length_le_of_fraction hf
            have := length_le_of_exponent he
            omega⟩

/-- The numeral at the start of a text. -/
def numeral : (s : List Char) → Except NumeralFault (Reading Numeral s.length)
  | '-' :: rest => (unsigned true rest).map fun r => r.widen (Nat.le_succ _)
  | s => unsigned false s

/-- The greatest integer of JSON text. -/
def greatestInteger : Nat := 18446744073709551615

/-- What the least integer of JSON text is the negative of. -/
def greatestNegated : Nat := 9223372036854775808

/-- The number that a numeral denotes, unless it is beyond the greatest. -/
def Numeral.number? (n : Numeral) : Option Number :=
  if n.whole = true ∧ n.negative = false ∧ n.digits ≤ greatestInteger then
    some (.integer n.digits)
  else if n.whole = true ∧ n.negative = true ∧ 0 < n.digits ∧ n.digits ≤ greatestNegated then
    some (.integer (-n.digits))
  else (Binary64.ofDecimal? n.negative n.digits n.exponent).map .float

/-- Reads a number. -/
def number : Reader Number := fun s =>
  match numeral s with
  | .error .cutOff => .error .endInValue
  | .error .malformed => .error .invalidNumber
  | .ok r =>
    match r.value.number? with
    | some n => .ok (r.map fun _ => n)
    | none => .error .numberOutOfRange

/-- Passes over a number of any size. -/
def skipNumber : Reader Unit := fun s =>
  match numeral s with
  | .error _ => .error .invalidNumber
  | .ok r => .ok (r.map fun _ => ())

/-- Whether a number starts with this character. -/
def startsNumber (c : Char) : Bool := c == '-' || c.isDigit

end VersionInfo.Json
