import VersionInfo.Json.Number
import VersionInfo.Proofs.Json.Run

/-!
# Integers are read back

A written integer has no leading zero, and what may follow a value in a written text does not go on
a number. So its digits are read as they were written, and no fraction or exponent is found.

* `run_number`: an integer within the range of JSON text is read back.
-/

namespace VersionInfo.Json

open Text (writeNat writeInt)

/-- What may follow a value in a text: nothing, a comma, a closing bracket or a space. -/
def Ends (rest : List Char) : Prop :=
  ∀ c, rest.head? = some c → c = ',' ∨ c = ']' ∨ c = '\x7d' ∨ isSpace c = true

theorem ends_nil : Ends [] := nofun

/-- A number may stand before the next element or member. -/
theorem ends_comma (rest : List Char) : Ends (',' :: rest) := by
  rintro _ ⟨⟩
  exact Or.inl rfl

theorem ends_bracket (rest : List Char) : Ends (']' :: rest) := by
  rintro _ ⟨⟩
  exact Or.inr (Or.inl rfl)

theorem ends_brace (rest : List Char) : Ends ('\x7d' :: rest) := by
  rintro _ ⟨⟩
  exact Or.inr (Or.inr (Or.inl rfl))

theorem ends_space {c : Char} (h : isSpace c = true) (rest : List Char) : Ends (c :: rest) := by
  rintro _ ⟨⟩
  exact Or.inr (Or.inr (Or.inr h))

variable {rest : List Char}

/-! ## The parts of a numeral -/

theorem eq_of_isSpace {c : Char} (h : isSpace c = true) :
    c = ' ' ∨ c = '\n' ∨ c = '\t' ∨ c = '\r' := by
  simpa only [isSpace, Bool.or_eq_true, beq_iff_eq, or_assoc] using h

/-- What goes on a number is nothing that may follow a value. -/
theorem Ends.cases {P : Char → Prop} (h : Ends rest)
    (all : ∀ c ∈ [',', ']', '\x7d', ' ', '\n', '\t', '\r'], P c) (c : Char)
    (head : rest.head? = some c) : P c := by
  refine all c ?_
  rcases h c head with rfl | rfl | rfl | space
  · simp
  · simp
  · simp
  · rcases eq_of_isSpace space with rfl | rfl | rfl | rfl <;> simp

/-- No digit follows a number that ends, so the reader takes exactly the digits that were written.
-/
theorem Ends.not_digit (h : Ends rest) : ∀ c, rest.head? = some c → c.isDigit = false :=
  h.cases (by simp)

/-- The digits of a written number are read up to its end. -/
theorem digitRun_written (n : Nat) (h : Ends rest) :
    digitRun (writeNat n ++ rest) = .ok (writeNat n, rest) := by
  obtain ⟨digits, after⟩ := Text.span_writeNat n h.not_digit
  obtain ⟨c, more, written, digit⟩ := Text.exists_digit_writeNat n
  rw [written, List.cons_append] at digits after ⊢
  rw [digitRun, if_pos digit, digits, after]

theorem fraction_of_ends (h : Ends rest) : fraction rest = .ok ([], rest) := by
  unfold fraction
  split
  · exact absurd rfl (h.cases (P := fun c => c ≠ '.') (by simp) _ rfl)
  · rfl

theorem exponent_of_ends (h : Ends rest) : exponent rest = .ok (none, rest) := by
  unfold exponent
  split
  · rename_i c more
    have other : ¬ (c = 'e' ∨ c = 'E') :=
      h.cases (P := fun c => ¬ (c = 'e' ∨ c = 'E')) (by simp) c rfl
    rw [if_neg other]
  · rfl

/-- A written natural number is read as a whole number, without fraction and exponent. -/
theorem unsigned_written (negative : Bool) (n : Nat) (h : Ends rest) :
    ∃ r, unsigned negative (writeNat n ++ rest) = .ok r ∧ r.value = ⟨negative, n, 0, true⟩ ∧
      r.rest = rest := by
  have noZero : ¬ ((writeNat n).head? = some '0' ∧ 1 < (writeNat n).length) := by
    rintro ⟨zero, long⟩
    rw [Text.eq_zero_of_head_writeNat zero] at long
    exact absurd long (by decide)
  unfold unsigned
  split
  · rename_i failed
    rw [digitRun_written n h] at failed
    cases failed
  · rename_i found
    rw [digitRun_written n h] at found
    cases found
    rw [if_neg noZero]
    split
    · rename_i failed
      rw [fraction_of_ends h] at failed
      cases failed
    · rename_i found
      rw [fraction_of_ends h] at found
      cases found
      split
      · rename_i failed
        rw [exponent_of_ends h] at failed
        cases failed
      · rename_i found
        rw [exponent_of_ends h] at found
        cases found
        refine ⟨_, rfl, ?_, rfl⟩
        unfold Numeral.ofParts
        rw [List.append_nil, Text.ofDigitChars_writeNat]
        rfl

/-! ## Integers -/

theorem numeral_of_head {s : List Char} (h : s.head? ≠ some '-') :
    numeral s = unsigned false s := by
  unfold numeral
  split
  · exact absurd rfl h
  · rfl

/-- A written integer is read with its sign and its absolute value. -/
theorem numeral_written (n : Int) (h : Ends rest) :
    ∃ r, numeral (writeInt n ++ rest) = .ok r ∧
      r.value = ⟨decide (n < 0), n.natAbs, 0, true⟩ ∧ r.rest = rest := by
  cases n with
  | ofNat n =>
    have positive : decide (Int.ofNat n < 0) = false :=
      decide_eq_false (Int.not_lt.mpr (Int.natCast_nonneg n))
    have head : (writeNat n ++ rest).head? ≠ some '-' := by
      obtain ⟨c, more, written, digit⟩ := Text.exists_digit_writeNat n
      rw [written]
      rintro ⟨⟩
      exact absurd digit (by decide)
    rw [positive]
    change ∃ r, numeral (writeNat n ++ rest) = _ ∧ _
    rw [numeral_of_head head]
    exact unsigned_written false n h
  | negSucc n =>
    have negative : decide (Int.negSucc n < 0) = true := decide_eq_true (Int.negSucc_lt_zero n)
    obtain ⟨r, read, value, left⟩ := unsigned_written true (n + 1) h
    rw [negative]
    change ∃ r, numeral ('-' :: (writeNat (n + 1) ++ rest)) = _ ∧ _
    refine ⟨r.widen (Nat.le_succ _), ?_, value, left⟩
    rw [numeral, read]
    rfl

/-- The integers of JSON text. -/
def IntegerRange (n : Int) : Prop := -greatestNegated ≤ n ∧ n ≤ greatestInteger

/-- A numeral without fraction and exponent is an integer when it is in range: the reader then makes
no floating point number of it. -/
theorem number?_integer {n : Int} (h : IntegerRange n) :
    (⟨decide (n < 0), n.natAbs, 0, true⟩ : Numeral).number? = some (.integer n) := by
  obtain ⟨least, greatest⟩ := h
  unfold Numeral.number?
  by_cases negative : n < 0
  · have size : 0 < n.natAbs ∧ n.natAbs ≤ greatestNegated := by omega
    have value : -(n.natAbs : Int) = n := by omega
    dsimp only
    rw [if_neg (by simp [negative]), if_pos ⟨rfl, decide_eq_true negative, size⟩, value]
  · have size : n.natAbs ≤ greatestInteger := by omega
    have value : (n.natAbs : Int) = n := by omega
    dsimp only
    rw [if_pos ⟨rfl, decide_eq_false negative, size⟩, value]

/-- **A written integer is read back**, within the range of JSON text. -/
theorem run_number {n : Int} (range : IntegerRange n) (h : Ends rest) :
    number.run (writeInt n ++ rest) = some (.integer n, rest) := by
  obtain ⟨r, read, value, left⟩ := numeral_written n h
  have denotes : r.value.number? = some (.integer n) := by
    rw [value]
    exact number?_integer range
  refine outcome_eq_some_iff.mpr ⟨r.map fun _ => .integer n, ?_, rfl, left⟩
  unfold number
  rw [read]
  dsimp only
  rw [denotes]

end VersionInfo.Json
