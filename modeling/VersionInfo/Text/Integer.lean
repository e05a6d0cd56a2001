/-!
# Decimal text of integers

`writeInt` is the shortest decimal text with a `-` in front of a negative number, `writePadded` one
of a fixed width. `readInt` takes one optional sign and then one or more ASCII digits, any number of
leading zeros among them.

* `readInt_writeInt`: what is written is read back.
-/

namespace VersionInfo.Text

/-- The decimal digits of `n`. -/
def writeNat (n : Nat) : List Char := Nat.toDigits 10 n

/-- The decimal digits of `n`, after a `-` when it is negative. -/
def writeInt : Int → List Char
  | .ofNat n => writeNat n
  | .negSucc n => '-' :: writeNat (n + 1)

/-- The decimal digits of `n`, with leading zeros up to `width` of them. -/
def writePadded (width n : Nat) : List Char :=
  List.replicate (width - (writeNat n).length) '0' ++ writeNat n

/-- The number that a non-empty run of digits denotes. -/
def readNat (cs : List Char) : Option Nat :=
  if cs ≠ [] ∧ cs.all Char.isDigit then some (Nat.ofDigitChars 10 cs 0) else none

/-- The number that an optional sign and a non-empty run of digits denote. -/
def readInt : List Char → Option Int
  | '-' :: cs => (readNat cs).map fun n => -(n : Int)
  | '+' :: cs => (readNat cs).map fun n => (n : Int)
  | cs => (readNat cs).map fun n => (n : Int)

/-! ## Lemmas -/

theorem writeNat_ne_nil (n : Nat) : writeNat n ≠ [] := Nat.toDigits_ne_nil

theorem isDigit_of_mem_writeNat {n : Nat} {c : Char} (h : c ∈ writeNat n) : c.isDigit = true :=
  Nat.isDigit_of_mem_toDigits (by decide) (by decide) h

/-- A written number starts with a digit, so a sign in front of it is told from the number. -/
theorem exists_digit_writeNat (n : Nat) :
    ∃ c more, writeNat n = c :: more ∧ c.isDigit = true := by
  obtain ⟨c, more, written⟩ := List.exists_cons_of_ne_nil (writeNat_ne_nil n)
  have mem : c ∈ writeNat n := by
    rw [written]
    exact List.mem_cons_self
  exact ⟨c, more, written, isDigit_of_mem_writeNat mem⟩

/-- A written integer has only digits and a minus sign, none of which needs escaping. -/
theorem eq_or_isDigit_of_mem_writeInt {n : Int} {c : Char} (h : c ∈ writeInt n) :
    c = '-' ∨ c.isDigit = true := by
  cases n with
  | ofNat n => exact Or.inr (isDigit_of_mem_writeNat h)
  | negSucc n => exact (List.mem_cons.mp h).imp_right isDigit_of_mem_writeNat

theorem ofDigitChars_writeNat (n : Nat) : Nat.ofDigitChars 10 (writeNat n) 0 = n :=
  Nat.ofDigitChars_ten_toDigits

theorem readNat_writeNat (n : Nat) : readNat (writeNat n) = some n := by
  have digits : (writeNat n).all Char.isDigit = true :=
    List.all_eq_true.mpr fun _ h => isDigit_of_mem_writeNat h
  rw [readNat, if_pos ⟨writeNat_ne_nil n, digits⟩, ofDigitChars_writeNat]

/-- No zero leads further digits. -/
theorem eq_zero_of_head_writeNat {n : Nat} (h : (writeNat n).head? = some '0') : n = 0 := by
  induction n using Nat.strongRecOn with
  | ind n ih =>
    unfold writeNat at h
    rw [Nat.toDigits_eq_if (by decide)] at h
    split at h
    · rename_i small
      have digits : ∀ d < 10, Nat.digitChar d = '0' → d = 0 := by decide
      exact digits n small (Option.some.inj h)
    · obtain ⟨c, more, written⟩ := List.exists_cons_of_ne_nil (writeNat_ne_nil (n / 10))
      have head : (writeNat (n / 10)).head? = some '0' := by
        rw [writeNat] at written
        rw [written] at h
        rwa [writeNat, written]
      have zero := ih (n / 10) (by omega) head
      omega

/-- The digits of a number are what stands in front of the first character that is no digit. -/
theorem span_writeNat (n : Nat) {rest : List Char}
    (h : ∀ c, rest.head? = some c → c.isDigit = false) :
    (writeNat n ++ rest).takeWhile Char.isDigit = writeNat n ∧
      (writeNat n ++ rest).dropWhile Char.isDigit = rest := by
  have digits : ∀ c ∈ writeNat n, c.isDigit = true := fun _ hc => isDigit_of_mem_writeNat hc
  rw [List.takeWhile_append_of_pos digits, List.dropWhile_append_of_pos digits]
  cases rest with
  | nil => exact ⟨List.append_nil _, rfl⟩
  | cons c rest =>
    have stop : ¬ c.isDigit = true := by rw [h c rfl]; exact Bool.false_ne_true
    rw [List.takeWhile_cons_of_neg stop, List.dropWhile_cons_of_neg stop]
    exact ⟨List.append_nil _, rfl⟩

theorem readInt_of_all_digits {cs : List Char} (h : cs.all Char.isDigit = true) :
    readInt cs = (readNat cs).map fun n => (n : Int) := by
  match cs with
  | [] => rfl
  | c :: rest =>
    simp only [List.all_cons, Bool.and_eq_true] at h
    unfold readInt
    split
    · rename_i heq
      cases heq
      exact absurd h.1 (by decide)
    · rename_i heq
      cases heq
      exact absurd h.1 (by decide)
    · rfl

/-- A written integer is read back, with its sign. -/
theorem readInt_writeInt : ∀ i : Int, readInt (writeInt i) = some i
  | .ofNat n => by
    have digits : (writeNat n).all Char.isDigit = true :=
      List.all_eq_true.mpr fun _ h => isDigit_of_mem_writeNat h
    simp [writeInt, readInt_of_all_digits digits, readNat_writeNat]
  | .negSucc n => by
    rw [writeInt, readInt, readNat_writeNat]
    rfl

end VersionInfo.Text
