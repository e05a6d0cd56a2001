import Mathlib.Tactic.Ring
import VersionInfo.Text.Integer

/-!
# Numerals

A numeral is one sign or none, then one or more of the ten ASCII digits. Each digit counts ten times
as much as it would one place further back, so zeros in front count nothing.

* `readInt_eq_some_iff`: exactly the numerals are read, as what they count.
-/

namespace VersionInfo.Text

/-- What a run of digits counts, place by place. -/
def placeValue : List Char → Nat
  | [] => 0
  | c :: cs => (c.toNat - '0'.toNat) * 10 ^ cs.length + placeValue cs

/-- One or more of the ten digits. -/
def DigitRun (cs : List Char) : Prop := cs ≠ [] ∧ ∀ c ∈ cs, '0' ≤ c ∧ c ≤ '9'

/-- `cs` is a numeral of `n`. -/
inductive Numeral : List Char → Int → Prop
  | unsigned {ds : List Char} : DigitRun ds → Numeral ds (placeValue ds)
  | plus {ds : List Char} : DigitRun ds → Numeral ('+' :: ds) (placeValue ds)
  | minus {ds : List Char} : DigitRun ds → Numeral ('-' :: ds) (-placeValue ds)

theorem isDigit_iff {c : Char} : c.isDigit = true ↔ '0' ≤ c ∧ c ≤ '9' := by
  simp only [Char.isDigit, Bool.and_eq_true, decide_eq_true_eq]
  rfl

theorem digitRun_iff {cs : List Char} : DigitRun cs ↔ cs ≠ [] ∧ cs.all Char.isDigit = true := by
  unfold DigitRun
  simp only [List.all_eq_true, isDigit_iff]

/-- Reading from the front multiplies what was read by ten for each digit. -/
theorem ofDigitChars_eq_placeValue (cs : List Char) (n : Nat) :
    Nat.ofDigitChars 10 cs n = n * 10 ^ cs.length + placeValue cs := by
  induction cs generalizing n with
  | nil => simp [placeValue]
  | cons c cs ih =>
    rw [Nat.ofDigitChars_cons, ih, placeValue, List.length_cons, pow_succ]
    ring

/-- A natural number is read from runs of digits only, and is their value. -/
theorem readNat_eq_some_iff {cs : List Char} {n : Nat} :
    readNat cs = some n ↔ DigitRun cs ∧ n = placeValue cs := by
  rw [readNat, ofDigitChars_eq_placeValue, Nat.zero_mul, Nat.zero_add]
  by_cases run : DigitRun cs
  · rw [if_pos (digitRun_iff.mp run), Option.some_inj, eq_comm, and_iff_right run]
  · rw [if_neg (digitRun_iff.not.mp run)]
    exact iff_of_false (Option.some_ne_none n).symm fun h => run h.1

theorem readNat_of_digitRun {ds : List Char} (h : DigitRun ds) :
    readNat ds = some (placeValue ds) := readNat_eq_some_iff.mpr ⟨h, rfl⟩

/-- What is read as an integer is a numeral for it: an optional sign and digits. -/
theorem numeral_of_readInt {cs : List Char} {n : Int} (h : readInt cs = some n) : Numeral cs n := by
  unfold readInt at h
  split at h <;> obtain ⟨i, read, rfl⟩ := Option.map_eq_some_iff.mp h <;>
    obtain ⟨m, digits, ⟨⟩⟩ := Option.bind_eq_some_iff.mp read <;>
    obtain ⟨run, rfl⟩ := readNat_eq_some_iff.mp digits
  · exact .minus run
  · exact .plus run
  · exact .unsigned run

/-- **Exactly the numerals are read**, as what they count. -/
theorem readInt_eq_some_iff {cs : List Char} {n : Int} : readInt cs = some n ↔ Numeral cs n := by
  refine ⟨numeral_of_readInt, fun h => ?_⟩
  cases h with
  | unsigned run =>
    rw [readInt_of_all_digits (digitRun_iff.mp run).2, readNat_of_digitRun run]
    rfl
  | plus run =>
    rw [readInt, readNat_of_digitRun run]
    rfl
  | minus run =>
    rw [readInt, readNat_of_digitRun run]
    rfl

end VersionInfo.Text
