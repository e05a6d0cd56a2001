/-!
# Hexadecimal text

Lower case digits. `fourHex` writes a number below 65536 with exactly four of them, `hexByte` a
byte with two, `hex` any number with as many as it needs; `readFourHex` takes
digits of either case.

* `readFourHex_fourHex`: what is written with four digits is read back.
-/

namespace VersionInfo.Text

/-- The digit for a value below 16. -/
def hexDigit (n : Nat) : Char := Nat.digitChar (n % 16)

/-- The value of a digit of either case. -/
def hexValue? (c : Char) : Option Nat :=
  if '0' ≤ c ∧ c ≤ '9' then some (c.toNat - '0'.toNat)
  else if 'a' ≤ c ∧ c ≤ 'f' then some (c.toNat - 'a'.toNat + 10)
  else if 'A' ≤ c ∧ c ≤ 'F' then some (c.toNat - 'A'.toNat + 10)
  else none

/-- The four low digits, with leading zeros. -/
def fourHex (n : Nat) : List Char :=
  [hexDigit (n / 4096), hexDigit (n / 256), hexDigit (n / 16), hexDigit n]

/-- The two digits of a byte. -/
def hexByte (b : UInt8) : List Char := [hexDigit (b.toNat / 16), hexDigit b.toNat]

/-- The digits of a number, without leading zeros. -/
def hex (n : Nat) : List Char := Nat.toDigits 16 n

/-- The number that four digits denote, the most significant first. -/
def readFourHex (a b c d : Char) : Option Nat := do
  return 4096 * (← hexValue? a) + 256 * (← hexValue? b) + 16 * (← hexValue? c) + (← hexValue? d)

/-! ## Lemmas -/

theorem hexValue?_hexDigit (n : Nat) : hexValue? (hexDigit n) = some (n % 16) := by
  have digits : ∀ d < 16, hexValue? (Nat.digitChar d) = some d := by decide
  exact digits (n % 16) (Nat.mod_lt n (by decide))

/-- Four digits are read as the number they were written for. Above `ffff` they would lose its
start. -/
theorem readFourHex_fourHex {n : Nat} (h : n < 65536) :
    readFourHex (hexDigit (n / 4096)) (hexDigit (n / 256)) (hexDigit (n / 16)) (hexDigit n) =
      some n := by
  have value : 4096 * (n / 4096 % 16) + 256 * (n / 256 % 16) + 16 * (n / 16 % 16) + n % 16 = n := by
    omega
  simp only [readFourHex, hexValue?_hexDigit, Option.bind_eq_bind, Option.bind_some, value]
  rfl

end VersionInfo.Text
