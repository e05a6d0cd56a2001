import VersionInfo.Text.Extending
import VersionInfo.Text.Hexadecimal
import VersionInfo.Text.Unprintable

/-!
# Quoted text in messages

A message shows a text between double quotes. The quote, the backslash and the common controls
have a short escape; a character that extends the one before, or has no printed form, is shown by
its code point in hexadecimal; every other character stands for itself.
-/

namespace VersionInfo.Text

/-- The shown form of one character. -/
def shown (c : Char) : List Char :=
  match c with
  | '"' => ['\\', '"']
  | '\\' => ['\\', '\\']
  | '\x00' => ['\\', '0']
  | '\t' => ['\\', 't']
  | '\r' => ['\\', 'r']
  | '\n' => ['\\', 'n']
  | c =>
    if 0x20 ≤ c.toNat ∧ c.toNat < 0x7f then [c]
    else if extending.contains c || unprintable.contains c then
      ['\\', 'u', '\x7b'] ++ hex c.toNat ++ ['\x7d']
    else [c]

/-- The text between quotes, as messages show it. -/
def quoted (s : String) : String :=
  String.ofList ('"' :: s.toList.flatMap shown ++ ['"'])

end VersionInfo.Text
