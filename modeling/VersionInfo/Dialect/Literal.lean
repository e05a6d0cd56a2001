import VersionInfo.Dialect.Basic
import VersionInfo.Field.Basic
import VersionInfo.Text.Hexadecimal
import VersionInfo.Text.Integer

/-!
# Literals

A string literal keeps its value on one line: controls and the two line separators of Unicode are
written by their number. A date is made from its tick count.

* `breaksLine`, `escapedChar`, `doubledChar`: `is_line_breaking`, and one character of
  `escaped_literal` and of `doubled_literal`.
* `stringLiteral`, `booleanLiteral`, `dateTimeLiteral`: `string_literal`, `bool_literal` and
  `date_time_literal`.
-/

namespace VersionInfo

/-- The control characters, and the line and paragraph separators. -/
def breaksLine (c : Char) : Bool :=
  c.toNat < 0x20 || (0x7f ≤ c.toNat && c.toNat ≤ 0x9f) || c.toNat == 0x2028 || c.toNat == 0x2029

/-- A character in a literal with backslash escapes. -/
def escapedChar (c : Char) : List Char :=
  match c with
  | '"' => ['\\', '"']
  | '\\' => ['\\', '\\']
  | '\n' => ['\\', 'n']
  | '\r' => ['\\', 'r']
  | '\t' => ['\\', 't']
  | c => if breaksLine c then '\\' :: 'u' :: Text.fourHex c.toNat else [c]

/-- Interrupts a literal to join a character to it, up to the number of the character. -/
def spliceOpen (global : String) : String := "\" & " ++ global ++ "Microsoft.VisualBasic.ChrW("

/-- Takes up an interrupted literal again, after the number of the character. -/
def spliceClose : String := ") & \""

/-- A character in a literal with doubled quotes. -/
def doubledChar (global : String) (c : Char) : List Char :=
  if c = '"' then ['"', '"']
  else if breaksLine c then
    (spliceOpen global).toList ++ Text.writeNat c.toNat ++ spliceClose.toList
  else [c]

namespace Dialect

/-- A character in a string literal of the dialect. -/
def literalChar (d : Dialect) : Char → List Char :=
  match d.stringSyntax with
  | .escaped => escapedChar
  | .doubled => doubledChar d.global

/-- The literal of a string. -/
def stringLiteral (d : Dialect) (s : String) : String :=
  String.ofList ('"' :: s.toList.flatMap d.literalChar ++ ['"'])

/-- The literal of a truth value. -/
def booleanLiteral (d : Dialect) (b : Bool) : String :=
  if b then d.trueLiteral else d.falseLiteral

/-- The expression for the UTC date of a tick count. -/
def dateTimeLiteral (d : Dialect) (t : Ticks) : String :=
  d.newDateTime ++ "(" ++ String.ofList (Text.writeInt t.toInt) ++ "L, " ++ d.global ++
    "System.DateTimeKind.Utc)"

/-- The literal of a field's value. -/
def literal (d : Dialect) : FieldValue → String
  | .string s => d.stringLiteral s
  | .boolean b => d.booleanLiteral b
  | .ticks t => d.dateTimeLiteral t

end Dialect

end VersionInfo
