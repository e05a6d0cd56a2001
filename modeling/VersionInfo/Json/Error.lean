import VersionInfo.Decimal.Shortest
import VersionInfo.Text.Quoted

/-!
# Why JSON text cannot be read

A cause belongs to one of three categories: the text is no JSON, it ends too early, or its data do
not fit what is read. `Error.message` says what the cause is.

Out of scope: where reading stopped. What is printed has ` at line L column C` behind the message,
which neither `Error` nor `Error.message` carries.
-/

namespace VersionInfo.Json

open Decimal (Binary64 NumberFormat)
open Text (quoted writeInt)

/-- Numbers with a fraction are positional from 0.00001 up to 16 digits before the point. -/
def numberFormat : NumberFormat := ⟨-4, 16⟩

/-- What a text holds at a place where something else is expected. -/
inductive Found where
  | null
  | boolean (b : Bool)
  | integer (n : Int)
  | float (x : Binary64)
  | string (s : String)
  | sequence
  | map
deriving DecidableEq

/-- How a message names what was found. -/
def Found.describe : Found → String
  | null => "null"
  | boolean b => "boolean `" ++ (if b then "true" else "false") ++ "`"
  | integer n => "integer `" ++ String.ofList (writeInt n) ++ "`"
  | float x => "floating point `" ++ String.ofList (numberFormat.text x) ++ "`"
  | string s => "string " ++ quoted s
  | sequence => "sequence"
  | map => "map"

/-- A cause of a failed reading. -/
inductive Error where
  /-- The text ends where a value is expected or inside a literal or number. -/
  | endInValue
  /-- The text ends inside an array. -/
  | endInList
  /-- The text ends inside an object. -/
  | endInObject
  /-- The text ends inside a string. -/
  | endInString
  | expectedColon
  | expectedListCommaOrEnd
  | expectedObjectCommaOrEnd
  | expectedValue
  /-- A misspelt `null`, `true` or `false`. -/
  | expectedIdent
  | invalidEscape
  | invalidNumber
  | numberOutOfRange
  | controlCharacter
  | keyMustBeString
  | loneSurrogate
  /-- A high surrogate without a second escape. -/
  | endOfHexEscape
  | trailingComma
  | trailingCharacters
  /-- Arrays and objects are nested too deeply. -/
  | recursionLimit
  | invalidType (found : Found) (expected : String)
  /-- The type fits, the value does not. -/
  | invalidValue (found : Found) (expected : String)
  /-- An array ends before a required element. -/
  | invalidLength (length : Nat) (expected : String)
  | unknownVariant (name : String) (known : List String)
  | missingField (key : String)
  | duplicateField (key : String)
deriving DecidableEq

/-- The three kinds of causes. -/
inductive Category where
  /-- The text is no JSON. -/
  | syntactic
  /-- The data do not fit. -/
  | data
  /-- The text ends too early. -/
  | eof
deriving DecidableEq

namespace Error

/-- The kind of a cause. -/
def category : Error → Category
  | endInValue | endInList | endInObject | endInString => .eof
  | invalidType .. | invalidValue .. | invalidLength .. | unknownVariant .. | missingField _
  | duplicateField _ => .data
  | _ => .syntactic

/-- A list of names, each between backquotes. -/
def ticked (names : List String) : String :=
  ", ".intercalate (names.map fun name => "`" ++ name ++ "`")

/-- The text that tells the cause. -/
def message : Error → String
  | endInValue => "EOF while parsing a value"
  | endInList => "EOF while parsing a list"
  | endInObject => "EOF while parsing an object"
  | endInString => "EOF while parsing a string"
  | expectedColon => "expected `:`"
  | expectedListCommaOrEnd => "expected `,` or `]`"
  | expectedObjectCommaOrEnd => "expected `,` or `\x7d`"
  | expectedValue => "expected value"
  | expectedIdent => "expected ident"
  | invalidEscape => "invalid escape"
  | invalidNumber => "invalid number"
  | numberOutOfRange => "number out of range"
  | controlCharacter => "control character (\\u0000-\\u001F) found while parsing a string"
  | keyMustBeString => "key must be a string"
  | loneSurrogate => "lone leading surrogate in hex escape"
  | endOfHexEscape => "unexpected end of hex escape"
  | trailingComma => "trailing comma"
  | trailingCharacters => "trailing characters"
  | recursionLimit => "recursion limit exceeded"
  | invalidType found expected =>
    "invalid type: " ++ found.describe ++ ", expected " ++ expected
  | invalidValue found expected =>
    "invalid value: " ++ found.describe ++ ", expected " ++ expected
  | invalidLength length expected =>
    "invalid length " ++ toString length ++ ", expected " ++ expected
  | unknownVariant name known =>
    "unknown variant `" ++ name ++ "`, expected one of " ++ ticked known
  | missingField key => "missing field `" ++ key ++ "`"
  | duplicateField key => "duplicate field `" ++ key ++ "`"

end Error

end VersionInfo.Json
