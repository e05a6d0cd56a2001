import VersionInfo.Json.Error
import VersionInfo.Text.Quoted

/-!
# Why generation fails

`GenerationError` is `GenerateError`. Each cause carries what its message shows: names as they are,
raw values quoted.
-/

namespace VersionInfo

/-- A cause of a failed generation. -/
inductive GenerationError where
  /-- No language has this selector. -/
  | unsupportedLanguage (selector : String)
  /-- No field type has this tag. -/
  | invalidFieldType (field tag : String)
  /-- The value is no valid tick count. -/
  | malformedTicks (field value : String)
  /-- The value is neither true nor false. -/
  | malformedBoolean (field value : String)
  /-- The name is taken by an earlier field or a built-in member. -/
  | duplicateField (name : String)
  /-- The name is blank. -/
  | invalidFieldName (name : String)
  /-- A manifest's text cannot be read. -/
  | unreadable (cause : Json.Error)
deriving DecidableEq

open Text (quoted)

/-- The text that tells a caller the cause. -/
def GenerationError.message : GenerationError → String
  | unsupportedLanguage selector => "Unsupported code language: " ++ quoted selector
  | invalidFieldType field tag =>
    "Field " ++ field ++ " has unsupported type " ++ quoted tag ++
      "; expected String, Boolean or Ticks"
  | malformedTicks field value =>
    "Field " ++ field ++ " has malformed ticks value " ++ quoted value
  | malformedBoolean field value =>
    "Field " ++ field ++ " has malformed boolean value " ++ quoted value
  | duplicateField name => "Duplicate field: " ++ name
  | invalidFieldName name => "Invalid field name: " ++ quoted name
  | unreadable cause => "Serialization error: " ++ cause.message

end VersionInfo
