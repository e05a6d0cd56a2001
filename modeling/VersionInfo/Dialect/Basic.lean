import VersionInfo.Language

/-!
# Dialects

The three languages are written by one set of rules. A dialect says how each piece is spelled and
where the namespace and the conditional directives stand.

* `cSharp`, `fSharp`, `visualBasic` are the three dialects, `CSHARP`, `FSHARP` and `VISUAL_BASIC`,
  and `Dialect.of` finds the one of a language, as `for_language` does.
-/

namespace VersionInfo

/-- How a string literal is written. -/
inductive StringSyntax where
  /-- Quotes, backslashes and controls are escaped by a backslash. -/
  | escaped
  /-- A quote is doubled; a control is joined to the literal by its number. -/
  | doubled
deriving DecidableEq

/-- Where the namespace is written. -/
inductive NamespacePlacement where
  /-- In front of the attributes, always, with a name to fall back to. It is not closed. -/
  | wholeFile (fallback : String)
  /-- Around the type, only if it is asked for. -/
  | aroundType (close : String)
deriving DecidableEq

/-- How the annotations of the type are guarded. -/
inductive GuardStyle where
  /-- One condition for each annotation, then the header of the type. -/
  | stacked
  /-- One chain of conditions, with the header in each branch. -/
  | chained
deriving DecidableEq

/-- Where the type of a member is written. -/
inductive TypePlacement where
  /-- In front of the name. -/
  | beforeName
  /-- Behind the name. -/
  | asClause
  /-- Nowhere. -/
  | omitted
deriving DecidableEq

/-- The conditional directives. -/
structure Conditionals where
  ifOpen : String
  /-- Ends the line of a condition. -/
  thenPart : String
  elseIfOpen : String
  elseLine : String
  endLine : String
  orOperator : String
deriving DecidableEq

/-- How a member is declared. -/
structure MemberStyle where
  indent : String
  constantModifiers : String
  runtimeModifiers : String
  terminator : String
  typePlacement : TypePlacement
  stringType : String
  booleanType : String
  dateTimeType : String
deriving DecidableEq

/-- The spelling of one language. -/
structure Dialect where
  language : Language
  comment : String
  /-- What stands around the code of a diagnostic to suppress it. -/
  warningOpen : String
  warningClose : String
  /-- Leads a name that is looked up from the global namespace. -/
  global : String
  assemblyAttributeOpen : String
  attributeOpen : String
  attributeClose : String
  /-- The line that ends the attributes of the assembly, if there must be one. -/
  attributeBlockEnd : Option String
  namespaceOpen : String
  namespaceOpenEnd : String
  namespacePlacement : NamespacePlacement
  guard : GuardStyle
  conditionals : Conditionals
  typeHeader : String
  typeClose : String
  member : MemberStyle
  newDateTime : String
  trueLiteral : String
  falseLiteral : String
  stringSyntax : StringSyntax
deriving DecidableEq

namespace Dialect

/-- The spelling of C#. -/
def cSharp : Dialect where
  language := .cSharp
  comment := "//"
  warningOpen := "#pragma warning disable "
  warningClose := ""
  global := "global::"
  assemblyAttributeOpen := "[assembly: "
  attributeOpen := "["
  attributeClose := "]"
  attributeBlockEnd := none
  namespaceOpen := "namespace "
  namespaceOpenEnd := " \x7b"
  namespacePlacement := .aroundType "\x7d"
  guard := .stacked
  conditionals := ⟨"#if ", "", "#elif ", "#else", "#endif", " || "⟩
  typeHeader := "internal static partial class ThisAssembly \x7b"
  typeClose := "\x7d"
  member :=
    ⟨"    ", "internal const ", "internal static readonly ", ";", .beforeName, "string", "bool",
      "global::System.DateTime"⟩
  newDateTime := "new global::System.DateTime"
  trueLiteral := "true"
  falseLiteral := "false"
  stringSyntax := .escaped

/-- The spelling of F#. -/
def fSharp : Dialect where
  language := .fSharp
  comment := "//"
  warningOpen := "#nowarn \""
  warningClose := "\""
  global := "global."
  assemblyAttributeOpen := "[<assembly: "
  attributeOpen := "[<"
  attributeClose := ">]"
  attributeBlockEnd := some "do()"
  namespaceOpen := "namespace "
  namespaceOpenEnd := ""
  namespacePlacement := .wholeFile "AssemblyInfo"
  guard := .stacked
  conditionals := ⟨"#if ", "", "#elif ", "#else", "#endif", " || "⟩
  typeHeader := "type internal ThisAssembly() ="
  typeClose := "do()"
  member :=
    ⟨"  ", "static member internal ", "static member internal ", "", .omitted, "", "", ""⟩
  newDateTime := "new global.System.DateTime"
  trueLiteral := "true"
  falseLiteral := "false"
  stringSyntax := .escaped

/-- The spelling of Visual Basic. -/
def visualBasic : Dialect where
  language := .visualBasic
  comment := "'"
  warningOpen := "#Disable Warning "
  warningClose := ""
  global := "Global."
  assemblyAttributeOpen := "<Assembly: "
  attributeOpen := "<"
  attributeClose := ">"
  attributeBlockEnd := none
  namespaceOpen := "Namespace "
  namespaceOpenEnd := ""
  namespacePlacement := .aroundType "End Namespace"
  guard := .chained
  conditionals := ⟨"#If ", " Then", "#ElseIf ", "#Else", "#End If", "  Or  "⟩
  typeHeader := "Partial Friend NotInheritable Class ThisAssembly"
  typeClose := "End Class"
  member :=
    ⟨"    ", "Friend Const ", "Friend Shared ReadOnly ", "", .asClause, "String", "Boolean",
      "Date"⟩
  newDateTime := "New Date"
  trueLiteral := "True"
  falseLiteral := "False"
  stringSyntax := .doubled

/-- The dialect of a language. -/
def of : Language → Dialect
  | .cSharp => cSharp
  | .fSharp => fSharp
  | .visualBasic => visualBasic

end Dialect

end VersionInfo
