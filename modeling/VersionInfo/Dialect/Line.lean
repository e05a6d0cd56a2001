import VersionInfo.Dialect.Literal

/-!
# Lines

Each function writes one line of generated text in the spelling of a dialect: `if_line`,
`elif_line`, `assembly_attribute`, `generated_code_attribute`, `exclude_from_coverage_attribute`,
`warning_directive_line`, `namespace_line` and `member`.
-/

namespace VersionInfo

/-- The code of the diagnostic that generated text suppresses. -/
def suppressedDiagnostic : String := "CA2243"

/-- The symbols of the frameworks that know the annotation of generated code. -/
def frameworkSymbols : List String := ["NETSTANDARD", "NETFRAMEWORK", "NETCOREAPP"]

/-- The symbols of the frameworks that also know the annotation for coverage. -/
def modernFrameworkSymbols : List String :=
  ["NET40_OR_GREATER", "NETCOREAPP2_0_OR_GREATER", "NETSTANDARD2_0_OR_GREATER"]

/-- The comment at the head of a generated file. -/
def banner : List String :=
  ["------------------------------------------------------------------------------",
    " <auto-generated>",
    "     This code was generated by a tool.",
    "     Runtime Version:4.0.30319.42000",
    "",
    "     Changes to this file may cause incorrect behavior and will be lost if",
    "     the code is regenerated.",
    " </auto-generated>",
    "------------------------------------------------------------------------------"]

namespace Dialect

/-- The directive that suppresses the diagnostic. -/
def warningLine (d : Dialect) : String := d.warningOpen ++ suppressedDiagnostic ++ d.warningClose

/-- Any of some symbols is defined. -/
def condition (d : Dialect) (symbols : List String) : String :=
  d.conditionals.orOperator.intercalate symbols ++ d.conditionals.thenPart

/-- The first branch of a conditional. -/
def ifLine (d : Dialect) (symbols : List String) : String :=
  d.conditionals.ifOpen ++ d.condition symbols

/-- A further branch of a conditional. -/
def elseIfLine (d : Dialect) (symbols : List String) : String :=
  d.conditionals.elseIfOpen ++ d.condition symbols

/-- An attribute of the assembly. -/
def assemblyAttribute (d : Dialect) (name argument : String) : String :=
  d.assemblyAttributeOpen ++ d.global ++ "System.Reflection." ++ name ++ "(" ++
    d.stringLiteral argument ++ ")" ++ d.attributeClose

/-- The annotation of generated code, with the name and version of the generator. -/
def generatedCodeAttribute (d : Dialect) (name version : String) : String :=
  d.attributeOpen ++ d.global ++ "System.CodeDom.Compiler.GeneratedCode(" ++
    d.stringLiteral name ++ "," ++ d.stringLiteral version ++ ")" ++ d.attributeClose

/-- The annotation that keeps the type out of coverage. -/
def coverageAttribute (d : Dialect) : String :=
  d.attributeOpen ++ d.global ++ "System.Diagnostics.CodeAnalysis.ExcludeFromCodeCoverage" ++
    d.attributeClose

/-- The line that opens a namespace. -/
def namespaceLine (d : Dialect) (name : String) : String :=
  d.namespaceOpen ++ name ++ d.namespaceOpenEnd

/-- The modifiers of a member. -/
def modifiers (d : Dialect) : ValueKind → String
  | .constant => d.member.constantModifiers
  | .runtime => d.member.runtimeModifiers

/-- The name of a type. -/
def typeName (d : Dialect) : FieldType → String
  | .string => d.member.stringType
  | .boolean => d.member.booleanType
  | .ticks => d.member.dateTimeType

/-- The name of a member with its type, where the dialect writes it. -/
def declaration (d : Dialect) (name : String) (type : FieldType) : String :=
  match d.member.typePlacement with
  | .beforeName => d.typeName type ++ " " ++ name
  | .asClause => name ++ " As " ++ d.typeName type
  | .omitted => name

/-- The line of a member. -/
def declare (d : Dialect) (name : String) (type : FieldType) (kind : ValueKind)
    (literal : String) : String :=
  d.member.indent ++ d.modifiers kind ++ d.declaration name type ++ " = " ++ literal ++
    d.member.terminator

/-- The line of the member that a name and a value make. -/
def memberLine (d : Dialect) (name : String) (value : FieldValue) : String :=
  d.declare name value.type value.kind (d.literal value)

end Dialect

end VersionInfo
