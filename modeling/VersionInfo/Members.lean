import VersionInfo.Record.Basic

/-!
# Members of the generated type

The members are the built-in ones, made from the parts of a record, and the record's own fields.
The built-in names are reserved, and no name may stand twice, whether its field is emitted or not.
Members are ordered by name.

* `builtinNames`, `Record.builtins`: `BUILTIN_NAMES` and `builtin_members`.
* `Record.members`: `collect_members`, the members or the first cause against them.
-/

namespace VersionInfo

/-- The names of the built-in members. -/
def builtinNames : List String :=
  ["AssemblyCompany", "AssemblyConfiguration", "AssemblyFileVersion",
    "AssemblyInformationalVersion", "AssemblyProduct", "AssemblyTitle", "AssemblyVersion",
    "GitCommitDate", "GitCommitId", "IsPrerelease", "IsPublicRelease", "RootNamespace"]

namespace Record

/-- The built-in members but for the commit date, with those that are emitted even when empty. -/
def plainBuiltins (r : Record) : List Field :=
  [⟨"AssemblyCompany", .string r.company, true⟩,
    ⟨"AssemblyFileVersion", .string r.fileVersion, true⟩,
    ⟨"AssemblyVersion", .string r.assemblyVersion, true⟩,
    ⟨"IsPrerelease", .boolean r.isPrerelease, true⟩,
    ⟨"IsPublicRelease", .boolean r.isPublicRelease, true⟩,
    ⟨"RootNamespace", .string (r.rootNamespace.getD ""), true⟩,
    ⟨"AssemblyInformationalVersion", .string r.informationalVersion, false⟩,
    ⟨"AssemblyTitle", .string r.title, false⟩,
    ⟨"AssemblyProduct", .string r.product, false⟩,
    ⟨"AssemblyConfiguration", .string r.configuration, false⟩,
    ⟨"GitCommitId", .string r.commitId, false⟩]

/-- The member of the commit date, which must be valid. -/
def commitDateField (r : Record) : Except GenerationError (List Field) :=
  match r.commitDate with
  | none => .ok []
  | some t =>
    if t.Valid then .ok [⟨"GitCommitDate", .ticks t, false⟩]
    else .error (.malformedTicks "GitCommitDate" (RawField.ticksText t))

/-- The fields of some raw fields, whose names must differ from each other and from those taken. -/
def resolveFields (taken : List String) : List RawField → Except GenerationError (List Field)
  | [] => .ok []
  | raw :: rest => do
    let field ← raw.resolve
    if field.name ∈ taken then throw (.duplicateField field.name)
    else
      let others ← resolveFields (field.name :: taken) rest
      return field :: others

/-- All fields that could become members. -/
def allFields (r : Record) : Except GenerationError (List Field) := do
  let date ← r.commitDateField
  let own ← resolveFields builtinNames r.fields
  return r.plainBuiltins ++ date ++ own

/-- The emitted members, in ascending order of names. -/
def members (r : Record) : Except GenerationError (NameMap FieldValue) := do
  let fields ← r.allFields
  return NameMap.ofList ((fields.filter Field.shouldEmit).map fun f => (f.name, f.value))

end Record

end VersionInfo
