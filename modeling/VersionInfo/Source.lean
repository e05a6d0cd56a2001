import VersionInfo.Dialect.Line
import VersionInfo.Members

/-!
# Generated source text

The text is a list of lines, each ended by a line feed: the preamble with the banner and the
attributes of the assembly, and then the type with its members, if it is emitted. Either the whole
text is made or the first cause against it is given.

* `Dialect.preamble`, `Dialect.typeBlock`: the lines of `render_preamble` and of `render_type`.
* `Record.sourceText`: `generate`, the generated text.
* `lineText_append`: lines are written one after another.
* `Record.sourceText_eq_ok_iff`: what text is made when one is.
-/

namespace VersionInfo

/-- The text of some lines. -/
def lineText (lines : List String) : String :=
  String.ofList (lines.flatMap fun line => line.toList ++ ['\n'])

namespace Dialect

/-- The namespace line in front of the attributes. -/
def fileNamespace (d : Dialect) (r : Record) : List String :=
  match d.namespacePlacement with
  | .wholeFile fallback => [d.namespaceLine (r.effectiveNamespace?.getD fallback)]
  | .aroundType _ => []

/-- The lines in front of the type. -/
def preamble (d : Dialect) (r : Record) : List String :=
  banner.map (fun line => d.comment ++ line) ++ ["", d.warningLine, ""] ++ d.fileNamespace r ++
    [d.assemblyAttribute "AssemblyVersionAttribute" r.assemblyVersion,
      d.assemblyAttribute "AssemblyFileVersionAttribute" r.fileVersion,
      d.assemblyAttribute "AssemblyInformationalVersionAttribute" r.informationalVersion] ++
    d.attributeBlockEnd.toList

/-- The lines that open and close the namespace around the type. -/
def typeNamespace (d : Dialect) (r : Record) : List String × List String :=
  match d.namespacePlacement, r.explicitNamespace? with
  | .aroundType close, some name => ([d.namespaceLine name], [close])
  | _, _ => ([], [])

/-- The guarded annotations of the type, and its header. -/
def typeHead (d : Dialect) (name version : String) : List String :=
  let generated := d.generatedCodeAttribute name version
  match d.guard with
  | .stacked =>
    [d.ifLine frameworkSymbols, generated, d.conditionals.endLine,
      d.ifLine modernFrameworkSymbols, d.coverageAttribute, d.conditionals.endLine,
      d.typeHeader]
  | .chained =>
    [d.ifLine modernFrameworkSymbols, generated, d.coverageAttribute, d.typeHeader,
      d.elseIfLine frameworkSymbols, generated, d.typeHeader,
      d.conditionals.elseLine, d.typeHeader, d.conditionals.endLine]

/-- The lines of the members. -/
def memberLines (d : Dialect) (members : NameMap FieldValue) : List String :=
  members.map fun m => d.memberLine m.1 m.2

/-- The lines of the type. -/
def typeBlock (d : Dialect) (r : Record) (members : NameMap FieldValue) : List String :=
  let around := d.typeNamespace r
  around.1 ++ d.typeHead r.generator r.generatorRelease ++ d.memberLines members ++
    [d.typeClose] ++ around.2

/-- The lines of a record with its members. -/
def sourceLines (d : Dialect) (r : Record) (members : NameMap FieldValue) : List String :=
  d.preamble r ++ if r.emitType then d.typeBlock r members else []

end Dialect

/-- The source text of a record in the language it selects. -/
def Record.sourceText (r : Record) : Except GenerationError String := do
  let language ← r.language
  let members ← r.members
  return lineText ((Dialect.of language).sourceLines r members)

/-! ## Lemmas -/

theorem lineText_append (first second : List String) :
    lineText (first ++ second) = lineText first ++ lineText second := by
  simp [lineText, String.ofList_append]

/-- Each line is ended by a line feed. -/
theorem lineText_eq_join (lines : List String) :
    lineText lines = String.join (lines.map (· ++ "\n")) := by
  apply String.toList_inj.mp
  rw [lineText, String.toList_ofList, String.toList_join, List.flatMap_map]
  simp

/-- A text is made when the language is known and the members are found, and it is then the text of
their lines. There is no third way for `generate` to fail. -/
theorem Record.sourceText_eq_ok_iff {r : Record} {text : String} :
    r.sourceText = .ok text ↔ ∃ l members, r.language = .ok l ∧ r.members = .ok members ∧
      text = lineText ((Dialect.of l).sourceLines r members) := by
  unfold sourceText
  cases r.language with
  | error e => exact ⟨fun h => (nomatch h), fun ⟨_, _, h, _⟩ => nomatch h⟩
  | ok l =>
    cases r.members with
    | error e => exact ⟨fun h => (nomatch h), fun ⟨_, _, _, h, _⟩ => nomatch h⟩
    | ok members =>
      constructor
      · intro h
        cases h
        exact ⟨l, members, rfl, rfl, rfl⟩
      · rintro ⟨_, _, hl, hm, rfl⟩
        cases hl
        cases hm
        rfl

end VersionInfo
