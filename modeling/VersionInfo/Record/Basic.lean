import VersionInfo.Error
import VersionInfo.Field.Raw
import VersionInfo.Language

/-!
# Version records

A record, a `MetadataRecord`, holds what one generated text is made from. Its language stays a text
until generation, where a selector that names no language is an error.

* `Record.language`: the language that the selector names.
* `Record.explicitNamespace?`, `Record.effectiveNamespace?`: `explicit_namespace` and
  `effective_namespace`, where a blank namespace counts as none.
* `Record.language_eq_ok_iff`: the selector must be that of the language.
-/

namespace VersionInfo

open Text (Blank)

/-- What a generated text is made from. -/
structure Record where
  assemblyVersion : String := ""
  fileVersion : String := ""
  informationalVersion : String := ""
  company : String := ""
  title : String := ""
  product : String := ""
  configuration : String := ""
  commitId : String := ""
  /-- When the commit was made. -/
  commitDate : Option Ticks := none
  isPrerelease : Bool := false
  isPublicRelease : Bool := false
  rootNamespace : Option String := none
  /-- The namespace that is asked for around the type. -/
  typeNamespace : Option String := none
  /-- Whether the type is emitted. -/
  emitType : Bool := true
  /-- Names the target language. -/
  selector : String := Language.cSharp.selector
  /-- The fields beside the built-in members. -/
  fields : List RawField := []
  generatorName : Option String := none
  generatorVersion : Option String := none
deriving DecidableEq

/-- The name that generated code carries if a record gives none. -/
def defaultGeneratorName : String := "thisassembly-core"

/-- The version that generated code carries if a record gives none. -/
def defaultGeneratorVersion : String := "1.0.0"

namespace Record

/-- The language that the record's selector names. -/
def language (r : Record) : Except GenerationError Language :=
  match Language.ofSelector? r.selector with
  | some l => .ok l
  | none => .error (.unsupportedLanguage r.selector)

/-- The namespace asked for around the type, unless it is blank. -/
def explicitNamespace? (r : Record) : Option String :=
  r.typeNamespace.filter fun s => ¬ Blank s

/-- The namespace asked for around the type, or else the root namespace, unless blank. -/
def effectiveNamespace? (r : Record) : Option String :=
  r.explicitNamespace?.or (r.rootNamespace.filter fun s => ¬ Blank s)

/-- The name that generated code carries. -/
def generator (r : Record) : String := r.generatorName.getD defaultGeneratorName

/-- The version of the generator that generated code carries. -/
def generatorRelease (r : Record) : String := r.generatorVersion.getD defaultGeneratorVersion

/-! ## Building -/

/-- An empty record for a language. -/
def ofSelector (selector : String) : Record where
  selector := selector

/-- The record with three versions. -/
def withVersions (r : Record) (assembly file informational : String) : Record :=
  { r with assemblyVersion := assembly, fileVersion := file, informationalVersion := informational }

/-- The record with a company. -/
def withCompany (r : Record) (company : String) : Record := { r with company := company }

/-- The record with its two release flags. -/
def withReleaseFlags (r : Record) (isPrerelease isPublicRelease : Bool) : Record :=
  { r with isPrerelease := isPrerelease, isPublicRelease := isPublicRelease }

/-- The record with a root namespace. -/
def withRootNamespace (r : Record) (name : String) : Record :=
  { r with rootNamespace := some name }

/-- The record with a namespace around the type. -/
def withTypeNamespace (r : Record) (name : String) : Record :=
  { r with typeNamespace := some name }

/-- The record with or without its type. -/
def withType (r : Record) (emit : Bool) : Record := { r with emitType := emit }

/-- The record with one more field. -/
def withField (r : Record) (field : RawField) : Record :=
  { r with fields := r.fields ++ [field] }

/-! ## Lemmas -/

theorem language_eq_ok_iff {r : Record} {l : Language} :
    r.language = .ok l ↔ l.selector = r.selector := by
  rw [← Language.ofSelector?_eq_some_iff]
  unfold language
  cases Language.ofSelector? r.selector <;> simp

end Record

end VersionInfo
