import VersionInfo.Digest.Sha256
import VersionInfo.Json.Typed
import VersionInfo.Json.Value
import VersionInfo.Record.Basic

/-!
# Records as JSON

A record stands in JSON as an object with a key for each of its parts, all of which may be
missing, or as an array of the parts in their order. Its digest is that of its canonical text, in
which the keys are ordered.

* `Record.read` reads a record, `Record.toJson` gives its value.
* `Record.canonicalText`, `Record.digest`: the canonical text and its SHA-256, as
  `compute_record_hash` makes them.
* `Record.shape_start`: a part whose key is missing is as in the empty record.
-/

namespace VersionInfo

open Json (Reader Shape Value)

/-! ## Raw fields -/

/-- The parts of a raw field. -/
inductive RawField.Part where
  | name
  | type
  | value
  | emitIfEmpty
deriving DecidableEq

namespace RawField

/-- The parts in their order. -/
def Part.all : List Part := [name, type, value, emitIfEmpty]

/-- The key of a part. -/
def Part.key : Part → String
  | name => "name"
  | type => "type"
  | value => "value"
  | emitIfEmpty => "emitIfEmpty"

/-- The JSON value of a part. -/
def part (f : RawField) : Part → Value
  | .name => .string f.name
  | .type => .string f.type
  | .value => .string f.value
  | .emitIfEmpty => .boolean f.emitIfEmpty

/-- Reads a part into a raw field. -/
def readPart : Part → RawField → Reader RawField
  | .name, f => Json.string.map fun s => { f with name := s }
  | .type, f => Json.string.map fun s => { f with type := s }
  | .value, f => Json.string.map fun s => { f with value := s }
  | .emitIfEmpty, f => Json.boolean.map fun b => { f with emitIfEmpty := b }

/-- How a raw field is read: its name and type must be given. -/
def shape : Shape Part RawField where
  title := "struct FieldSpec"
  keys := Part.all
  label := Part.key
  required := fun p => p = .name ∨ p = .type
  start := ⟨"", "", "", false⟩
  field := readPart

/-- The JSON value of a raw field. -/
def toJson (f : RawField) : Value := .object (Part.all.map fun p => (p.key, f.part p))

/-- The raw field that a JSON text holds. -/
def read (s : String) : Except Json.Error RawField := shape.reader.text s

end RawField

/-! ## Records -/

/-- The parts of a record. -/
inductive Record.Part where
  | assemblyVersion
  | fileVersion
  | informationalVersion
  | company
  | title
  | product
  | configuration
  | commitId
  | commitDate
  | isPrerelease
  | isPublicRelease
  | rootNamespace
  | typeNamespace
  | emitType
  | selector
  | fields
  | generatorName
  | generatorVersion
deriving DecidableEq

namespace Record

/-- The parts in their order. -/
def Part.all : List Part :=
  [assemblyVersion, fileVersion, informationalVersion, company, title, product, configuration,
    commitId, commitDate, isPrerelease, isPublicRelease, rootNamespace, typeNamespace, emitType,
    selector, fields, generatorName, generatorVersion]

/-- The key of a part. -/
def Part.key : Part → String
  | assemblyVersion => "assemblyVersion"
  | fileVersion => "assemblyFileVersion"
  | informationalVersion => "assemblyInformationalVersion"
  | company => "assemblyCompany"
  | title => "assemblyTitle"
  | product => "assemblyProduct"
  | configuration => "assemblyConfiguration"
  | commitId => "gitCommitId"
  | commitDate => "gitCommitDate"
  | isPrerelease => "isPrerelease"
  | isPublicRelease => "isPublicRelease"
  | rootNamespace => "rootNamespace"
  | typeNamespace => "thisAssemblyNamespace"
  | emitType => "emitThisAssemblyClass"
  | selector => "codeLanguage"
  | fields => "additionalFields"
  | generatorName => "generatorName"
  | generatorVersion => "generatorVersion"

/-- An optional value, `null` when there is none. -/
def optional {α : Type} (f : α → Value) (v : Option α) : Value := (v.map f).getD .null

/-- The JSON value of a part. -/
def part (r : Record) : Part → Value
  | .assemblyVersion => .string r.assemblyVersion
  | .fileVersion => .string r.fileVersion
  | .informationalVersion => .string r.informationalVersion
  | .company => .string r.company
  | .title => .string r.title
  | .product => .string r.product
  | .configuration => .string r.configuration
  | .commitId => .string r.commitId
  | .commitDate => optional (fun t : Ticks => .integer t.toInt) r.commitDate
  | .isPrerelease => .boolean r.isPrerelease
  | .isPublicRelease => .boolean r.isPublicRelease
  | .rootNamespace => optional .string r.rootNamespace
  | .typeNamespace => optional .string r.typeNamespace
  | .emitType => .boolean r.emitType
  | .selector => .string r.selector
  | .fields => .array (r.fields.map RawField.toJson)
  | .generatorName => optional .string r.generatorName
  | .generatorVersion => optional .string r.generatorVersion

/-- Reads a part into a record. -/
def readPart : Part → Record → Reader Record
  | .assemblyVersion, r => Json.string.map fun s => { r with assemblyVersion := s }
  | .fileVersion, r => Json.string.map fun s => { r with fileVersion := s }
  | .informationalVersion, r => Json.string.map fun s => { r with informationalVersion := s }
  | .company, r => Json.string.map fun s => { r with company := s }
  | .title, r => Json.string.map fun s => { r with title := s }
  | .product, r => Json.string.map fun s => { r with product := s }
  | .configuration, r => Json.string.map fun s => { r with configuration := s }
  | .commitId, r => Json.string.map fun s => { r with commitId := s }
  | .commitDate, r => (Json.option Json.int64).map fun t => { r with commitDate := t }
  | .isPrerelease, r => Json.boolean.map fun b => { r with isPrerelease := b }
  | .isPublicRelease, r => Json.boolean.map fun b => { r with isPublicRelease := b }
  | .rootNamespace, r => (Json.option Json.string).map fun s => { r with rootNamespace := s }
  | .typeNamespace, r => (Json.option Json.string).map fun s => { r with typeNamespace := s }
  | .emitType, r => Json.boolean.map fun b => { r with emitType := b }
  | .selector, r => Json.string.map fun s => { r with selector := s }
  | .fields, r => (Json.list RawField.shape.reader).map fun fs => { r with fields := fs }
  | .generatorName, r => (Json.option Json.string).map fun s => { r with generatorName := s }
  | .generatorVersion, r => (Json.option Json.string).map fun s => { r with generatorVersion := s }

/-- How a record is read: no part must be given. -/
def shape : Shape Part Record where
  title := "struct MetadataRecord"
  keys := Part.all
  label := Part.key
  required := fun _ => false
  start :=
    { assemblyVersion := ""
      fileVersion := ""
      informationalVersion := ""
      company := ""
      title := ""
      product := ""
      configuration := ""
      commitId := ""
      commitDate := none
      isPrerelease := false
      isPublicRelease := false
      rootNamespace := none
      typeNamespace := none
      emitType := true
      selector := "c#"
      fields := []
      generatorName := none
      generatorVersion := none }
  field := readPart

/-- The JSON value of a record. -/
def toJson (r : Record) : Value := .object (Part.all.map fun p => (p.key, r.part p))

/-- The record that a JSON text holds. -/
def read (s : String) : Except Json.Error Record := shape.reader.text s

/-- The text that identifies a record. -/
def canonicalText (r : Record) : String := r.toJson.canonicalText

/-- The digest of everything that the generated text depends on. -/
def digest (r : Record) : String := Digest.ofText r.canonicalText

/-! ## Lemmas -/

/-- What a missing key leaves is what the record without any key holds. -/
theorem shape_start : shape.start = {} := rfl

end Record

end VersionInfo
