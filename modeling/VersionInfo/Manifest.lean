import VersionInfo.Record.Json
import VersionInfo.Source

/-!
# Manifests

A manifest is a generated text with its language, the digest of the record it was made from and
its own digest. It is written as indented JSON and read back from JSON of any layout.

* `Manifest`, `Record.manifest`: `GeneratedSource` and `generate_manifest`.
* `Manifest.text` writes a manifest, `Manifest.read` reads one.
-/

namespace VersionInfo

open Json (Reader Shape Value)

/-- A generated text with its digests. -/
structure Manifest where
  language : Language
  fileExtension : String
  recordHash : String
  codeHash : String
  code : String
deriving DecidableEq

/-- The parts of a manifest. -/
inductive Manifest.Part where
  | language
  | fileExtension
  | recordHash
  | codeHash
  | code
deriving DecidableEq

namespace Manifest

/-- The parts in their order. -/
def Part.all : List Part := [language, fileExtension, recordHash, codeHash, code]

/-- The key of a part. -/
def Part.key : Part → String
  | language => "language"
  | fileExtension => "file_extension"
  | recordHash => "record_hash"
  | codeHash => "code_hash"
  | code => "code"

/-- The text of a part. -/
def part (m : Manifest) : Part → String
  | .language => m.language.selector
  | .fileExtension => m.fileExtension
  | .recordHash => m.recordHash
  | .codeHash => m.codeHash
  | .code => m.code

/-- One member to a line, indented by two spaces. -/
def memberText (m : Manifest) (p : Part) : List Char :=
  "\n  ".toList ++ Json.stringText p.key ++ ": ".toList ++ Json.stringText (m.part p)

/-- The manifest as indented JSON, with a line feed at the end. -/
def text (m : Manifest) : String :=
  String.ofList
    ('\x7b' :: [','].intercalate (Part.all.map m.memberText) ++ "\n\x7d\n".toList)

end Manifest

/-! ## Reading -/

/-- Reads a language by its selector. -/
def Language.reader : Reader Language := Json.variant (Language.all.map fun l => (l.selector, l))

/-- Reads a field type by its tag. -/
def FieldType.reader : Reader FieldType := Json.variant (FieldType.all.map fun t => (t.tag, t))

namespace Manifest

/-- Reads a part into a manifest. -/
def readPart : Part → Manifest → Reader Manifest
  | .language, m => Language.reader.map fun l => { m with language := l }
  | .fileExtension, m => Json.string.map fun s => { m with fileExtension := s }
  | .recordHash, m => Json.string.map fun s => { m with recordHash := s }
  | .codeHash, m => Json.string.map fun s => { m with codeHash := s }
  | .code, m => Json.string.map fun s => { m with code := s }

/-- How a manifest is read: all parts must be given. -/
def shape : Shape Part Manifest where
  title := "struct GeneratedSource"
  keys := Part.all
  label := Part.key
  required := fun _ => true
  start := ⟨.cSharp, "", "", "", ""⟩
  field := readPart

/-- The manifest that a JSON text holds. -/
def read (s : String) : Except GenerationError Manifest :=
  (shape.reader.text s).mapError .unreadable

end Manifest

/-- The manifest of a record. -/
def Record.manifest (r : Record) : Except GenerationError Manifest := do
  let language ← r.language
  let code ← r.sourceText
  return ⟨language, language.extension, r.digest, Digest.ofText code, code⟩

end VersionInfo
