import VersionInfo.Manifest
import VersionInfo.Proofs.Json.Typed

/-!
# Manifests are read back from their text

The text of a manifest is an object with one member to a line. Whatever code it carries, with line
feeds, quotes or characters of any plane, that text is read back as the manifest it was written
from. The manifest of a record is made whenever its source text is.

* `Manifest.text_eq_layout`: the text as an object in a layout.
* `Manifest.read_text`: manifests are read back.
* `Record.manifest_of_sourceText`: the manifest of a record with a source text.
-/

namespace VersionInfo

open Json (Ends Gives Layout PassesSpaces Shape Value)

/-! ## One part -/

/-- A name is read as the value that it stands for. -/
theorem Json.gives_variant {α : Type} {names : List (String × α)} {name : String} {a : α}
    (known : Json.named names name = .ok a) :
    Gives (Json.variant names) (.string name) (some a) := by
  intro rest _
  obtain ⟨more, opened⟩ : ∃ more, (Value.string name).text ++ rest = '"' :: more := ⟨_, rfl⟩
  have read := Json.run_stringBody name rest
  have text : (Value.string name).text = Json.stringText name := by rw [Value.text]
  rw [← text, opened] at read
  rw [opened, Json.variant, Json.run_atValue (by decide), if_pos rfl]
  refine (Json.Reader.run_check _ _ _).trans ?_
  rw [read, Option.bind_some, known]
  rfl

theorem Language.gives_reader (l : Language) :
    Gives Language.reader (.string l.selector) (some l) :=
  Json.gives_variant (by cases l <;> rfl)

namespace Manifest

/-- The manifest `s` with one part of `m`. -/
def put (m : Manifest) (p : Part) (s : Manifest) : Manifest :=
  match p with
  | .language => { s with language := m.language }
  | .fileExtension => { s with fileExtension := m.fileExtension }
  | .recordHash => { s with recordHash := m.recordHash }
  | .codeHash => { s with codeHash := m.codeHash }
  | .code => { s with code := m.code }

theorem gives_part (m : Manifest) (p : Part) (s : Manifest) :
    Gives (readPart p s) (.string (m.part p)) (some (m.put p s)) := by
  cases p with
  | language => exact (Language.gives_reader m.language).map _
  | fileExtension => exact (Json.gives_string m.fileExtension).map _
  | recordHash => exact (Json.gives_string m.recordHash).map _
  | codeHash => exact (Json.gives_string m.codeHash).map _
  | code => exact (Json.gives_string m.code).map _

theorem passesSpaces_readPart (p : Part) (s : Manifest) : PassesSpaces (readPart p s) := by
  cases p <;> exact (Json.passesSpaces_atValue _).map _

theorem putAll_all (m : Manifest) : Shape.putAll m.put Part.all shape.start = m := rfl

/-! ## The text -/

/-- One member to a line. -/
def indented : Layout where
  key := "\n  ".toList
  value := " ".toList
  close := "\n".toList
  spaces_key := List.all_eq_true.mp rfl
  spaces_value := List.all_eq_true.mp rfl
  spaces_close := List.all_eq_true.mp rfl

/-- The members of the object. -/
def members (m : Manifest) : List (String × Value) :=
  Part.all.map fun p => (p.key, .string (m.part p))

theorem memberText_eq (m : Manifest) (p : Part) :
    m.memberText p = indented.member (p.key, .string (m.part p)) := by
  simp [memberText, Layout.member, indented, Value.text]

/-- A manifest is written as an indented object and a line feed. -/
theorem text_eq_layout (m : Manifest) : m.text.toList = indented.object m.members ++ ['\n'] := by
  have members : Part.all.map m.memberText = m.members.map indented.member := by
    rw [Manifest.members, List.map_map]
    exact List.map_congr_left fun p _ => m.memberText_eq p
  have given : m.members ≠ [] := List.cons_ne_nil _ _
  have object := indented.object_eq_intercalate given
  rw [text, String.toList_ofList, object, members]
  simp [indented]

/-- **Manifests are read back from their text.** -/
theorem read_text (m : Manifest) : read m.text = .ok m := by
  have reads : ∀ p s rest, Ends rest →
      (readPart p s).run (indented.value ++ ((Value.string (m.part p)).text ++ rest)) =
        some (m.put p s, rest) := by
    intro p s rest ends
    rw [passesSpaces_readPart p s _ _ indented.spaces_value, gives_part m p s rest ends]
    rfl
  have labels : ∀ p, shape.key? (shape.label p) = some p := by
    intro p
    cases p <;> decide
  have nodup : Part.all.Nodup := by decide
  have run := Shape.run_fields labels reads nodup (fun p mem _ => mem) ['\n']
  rw [putAll_all] at run
  have read : shape.reader.text m.text = .ok m :=
    Json.Reader.text_eq_ok_iff.mpr ⟨['\n'], by rw [text_eq_layout]; exact run, rfl⟩
  rw [Manifest.read, read]
  rfl

end Manifest

/-! ## Making manifests -/

namespace Record

variable {r : Record}

/-- **A record with a source text has a manifest**, which carries the text and its digest. -/
theorem manifest_of_sourceText {text : String} (made : r.sourceText = .ok text) :
    ∃ l, r.language = .ok l ∧
      r.manifest = .ok ⟨l, l.extension, r.digest, Digest.ofText text, text⟩ := by
  obtain ⟨l, -, language, -⟩ := sourceText_eq_ok_iff.mp made
  refine ⟨l, language, ?_⟩
  rw [manifest, language, made]
  rfl

/-- Where a text is refused its manifest is refused with the same error. -/
theorem manifest_of_error {e : GenerationError} (refused : r.sourceText = .error e) :
    r.manifest = .error e := by
  unfold manifest
  cases language : r.language with
  | error e' =>
    rw [sourceText, language] at refused
    cases (show Except.error e' = Except.error e from refused)
    rfl
  | ok l =>
    rw [refused]
    rfl

end Record

end VersionInfo
