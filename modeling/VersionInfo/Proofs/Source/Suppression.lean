import VersionInfo.Proofs.Members.Checks
import VersionInfo.Proofs.Source.Readability

/-!
# Texts without the type

The switch for the type cuts the text: what stands in front of the type stays as it is, and every
record is accepted or refused as before. What is left depends on few parts of a record.

* `sourceText_eq_append_typeBlock`: the text is the text without the type, and then the type.
* `preamble_congr`: what the lines in front of the type depend on.
* `sourceText_suppressed`: both, for all records.
-/

namespace VersionInfo

/-! ## The cut -/

theorem lineText_ne_empty {lines : List String} (given : lines ≠ []) : lineText lines ≠ "" := by
  obtain ⟨line, rest, rfl⟩ := List.exists_cons_of_ne_nil given
  exact lineText_cons_ne line rest

/-- No check looks at the switch. -/
theorem cause?_sourceText_withType (r : Record) (emit : Bool) :
    cause? (r.withType emit).sourceText = cause? r.sourceText := by
  rw [cause?_sourceText, cause?_sourceText]
  rfl

/-- **The text of a record is that without the type, and then the type.** -/
theorem sourceText_eq_append_typeBlock {r : Record} (emit : r.emitType = true) {text : String}
    (made : r.sourceText = .ok text) :
    ∃ l members, r.language = .ok l ∧ r.members = .ok members ∧ ∃ short,
      (r.withType false).sourceText = .ok short ∧
        text = short ++ lineText ((Dialect.of l).typeBlock r members) := by
  obtain ⟨l, members, language, hmembers, rfl⟩ := Record.sourceText_eq_ok_iff.mp made
  refine ⟨l, members, language, hmembers, lineText ((Dialect.of l).preamble r), ?_, ?_⟩
  · refine Record.sourceText_eq_ok_iff.mpr ⟨l, members, language, hmembers, ?_⟩
    exact congrArg lineText (List.append_nil _).symm
  · unfold Dialect.sourceLines
    rw [if_pos emit, lineText_append]

/-! ## What is left -/

/-- Two records agree in all that stands in front of the type. The namespace counts in the
language that opens it there. -/
structure Record.SamePreamble (r s : Record) : Prop where
  selector : r.selector = s.selector
  assemblyVersion : r.assemblyVersion = s.assemblyVersion
  fileVersion : r.fileVersion = s.fileVersion
  informationalVersion : r.informationalVersion = s.informationalVersion
  space : r.selector = Language.fSharp.selector → r.effectiveNamespace? = s.effectiveNamespace?

theorem Record.SamePreamble.language {r s : Record} (same : r.SamePreamble s) :
    r.language = s.language := by
  unfold Record.language
  rw [same.selector]

theorem fileNamespace_congr {r s : Record} (same : r.SamePreamble s) {l : Language}
    (language : r.language = .ok l) :
    (Dialect.of l).fileNamespace r = (Dialect.of l).fileNamespace s := by
  cases l with
  | cSharp => rfl
  | visualBasic => rfl
  | fSharp =>
    have space := same.space (Record.language_eq_ok_iff.mp language).symm
    unfold Dialect.fileNamespace
    rw [space]

/-- **What the lines in front of the type depend on.** -/
theorem preamble_congr {r s : Record} (same : r.SamePreamble s) {l : Language}
    (language : r.language = .ok l) : (Dialect.of l).preamble r = (Dialect.of l).preamble s := by
  have attributes : (Dialect.of l).attributes r = (Dialect.of l).attributes s := by
    unfold Dialect.attributes
    rw [same.assemblyVersion, same.fileVersion, same.informationalVersion]
  rw [Dialect.preamble_eq, Dialect.preamble_eq, attributes, fileNamespace_congr same language]

theorem sourceText_of_suppressed {r : Record} (emit : r.emitType = false) {text : String}
    (made : r.sourceText = .ok text) :
    ∃ l, r.language = .ok l ∧ text = lineText ((Dialect.of l).preamble r) := by
  obtain ⟨l, members, language, -, rfl⟩ := Record.sourceText_eq_ok_iff.mp made
  exact ⟨l, language, congrArg lineText (sourceLines_of_not_emitType emit members)⟩

/-- **Texts without the type.** With the type and without it, the same records are generated and
the same faults are told, and the text with the type is the text without it, followed by the lines
of the type, of which there are some. No part of a record but its selector, its three versions and,
where a namespace stands around the whole file, that namespace shows in a text without the type. -/
theorem sourceText_suppressed :
    (∀ r : Record, r.emitType = true →
      ((∃ text, r.sourceText = .ok text) ↔ ∃ short, (r.withType false).sourceText = .ok short) ∧
        (∀ e, r.sourceText = .error e ↔ (r.withType false).sourceText = .error e) ∧
        ∀ text short, r.sourceText = .ok text → (r.withType false).sourceText = .ok short →
          ∃ l members, r.language = .ok l ∧ r.members = .ok members ∧
            lineText ((Dialect.of l).typeBlock r members) ≠ "" ∧
            text = short ++ lineText ((Dialect.of l).typeBlock r members)) ∧
      ∀ r s : Record, r.emitType = false → s.emitType = false → r.SamePreamble s →
        ∀ text text', r.sourceText = .ok text → s.sourceText = .ok text' → text = text' := by
  constructor
  · intro r emit
    refine ⟨?_, fun e => ?_, fun text short made cut => ?_⟩
    · rw [← cause?_eq_none_iff, ← cause?_eq_none_iff, cause?_sourceText_withType]
    · rw [← cause?_eq_some_iff, ← cause?_eq_some_iff, cause?_sourceText_withType]
    · obtain ⟨l, members, language, hmembers, short', cut', same⟩ :=
        sourceText_eq_append_typeBlock emit made
      obtain rfl : short' = short := Except.ok.inj (cut'.symm.trans cut)
      exact ⟨l, members, language, hmembers,
        lineText_ne_empty (Dialect.typeBlock_ne_nil _ _ _), same⟩
  · intro r s emitR emitS same text text' madeR madeS
    obtain ⟨l, languageR, rfl⟩ := sourceText_of_suppressed emitR madeR
    obtain ⟨m, languageS, rfl⟩ := sourceText_of_suppressed emitS madeS
    obtain rfl : l = m := by
      rw [same.language, languageS] at languageR
      exact (Except.ok.inj languageR).symm
    rw [preamble_congr same languageR]

/-- A record that names the namespace of its type, with a field. -/
def namedRecord : Record where
  selector := "f#"
  informationalVersion := "1.0-beta"
  typeNamespace := some "Tool"
  fields := [.string "Custom" "value"]

/-- Another one that differs from it in all that a text without the type does not show; its
namespace is the same one, but from another place. -/
def rootedRecord : Record where
  selector := "f#"
  informationalVersion := "1.0-beta"
  company := "Company"
  commitDate := some 0
  isPublicRelease := true
  rootNamespace := some "Tool"
  typeNamespace := some " "
  emitType := false
  generatorName := some "Generator"

/-- Both records show the same preamble, and the first has a type besides. -/
theorem sourceText_suppressed_named :
    ∃ text short, namedRecord.sourceText = .ok text ∧
      (namedRecord.withType false).sourceText = .ok short ∧ rootedRecord.sourceText = .ok short ∧
      namedRecord.emitType = true ∧ (namedRecord.withType false).SamePreamble rootedRecord ∧
      ∃ block, block ≠ "" ∧ text = short ++ block := by
  obtain ⟨type, rest⟩ := sourceText_suppressed
  have same : (namedRecord.withType false).SamePreamble rootedRecord :=
    ⟨rfl, rfl, rfl, rfl, fun _ => by decide⟩
  obtain ⟨text, made⟩ : ∃ text, namedRecord.sourceText = .ok text := ⟨_, rfl⟩
  obtain ⟨short, cut⟩ := (type namedRecord rfl).1.mp ⟨text, made⟩
  obtain ⟨other, plain⟩ : ∃ other, rootedRecord.sourceText = .ok other := ⟨_, rfl⟩
  obtain ⟨l, members, -, -, given, split⟩ := (type namedRecord rfl).2.2 text short made cut
  obtain rfl := rest _ _ rfl rfl same _ _ cut plain
  exact ⟨text, short, made, cut, plain, rfl, same, _, given, split⟩

end VersionInfo
