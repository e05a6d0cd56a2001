import VersionInfo.Dialect.Line
import VersionInfo.Proofs.Dialect.LiteralText
import VersionInfo.Proofs.Source.Lines

/-!
# Texts that nothing breaks

A literal holds nothing that breaks its line, whatever it is the literal of, and neither does what a
dialect spells out. So the lines of a dialect are unbroken, but for the names that are written as
they are.

* `unbroken_spellings`: what a dialect spells out.
* `unbroken_literal`: the literal of any value.
* `unbroken_assemblyAttribute`, `unbroken_generatedCodeAttribute`, `unbroken_conditionals`: lines
  without such names.
-/

namespace VersionInfo

/-- A text without control characters and without separators of lines or paragraphs. -/
def Unbroken (s : String) : Prop := ∀ c ∈ s.toList, breaksLine c = false

instance : DecidablePred Unbroken := fun s =>
  List.decidableBAll (fun c => breaksLine c = false) s.toList

theorem unbroken_append {a b : String} : Unbroken (a ++ b) ↔ Unbroken a ∧ Unbroken b := by
  unfold Unbroken
  rw [String.toList_append, List.forall_mem_append]

/-- A text without line-breaking characters has no line feed. -/
theorem Unbroken.oneLine {s : String} (h : Unbroken s) : OneLine s := fun mem =>
  absurd (h _ mem) (by decide)

theorem unbroken_intercalate {separator : String} (h : Unbroken separator) :
    ∀ {parts : List String}, (∀ part ∈ parts, Unbroken part) →
      Unbroken (separator.intercalate parts)
  | [], _ => by
    rw [String.intercalate_nil]
    decide
  | [part], every => by
    rw [String.intercalate_singleton]
    exact every part (List.mem_singleton_self part)
  | part :: next :: rest, every => by
    have ⟨first, others⟩ := List.forall_mem_cons.mp every
    rw [String.intercalate_cons_cons, unbroken_append, unbroken_append]
    exact ⟨⟨first, h⟩, unbroken_intercalate h others⟩

/-- A number is written in digits, none of which breaks a line. -/
theorem unbroken_writeInt (n : Int) : Unbroken (String.ofList (Text.writeInt n)) := by
  intro c mem
  rw [String.toList_ofList] at mem
  rcases Text.eq_or_isDigit_of_mem_writeInt mem with rfl | digit
  · decide
  · exact (digit_plain digit).1

namespace Dialect

/-- What a dialect spells out on the lines of a text. -/
def spellings (d : Dialect) : List String :=
  [d.comment, d.warningOpen, d.warningClose, d.global, d.assemblyAttributeOpen, d.attributeOpen,
    d.attributeClose, d.namespaceOpen, d.namespaceOpenEnd, d.conditionals.ifOpen,
    d.conditionals.thenPart, d.conditionals.elseIfOpen, d.conditionals.elseLine,
    d.conditionals.endLine, d.conditionals.orOperator, d.typeHeader, d.typeClose, d.member.indent,
    d.member.constantModifiers, d.member.runtimeModifiers, d.member.terminator,
    d.member.stringType, d.member.booleanType, d.member.dateTimeType, d.newDateTime,
    d.trueLiteral, d.falseLiteral] ++ d.attributeBlockEnd.toList

variable (l : Language)

/-- No spelling of a dialect breaks a line. Only this is checked language by language; the lemmas
below use it. -/
theorem unbroken_spellings : ∀ s ∈ (of l).spellings, Unbroken s := by
  cases l <;> decide +kernel

/-! ## Literals -/

/-- A string literal breaks no line, whatever its value: the characters that would are escaped. -/
theorem unbroken_stringLiteral (s : String) : Unbroken ((of l).stringLiteral s) :=
  fun _ => breaksLine_of_mem_stringLiteral

theorem unbroken_dateTimeLiteral (t : Ticks) : Unbroken ((of l).dateTimeLiteral t) := by
  have spelled := unbroken_spellings l
  simp only [dateTimeLiteral, unbroken_append]
  exact ⟨⟨⟨⟨⟨spelled _ (by simp [spellings]), by decide⟩, unbroken_writeInt _⟩, by decide⟩,
    spelled _ (by simp [spellings])⟩, by decide⟩

/-- No value breaks its line, whatever its type. -/
theorem unbroken_literal (value : FieldValue) : Unbroken ((of l).literal value) := by
  have spelled := unbroken_spellings l
  cases value with
  | string s => exact unbroken_stringLiteral l s
  | boolean b => cases b <;> exact spelled _ (by simp [spellings, literal, booleanLiteral])
  | ticks t => exact unbroken_dateTimeLiteral l t

/-! ## Lines without names -/

theorem unbroken_assemblyAttribute {name : String} (h : Unbroken name) (argument : String) :
    Unbroken ((of l).assemblyAttribute name argument) := by
  have spelled := unbroken_spellings l
  simp only [assemblyAttribute, unbroken_append]
  exact ⟨⟨⟨⟨⟨⟨⟨spelled _ (by simp [spellings]), spelled _ (by simp [spellings])⟩, by decide⟩, h⟩,
    by decide⟩, unbroken_stringLiteral l argument⟩, by decide⟩, spelled _ (by simp [spellings])⟩

/-- The generator's name and version are written as literals and break no line. -/
theorem unbroken_generatedCodeAttribute (name version : String) :
    Unbroken ((of l).generatedCodeAttribute name version) := by
  have spelled := unbroken_spellings l
  simp only [generatedCodeAttribute, unbroken_append]
  exact ⟨⟨⟨⟨⟨⟨⟨spelled _ (by simp [spellings]), spelled _ (by simp [spellings])⟩, by decide⟩,
    unbroken_stringLiteral l name⟩, by decide⟩, unbroken_stringLiteral l version⟩, by decide⟩,
    spelled _ (by simp [spellings])⟩

theorem unbroken_coverageAttribute : Unbroken (of l).coverageAttribute := by
  have spelled := unbroken_spellings l
  simp only [coverageAttribute, unbroken_append]
  exact ⟨⟨⟨spelled _ (by simp [spellings]), spelled _ (by simp [spellings])⟩, by decide⟩,
    spelled _ (by simp [spellings])⟩

theorem unbroken_warningLine : Unbroken (of l).warningLine := by
  have spelled := unbroken_spellings l
  simp only [warningLine, unbroken_append]
  exact ⟨⟨spelled _ (by simp [spellings]), by decide⟩, spelled _ (by simp [spellings])⟩

/-- The lines of a conditional are unbroken if its symbols are. -/
theorem unbroken_conditionals {symbols : List String} (h : ∀ symbol ∈ symbols, Unbroken symbol) :
    Unbroken ((of l).ifLine symbols) ∧ Unbroken ((of l).elseIfLine symbols) := by
  have spelled := unbroken_spellings l
  have condition : Unbroken ((of l).condition symbols) :=
    unbroken_append.mpr ⟨unbroken_intercalate (spelled _ (by simp [spellings])) h,
      spelled _ (by simp [spellings])⟩
  exact ⟨unbroken_append.mpr ⟨spelled _ (by simp [spellings]), condition⟩,
    unbroken_append.mpr ⟨spelled _ (by simp [spellings]), condition⟩⟩

end Dialect

end VersionInfo
