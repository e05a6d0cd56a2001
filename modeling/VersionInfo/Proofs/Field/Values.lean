import VersionInfo.Proofs.Instant.Ticks
import VersionInfo.Proofs.Members.Checks
import VersionInfo.Proofs.Text.Numeral
import VersionInfo.Proofs.Text.Strip

/-!
# Values of raw fields

What a text denotes depends on the type it is to have. As a string it denotes itself. As a truth
value it has to be one of two words in any case, and as a tick count a numeral of a valid one; both
may have blanks around them. `RawField.Denotes` says so without a look at how a text is read.

* `RawField.readBoolean_eq_some_iff`, `RawField.readTicks_eq_some_iff`: what is read is what the
  text denotes.
* `RawField.resolve_eq_ok_iff`: which field a raw field of a known type stands for.
* `RawField.resolve_denotes`: that, and what is told of any other raw field.
-/

namespace VersionInfo.RawField

open Text (Blank Numeral SameIgnoringCase StripsTo)

/-- `s` is the word of `b`, in any case and with blanks around it. -/
def DenotesBoolean (s : String) (b : Bool) : Prop :=
  ∃ word, StripsTo s.toList word ∧ SameIgnoringCase (String.ofList word) (booleanText b)

/-- `s` is a numeral of the valid count `t`, with blanks around it. -/
def DenotesTicks (s : String) (t : Ticks) : Prop :=
  t.Valid ∧ ∃ numeral, StripsTo s.toList numeral ∧ Numeral numeral t.toInt

/-- What a text denotes as a value of a type. -/
inductive Denotes (s : String) : FieldType → FieldValue → Prop
  | string : Denotes s .string (.string s)
  | boolean {b : Bool} : DenotesBoolean s b → Denotes s .boolean (.boolean b)
  | ticks {t : Ticks} : DenotesTicks s t → Denotes s .ticks (.ticks t)

/-! ## Reading -/

theorem denotesBoolean_iff {s : String} {b : Bool} :
    DenotesBoolean s b ↔ SameIgnoringCase (Text.trim s) (booleanText b) := by
  simp only [DenotesBoolean, ← Text.strip_eq_iff, exists_eq_left', Text.trim]

/-- No text is both words. -/
theorem DenotesBoolean.unique {s : String} {b c : Bool} (hb : DenotesBoolean s b)
    (hc : DenotesBoolean s c) : b = c := by
  have same : SameIgnoringCase (booleanText b) (booleanText c) :=
    (denotesBoolean_iff.mp hb).symm.trans (denotesBoolean_iff.mp hc)
  revert same
  cases b <;> cases c <;> decide

/-- **The truth value that is read** is the one the text denotes. -/
theorem readBoolean_eq_some_iff {s : String} {b : Bool} :
    readBoolean s = some b ↔ DenotesBoolean s b := by
  have isTrue : DenotesBoolean s true ↔ SameIgnoringCase (Text.trim s) "true" := denotesBoolean_iff
  have isFalse : DenotesBoolean s false ↔ SameIgnoringCase (Text.trim s) "false" :=
    denotesBoolean_iff
  unfold readBoolean
  by_cases t : DenotesBoolean s true
  · rw [if_pos (isTrue.mp t), Option.some_inj]
    exact ⟨fun h => h ▸ t, t.unique⟩
  · rw [if_neg (isTrue.not.mp t)]
    by_cases f : DenotesBoolean s false
    · rw [if_pos (isFalse.mp f), Option.some_inj]
      exact ⟨fun h => h ▸ f, f.unique⟩
    · rw [if_neg (isFalse.not.mp f)]
      cases b <;> simp [t, f]

/-- **The tick count that is read** is the one the text denotes. -/
theorem readTicks_eq_some_iff {s : String} {t : Ticks} :
    readTicks s = some t ↔ DenotesTicks s t := by
  simp only [DenotesTicks, ← Text.strip_eq_iff, exists_eq_left', ← Text.readInt_eq_some_iff]
  unfold readTicks
  rw [Option.bind_eq_bind, Option.bind_eq_some_iff]
  constructor
  · rintro ⟨n, read, inRange⟩
    obtain ⟨bounds, ⟨⟩⟩ := Option.ite_none_right_eq_some.mp inRange
    have least : -2 ^ 63 ≤ n := by omega
    have greatest : n < 2 ^ 63 := by unfold Ticks.last at bounds; omega
    unfold Ticks.Valid
    rw [Int64.toInt_ofInt_of_le least greatest]
    exact ⟨bounds, read⟩
  · rintro ⟨valid, read⟩
    exact ⟨t.toInt, read, by rw [if_pos (And.intro valid.1 valid.2), Int64.ofInt_toInt]⟩

theorem denotes_boolean_iff {s : String} {v : FieldValue} :
    Denotes s .boolean v ↔ ∃ b, DenotesBoolean s b ∧ v = .boolean b := by
  constructor
  · rintro ⟨⟩
    rename_i b denotes
    exact ⟨b, denotes, rfl⟩
  · rintro ⟨b, denotes, rfl⟩
    exact .boolean denotes

theorem denotes_ticks_iff {s : String} {v : FieldValue} :
    Denotes s .ticks v ↔ ∃ t, DenotesTicks s t ∧ v = .ticks t := by
  constructor
  · rintro ⟨⟩
    rename_i t denotes
    exact ⟨t, denotes, rfl⟩
  · rintro ⟨t, denotes, rfl⟩
    exact .ticks denotes

theorem denotes_string_iff {s : String} {v : FieldValue} :
    Denotes s .string v ↔ v = .string s := by
  constructor
  · rintro ⟨⟩
    rfl
  · rintro rfl
    exact .string

/-- A value is read from the texts that denote it, and from no others. -/
theorem readValue_eq_ok_iff {name s : String} {type : FieldType} {v : FieldValue} :
    readValue name type s = .ok v ↔ Denotes s type v := by
  cases type with
  | string =>
    rw [denotes_string_iff, readValue]
    simp [eq_comm]
  | boolean =>
    simp only [denotes_boolean_iff, ← readBoolean_eq_some_iff, readValue]
    cases readBoolean s <;> simp [eq_comm]
  | ticks =>
    simp only [denotes_ticks_iff, ← readTicks_eq_some_iff, readValue]
    cases readTicks s <;> simp [eq_comm]

/-- What is told of a text that denotes nothing. -/
theorem readValue_boolean_eq_error_iff {name s : String} {e : GenerationError} :
    readValue name .boolean s = .error e ↔
      (∀ b, ¬ DenotesBoolean s b) ∧ e = .malformedBoolean name s := by
  simp only [← readBoolean_eq_some_iff, ← ne_eq, ← Option.eq_none_iff_forall_ne_some, readValue]
  cases readBoolean s <;> simp [eq_comm]

theorem readValue_ticks_eq_error_iff {name s : String} {e : GenerationError} :
    readValue name .ticks s = .error e ↔
      (∀ t, ¬ DenotesTicks s t) ∧ e = .malformedTicks name s := by
  simp only [← readTicks_eq_some_iff, ← ne_eq, ← Option.eq_none_iff_forall_ne_some, readValue]
  cases readTicks s <;> simp [eq_comm]

/-! ## Resolving -/

section

variable {name : String} (shown : ¬ Blank name)

include shown

theorem resolve_eq_readValue (type : FieldType) (value : String) (emit : Bool) :
    (⟨name, type.tag, value, emit⟩ : RawField).resolve =
      (readValue name type value).map fun v => ⟨name, v, emit⟩ := by
  have notBlank : ¬ Blank (⟨name, type.tag, value, emit⟩ : RawField).name := shown
  exact resolve_of_tag notBlank rfl

/-- **Which field a raw field stands for**, if its tag names a type. -/
theorem resolve_eq_ok_iff (type : FieldType) {value : String} {emit : Bool} {f : Field} :
    (⟨name, type.tag, value, emit⟩ : RawField).resolve = .ok f ↔
      ∃ v, Denotes value type v ∧ f = ⟨name, v, emit⟩ := by
  have read (v : FieldValue) : Denotes value type v ↔ readValue name type value = .ok v :=
    readValue_eq_ok_iff.symm
  rw [resolve_eq_readValue shown]
  simp only [read]
  cases readValue name type value <;> simp [Except.map, eq_comm]

theorem resolve_eq_error_iff (type : FieldType) {value : String} {emit : Bool}
    {e : GenerationError} :
    (⟨name, type.tag, value, emit⟩ : RawField).resolve = .error e ↔
      readValue name type value = .error e := by
  rw [resolve_eq_readValue shown]
  cases readValue name type value <;> simp [Except.map]

/-- A type that is spelled in another way is refused, and the error shows it as it was given. -/
theorem resolve_of_unknown_tag {tag : String} (unknown : tag ∉ FieldType.all.map FieldType.tag)
    (value : String) (emit : Bool) :
    (⟨name, tag, value, emit⟩ : RawField).resolve = .error (.invalidFieldType name tag) := by
  rw [resolve, if_neg shown, FieldType.ofTag?_eq_none_iff.mpr unknown]

/-- **What raw fields stand for.** Under a name that is not blank, a raw field of a known type
stands for the field of what its text denotes under that type: a string as it is, the word of a
truth value in any case, or the numeral of a valid tick count, the last two with blanks around them
or none. Any other text or tag is refused and told as it is. So the field of a string, of a truth
value or of a valid tick count stands for that value. -/
theorem resolve_denotes :
    (∀ (type : FieldType) (value : String) (emit : Bool) (f : Field),
        (⟨name, type.tag, value, emit⟩ : RawField).resolve = .ok f ↔
          ∃ v, Denotes value type v ∧ f = ⟨name, v, emit⟩) ∧
      (∀ value emit e, (⟨name, "Boolean", value, emit⟩ : RawField).resolve = .error e ↔
        (∀ b, ¬ DenotesBoolean value b) ∧ e = .malformedBoolean name value) ∧
      (∀ value emit e, (⟨name, "Ticks", value, emit⟩ : RawField).resolve = .error e ↔
        (∀ t, ¬ DenotesTicks value t) ∧ e = .malformedTicks name value) ∧
      (∀ tag value emit, tag ∉ ["String", "Boolean", "Ticks"] →
        (⟨name, tag, value, emit⟩ : RawField).resolve = .error (.invalidFieldType name tag)) ∧
      (∀ s, (string name s).resolve = .ok ⟨name, .string s, false⟩) ∧
      (∀ b, (boolean name b).resolve = .ok ⟨name, .boolean b, false⟩) ∧
      ∀ t : Ticks, (ticks name t).resolve =
        if 0 ≤ t.toInt ∧ t.toInt ≤ Ticks.last then .ok ⟨name, .ticks t, false⟩
        else .error (.malformedTicks name (ticksText t)) := by
  refine ⟨fun type value emit f => resolve_eq_ok_iff shown type, fun value emit e => ?_,
    fun value emit e => ?_, fun tag value emit unknown => ?_, fun s => ?_, fun b => ?_, fun t => ?_⟩
  · exact (resolve_eq_error_iff shown .boolean).trans readValue_boolean_eq_error_iff
  · exact (resolve_eq_error_iff shown .ticks).trans readValue_ticks_eq_error_iff
  · exact resolve_of_unknown_tag shown unknown value emit
  · exact (resolve_eq_ok_iff shown .string).mpr ⟨_, .string, rfl⟩
  · have denotes := readBoolean_eq_some_iff.mp (readBoolean_boolean b)
    exact (resolve_eq_ok_iff shown .boolean).mpr ⟨_, .boolean denotes, rfl⟩
  · exact resolve_ticks shown t

end

/-- Blanks of several kinds, signs and cases that are read, and texts close to them that are not. -/
theorem resolve_denotes_spaced :
    ¬ Blank "Built" ∧
      (⟨"Built", "Ticks", "\u3000-000\u0085", true⟩ : RawField).resolve =
        .ok ⟨"Built", .ticks 0, true⟩ ∧
      (⟨"Built", "Boolean", " tRUE\n", false⟩ : RawField).resolve =
        .ok ⟨"Built", .boolean true, false⟩ ∧
      (⟨"Built", "Ticks", "+ 5", false⟩ : RawField).resolve =
        .error (.malformedTicks "Built" "+ 5") ∧
      (⟨"Built", "ticks", "5", false⟩ : RawField).resolve =
        .error (.invalidFieldType "Built" "ticks") := by
  have shown : ¬ Blank "Built" := by decide
  obtain ⟨stands, -, refused, unknown, -⟩ := resolve_denotes shown
  have zero : DenotesTicks "\u3000-000\u0085" 0 := by
    refine ⟨by decide, ['-', '0', '0', '0'], Text.strip_eq_iff.mp (by decide), ?_⟩
    exact .minus (Text.digitRun_iff.mpr (by decide))
  have yes : DenotesBoolean " tRUE\n" true :=
    ⟨"tRUE".toList, Text.strip_eq_iff.mp (by decide), by decide⟩
  have apart : ∀ t, ¬ DenotesTicks "+ 5" t := fun t denotes => by
    rw [← readTicks_eq_some_iff] at denotes
    exact absurd denotes (by rw [show readTicks "+ 5" = none by decide]; exact nofun)
  exact ⟨shown, (stands .ticks _ true _).mpr ⟨_, .ticks zero, rfl⟩,
    (stands .boolean _ false _).mpr ⟨_, .boolean yes, rfl⟩, (refused _ _ _).mpr ⟨apart, rfl⟩,
    unknown _ _ _ (by decide)⟩

end VersionInfo.RawField
