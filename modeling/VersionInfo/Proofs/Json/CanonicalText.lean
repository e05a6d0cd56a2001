import VersionInfo.Proofs.Json.Compact
import VersionInfo.Proofs.Json.ValueReading

/-!
# Canonical text

The canonical text of a value is the text of its canonical value. It is read back as that value, so
two values have one canonical text exactly when they are the same.

* `read_canonicalText`: the canonical text is read back.
* `canonicalText_eq_iff_same`: what canonical texts tell of the values that are read.
-/

namespace VersionInfo.Json

namespace Value

/-- A value as it is read from a text, without floating point numbers. -/
structure Readable (v : Value) : Prop where
  nested : v.Nested depthLimit
  plain : v.Plain

/-- A value that was read is in range and not nested too deep, so its canonical text is read again.
-/
theorem readable_of_text {s : String} {v : Value} (read : reader.text s = .ok v)
    (noFloat : v.NoFloat) : v.Readable := by
  obtain ⟨rest, run, -⟩ := Reader.text_eq_ok_iff.mp read
  obtain ⟨nested, inRange⟩ := run_within run
  exact ⟨nested, noFloat, inRange⟩

theorem Readable.canonical {v : Value} (h : v.Readable) : v.canonical.Readable :=
  ⟨h.nested.canonical, h.plain.noFloat.canonical, h.plain.inRange.canonical⟩

/-- **The canonical text is read back** as the canonical value. -/
theorem read_canonicalText {v : Value} (h : v.Readable) :
    reader.text v.canonicalText = .ok v.canonical :=
  (gives_within h.canonical.nested h.canonical.plain).text

theorem canonicalText_eq_iff {v w : Value} (hv : v.Readable) (hw : w.Readable) :
    v.canonicalText = w.canonicalText ↔ v.Same w := by
  rw [← canonical_eq_iff]
  constructor
  · intro same
    have read := read_canonicalText hv
    rw [same, read_canonicalText hw] at read
    exact (Except.ok.inj read).symm
  · intro same
    unfold canonicalText
    rw [same]

theorem compact_canonicalText {v : Value} (noFloat : v.NoFloat) :
    Compact v.canonicalText.toList := by
  have compact := compact_text noFloat.canonical compact_nil
  rw [List.append_nil] at compact
  rwa [canonicalText, String.toList_ofList]

end Value

/-- **Canonical texts tell values apart as maps.** The values of two texts, read without floating
point numbers, have one canonical text exactly when they are the same, whatever the order of
members and with the last of repeated keys. The canonical text is read back as the same value, now
with the keys of every object in ascending order; that value has the same canonical text. Outside
strings the text holds no blank characters. -/
theorem canonicalText_eq_iff_same {s t : String} {v w : Value}
    (readV : Value.reader.text s = .ok v) (readW : Value.reader.text t = .ok w)
    (noFloatV : v.NoFloat) (noFloatW : w.NoFloat) :
    (v.canonicalText = w.canonicalText ↔ v.Same w) ∧
      ∃ u, Value.reader.text v.canonicalText = .ok u ∧ u.Same v ∧ u.Ordered ∧
        u.canonicalText = v.canonicalText ∧ Compact v.canonicalText.toList := by
  have readableV := Value.readable_of_text readV noFloatV
  have readableW := Value.readable_of_text readW noFloatW
  refine ⟨Value.canonicalText_eq_iff readableV readableW, v.canonical,
    Value.read_canonicalText readableV, v.same_canonical, v.ordered_canonical, ?_,
    Value.compact_canonicalText noFloatV⟩
  rw [Value.canonicalText_eq_iff readableV.canonical readableV]
  exact v.same_canonical

/-- Members in some order, with a repeated key. -/
def shuffledValue : Value :=
  .object [("b", .boolean true), ("a", .array [.object [("y", .null), ("x", .string " \"")]]),
    ("b", .integer (-5))]

/-- Members in ascending order. -/
def orderedValue : Value :=
  .object [("a", .array [.object [("x", .string " \""), ("y", .null)]]), ("b", .integer (-5))]

/-- An object with a repeated key and shuffled members, and the ordered object that is the same. -/
theorem canonicalText_eq_iff_same_shuffled :
    Value.reader.text (String.ofList shuffledValue.text) = .ok shuffledValue ∧
      Value.reader.text (String.ofList orderedValue.text) = .ok orderedValue ∧
      shuffledValue.NoFloat ∧ orderedValue.NoFloat ∧ shuffledValue.Same orderedValue := by
  have least : IntegerRange (-5) := ⟨by decide, by decide⟩
  have shuffled : shuffledValue.Readable :=
    ⟨by simp [shuffledValue, Value.depthLimit], by simp [shuffledValue, least]⟩
  have ordered : orderedValue.Readable :=
    ⟨by simp [orderedValue, Value.depthLimit], by simp [orderedValue, least]⟩
  have readS := (Value.gives_within shuffled.nested shuffled.plain).text
  have readO := (Value.gives_within ordered.nested ordered.plain).text
  have same : shuffledValue.canonicalText = orderedValue.canonicalText := by decide +kernel
  exact ⟨readS, readO, shuffled.plain.noFloat, ordered.plain.noFloat,
    (canonicalText_eq_iff_same readS readO shuffled.plain.noFloat ordered.plain.noFloat).1.mp same⟩

end VersionInfo.Json
