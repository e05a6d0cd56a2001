import VersionInfo.Field.Raw

/-!
# Ticks of instants

The ticks up to an instant are counted in three steps, each kept within 64 bits. An instant can be
so far off that the count does not fit there, in either direction. A step that stays at the end of
the range never leads back to a valid count: the ticks are exact if the exact count is valid, and
not valid otherwise.

* `Ticks.toInt_saturate`: the count that a step is kept to.
* `Instant.ticks_eq_exactTicks`, `Instant.valid_ticks_iff`: when the ticks are exact.
* `RawField.resolve_ticks`: which counts a field can have.
* `Instant.resolve_timestamp`: the field of an instant, and which instant it denotes.
-/

namespace VersionInfo

open Text (Blank)

theorem Ticks.toInt_saturate (n : Int) :
    (saturate n).toInt = max (-9223372036854775808) (min n 9223372036854775807) := by
  have least : Int64.minValue.toInt = -9223372036854775808 := rfl
  have greatest : Int64.maxValue.toInt = 9223372036854775807 := rfl
  unfold saturate Int64.ofIntClamp
  split
  · split
    · rw [Int64.toInt_ofIntLE]
      omega
    · omega
  · omega

namespace Instant

/-- The ticks up to an instant, counted without bound. -/
def exactTicks (i : Instant) : Int :=
  i.secs * Ticks.perSecond + Ticks.unixEpoch + (i.nanos / 100 : Nat)

/-- **A count that is valid is exact**: no step was kept within 64 bits. -/
theorem ticks_eq_exactTicks {i : Instant} (h : 0 ≤ i.exactTicks ∧ i.exactTicks ≤ Ticks.last) :
    i.ticks.toInt = i.exactTicks := by
  obtain ⟨first, last, nanos⟩ := i.valid
  unfold firstSecond at first
  unfold lastSecond at last
  unfold exactTicks Ticks.last at h
  unfold ticks exactTicks
  simp only [Ticks.toInt_saturate]
  unfold Ticks.perSecond Ticks.unixEpoch at h ⊢
  omega

/-- **A step that is kept within 64 bits never leads to a valid count.** -/
theorem valid_ticks_iff (i : Instant) :
    i.ticks.Valid ↔ 0 ≤ i.exactTicks ∧ i.exactTicks ≤ Ticks.last := by
  refine ⟨fun valid => ?_, fun h => ?_⟩
  · obtain ⟨first, last, nanos⟩ := i.valid
    unfold Ticks.Valid ticks Ticks.last at valid
    simp only [Ticks.toInt_saturate] at valid
    unfold exactTicks Ticks.last
    unfold Ticks.perSecond Ticks.unixEpoch at valid ⊢
    omega
  · unfold Ticks.Valid
    rwa [ticks_eq_exactTicks h]

/-- The valid count of an instant denotes it cut down to a whole tick. A leap second has no count
of its own; it is carried into the seconds. -/
theorem ofTicks?_ticks {i : Instant} (h : 0 ≤ i.exactTicks ∧ i.exactTicks ≤ Ticks.last) :
    ∃ j : Instant, ofTicks? i.ticks = some j ∧ j.secs = i.secs + (i.nanos / 1000000000 : Nat) ∧
      j.nanos = i.nanos % 1000000000 / 100 * 100 := by
  have valid : i.ticks.Valid := (valid_ticks_iff i).mpr h
  have exact := ticks_eq_exactTicks h
  refine ⟨⟨secondOf i.ticks, nanosOf i.ticks, valid_of_ticks valid⟩, dif_pos valid, ?_, ?_⟩
  · change secondOf i.ticks = _
    unfold secondOf
    rw [exact]
    unfold exactTicks Ticks.perSecond Ticks.unixEpoch
    omega
  · change nanosOf i.ticks = _
    unfold nanosOf
    rw [exact]
    unfold exactTicks Ticks.perSecond Ticks.unixEpoch
    omega

end Instant

namespace RawField

theorem resolve_of_tag {raw : RawField} {type : FieldType} (shown : ¬ Blank raw.name)
    (tag : raw.type = type.tag) :
    raw.resolve =
      (readValue raw.name type raw.value).map fun v => ⟨raw.name, v, raw.emitIfEmpty⟩ := by
  unfold resolve
  rw [if_neg shown, FieldType.ofTag?_eq_some_iff.mpr tag.symm]
  rfl

/-- **A field can have the valid counts**, and no others. -/
theorem resolve_ticks {name : String} (shown : ¬ Blank name) (t : Ticks) :
    (ticks name t).resolve = if t.Valid then .ok ⟨name, .ticks t, false⟩
      else .error (.malformedTicks name (ticksText t)) := by
  have tag : (ticks name t).type = FieldType.ticks.tag := rfl
  have resolved := resolve_of_tag (show ¬ Blank (ticks name t).name from shown) tag
  change _ = (readValue name .ticks (ticksText t)).map _ at resolved
  rw [resolved, readValue, readTicks_ticks]
  by_cases valid : t.Valid
  · rw [if_pos valid, if_pos valid]
    rfl
  · rw [if_neg valid, if_neg valid]
    rfl

end RawField

/-- **The field of an instant.** The ticks up to an instant are the exact ones if those are valid,
and not valid otherwise. So the field of an instant, under any name that is not blank, stands for
the exact ticks or is refused for its ticks. What it stands for denotes the instant itself, cut down
to a whole tick; a leap second is carried into the seconds. -/
theorem Instant.resolve_timestamp (i : Instant) :
    (0 ≤ i.exactTicks ∧ i.exactTicks ≤ Ticks.last → i.ticks.toInt = i.exactTicks) ∧
      (¬ (0 ≤ i.exactTicks ∧ i.exactTicks ≤ Ticks.last) → ¬ i.ticks.Valid) ∧
      ∀ name, ¬ Blank name →
        ((∃ f, (RawField.timestamp name i).resolve = .ok f) ↔
          0 ≤ i.exactTicks ∧ i.exactTicks ≤ Ticks.last) ∧
        (∀ f, (RawField.timestamp name i).resolve = .ok f →
          f = ⟨name, .ticks i.ticks, false⟩ ∧ i.ticks.toInt = i.exactTicks ∧
            ∃ j : Instant, f.value.instant? = some j ∧
              j.secs = i.secs + (i.nanos / 1000000000 : Nat) ∧
              j.nanos = i.nanos % 1000000000 / 100 * 100) ∧
        (¬ (0 ≤ i.exactTicks ∧ i.exactTicks ≤ Ticks.last) →
          (RawField.timestamp name i).resolve =
            .error (.malformedTicks name (RawField.ticksText i.ticks))) := by
  refine ⟨ticks_eq_exactTicks, fun off valid => off ((valid_ticks_iff i).mp valid),
    fun name shown => ?_⟩
  have resolved : (RawField.timestamp name i).resolve = _ := RawField.resolve_ticks shown i.ticks
  rw [resolved, ← valid_ticks_iff]
  by_cases valid : i.ticks.Valid
  · have exact := (valid_ticks_iff i).mp valid
    rw [if_pos valid]
    refine ⟨iff_of_true ⟨_, rfl⟩ valid, ?_, fun off => absurd valid off⟩
    rintro f ⟨⟩
    exact ⟨rfl, ticks_eq_exactTicks exact, ofTicks?_ticks exact⟩
  · rw [if_neg valid]
    exact ⟨iff_of_false nofun valid, nofun, fun _ => rfl⟩

/-- The leap second at the end of the year 2016, half a second and 50 ns in. -/
def leapInstant : Instant := ⟨1483228799, 1500000050, by decide⟩

/-- A leap second at the end of the last year that has ticks. -/
def lastLeapInstant : Instant := ⟨253402300799, 1000000000, by decide⟩

theorem Instant.resolve_timestamp_leap :
    ¬ Blank "Built" ∧
      (∃ f j, (RawField.timestamp "Built" leapInstant).resolve = .ok f ∧
        f.value.instant? = some j ∧ j.secs = 1483228800 ∧ j.nanos = 500000000) ∧
      lastLeapInstant.exactTicks = Ticks.last + 1 ∧
      (RawField.timestamp "Built" lastLeapInstant).resolve =
        .error (.malformedTicks "Built" (RawField.ticksText lastLeapInstant.ticks)) := by
  have shown : ¬ Blank "Built" := by decide
  obtain ⟨-, -, leap⟩ := resolve_timestamp leapInstant
  obtain ⟨accepts, denotes, -⟩ := leap "Built" shown
  obtain ⟨f, resolves⟩ := accepts.mpr (by decide)
  obtain ⟨-, -, j, found, secs, nanos⟩ := denotes f resolves
  obtain ⟨-, -, last⟩ := resolve_timestamp lastLeapInstant
  exact ⟨shown, ⟨f, j, resolves, found, secs, nanos⟩, by decide,
    (last "Built" shown).2.2 (by decide)⟩

end VersionInfo
