import Mathlib.Data.Prod.Lex
import VersionInfo.Instant.Calendar
import VersionInfo.Proofs.Instant.Ticks

/-!
# Order of instants

The valid counts and the instants they denote stand in the same order. Half of the counts lie before
1970. The second such a count falls in is found by rounding down, not towards 1970, so the
nanoseconds past it are never negative and the order is kept there as well.

* `Instant.lt_iff`: of two instants one is earlier by its second, or else by its nanoseconds.
* `Instant.partsInWords?_eq`: the steps to an instant all fit their machine words.
* `Instant.ofTicks?_eq_some_iff`: which count denotes an instant.
* `Instant.lt_iff_exactTicks_lt`: ticks are counted in the order of time.
* `Instant.ofTicks?_order_iso`: counts and instants correspond.
-/

namespace VersionInfo.Instant

@[ext]
theorem ext {i j : Instant} (secs : i.secs = j.secs) (nanos : i.nanos = j.nanos) : i = j := by
  cases i
  cases j
  cases secs
  cases nanos
  rfl

instance : LinearOrder Instant :=
  LinearOrder.lift' (fun i : Instant => toLex (i.secs, i.nanos)) fun i j same => by
    obtain ⟨secs, nanos⟩ := Prod.mk.inj (toLex.injective same)
    exact ext secs nanos

theorem lt_iff {i j : Instant} : i < j ↔ i.secs < j.secs ∨ i.secs = j.secs ∧ i.nanos < j.nanos :=
  Prod.Lex.toLex_lt_toLex

theorem le_iff {i j : Instant} : i ≤ j ↔ i.secs < j.secs ∨ i.secs = j.secs ∧ i.nanos ≤ j.nanos :=
  Prod.Lex.toLex_le_toLex

/-! ## Machine words -/

/-- A number, if a signed word of 64 bits holds it. -/
def word64? (n : Int) : Option Int :=
  if -9223372036854775808 ≤ n ∧ n ≤ 9223372036854775807 then some n else none

/-- A number, if an unsigned word of 32 bits holds it. -/
def word32? (n : Int) : Option Nat :=
  if 0 ≤ n ∧ n ≤ 4294967295 then some n.toNat else none

/-- The second and the nanoseconds of a count, if no step on the way leaves its word. -/
def partsInWords? (t : Ticks) : Option (Int × Nat) := do
  let sinceUnix ← word64? (t.toInt - Ticks.unixEpoch)
  let second ← word64? (sinceUnix / Ticks.perSecond)
  let within ← word64? (sinceUnix % Ticks.perSecond)
  let wide ← word64? (within * 100)
  let nanos ← word32? wide
  return (second, nanos)

theorem word64?_eq {n : Int} (h : -9223372036854775808 ≤ n ∧ n ≤ 9223372036854775807) :
    word64? n = some n := if_pos h

theorem word32?_eq {n : Int} (h : 0 ≤ n ∧ n ≤ 4294967295) : word32? n = some n.toNat := if_pos h

/-- **No step leaves its word** on the way from a valid count. -/
theorem partsInWords?_eq {t : Ticks} (valid : t.Valid) :
    partsInWords? t = some (secondOf t, nanosOf t) := by
  unfold Ticks.Valid Ticks.last at valid
  have sinceUnix : word64? (t.toInt - Ticks.unixEpoch) = some (t.toInt - Ticks.unixEpoch) :=
    word64?_eq (by unfold Ticks.unixEpoch; omega)
  have second : word64? ((t.toInt - Ticks.unixEpoch) / Ticks.perSecond) = some (secondOf t) :=
    word64?_eq (by unfold Ticks.unixEpoch Ticks.perSecond; omega)
  have within : word64? ((t.toInt - Ticks.unixEpoch) % Ticks.perSecond) =
      some ((t.toInt - Ticks.unixEpoch) % Ticks.perSecond) :=
    word64?_eq (by unfold Ticks.perSecond; omega)
  have wide : word64? ((t.toInt - Ticks.unixEpoch) % Ticks.perSecond * 100) =
      some ((t.toInt - Ticks.unixEpoch) % Ticks.perSecond * 100) :=
    word64?_eq (by unfold Ticks.perSecond; omega)
  have nanos : word32? ((t.toInt - Ticks.unixEpoch) % Ticks.perSecond * 100) = some (nanosOf t) :=
    word32?_eq (by unfold Ticks.perSecond; omega)
  simp only [partsInWords?, sinceUnix, second, within, wide, nanos, Option.bind_eq_bind,
    Option.bind_some, Option.pure_def]

/-! ## Counts of instants -/

/-- The first instant of the year 1. -/
def earliest : Instant := ⟨-62135596800, 0, by decide⟩

/-- The last tick of the year 9999. -/
def latest : Instant := ⟨253402300799, 999999900, by decide⟩

/-- An instant on a tick of the years 1 to 9999, in no leap second. -/
structure OnTick (i : Instant) : Prop where
  notLeap : i.nanos < 1000000000
  aligned : i.nanos % 100 = 0
  earliest_le : earliest ≤ i
  le_latest : i ≤ latest

/-- An instant on a tick lies between the first second of year 1 and the last of year 9999. -/
theorem OnTick.secs_bounds {i : Instant} (h : i.OnTick) :
    -62135596800 ≤ i.secs ∧ i.secs ≤ 253402300799 := by
  have below := le_iff.mp h.earliest_le
  have above := le_iff.mp h.le_latest
  simp only [earliest, latest] at below above
  omega

/-- The exact ticks of an instant on a tick are within the range of ticks, so they are not
saturated. -/
theorem OnTick.exactTicks_bounds {i : Instant} (h : i.OnTick) :
    0 ≤ i.exactTicks ∧ i.exactTicks ≤ Ticks.last := by
  obtain ⟨below, above⟩ := h.secs_bounds
  have notLeap := h.notLeap
  unfold exactTicks Ticks.perSecond Ticks.unixEpoch Ticks.last
  omega

theorem ofTicks?_eq_none_iff {t : Ticks} : ofTicks? t = none ↔ ¬ t.Valid := by
  rw [← isSome_ofTicks?, Bool.not_eq_true, Option.isSome_eq_false_iff, Option.isNone_iff_eq_none]

theorem parts_of_ofTicks? {t : Ticks} {i : Instant} (h : ofTicks? t = some i) :
    t.Valid ∧ i.secs = secondOf t ∧ i.nanos = nanosOf t := by
  unfold ofTicks? at h
  split at h
  · rename_i valid
    cases h
    exact ⟨valid, rfl, rfl⟩
  · cases h

/-- The instant of some ticks lies on a tick. -/
theorem onTick_of_ofTicks? {t : Ticks} {i : Instant} (h : ofTicks? t = some i) : i.OnTick := by
  obtain ⟨valid, secs, nanos⟩ := parts_of_ofTicks? h
  unfold Ticks.Valid Ticks.last at valid
  unfold secondOf Ticks.perSecond Ticks.unixEpoch at secs
  unfold nanosOf Ticks.perSecond Ticks.unixEpoch at nanos
  refine ⟨by omega, by omega, le_iff.mpr ?_, le_iff.mpr ?_⟩
  · simp only [earliest]
    omega
  · simp only [latest]
    omega

theorem ticks_of_ofTicks? {t : Ticks} {i : Instant} (h : ofTicks? t = some i) : i.ticks = t := by
  obtain ⟨-, secs, nanos⟩ := parts_of_ofTicks? h
  have exact := ticks_eq_exactTicks (onTick_of_ofTicks? h).exactTicks_bounds
  apply Int64.toInt_inj.mp
  rw [exact]
  unfold secondOf at secs
  unfold nanosOf at nanos
  unfold exactTicks
  unfold Ticks.perSecond Ticks.unixEpoch at *
  omega

/-- **Which count denotes an instant**: the ticks up to it, if it is on a tick. -/
theorem ofTicks?_eq_some_iff {t : Ticks} {i : Instant} :
    ofTicks? t = some i ↔ i.OnTick ∧ i.ticks = t := by
  refine ⟨fun h => ⟨onTick_of_ofTicks? h, ticks_of_ofTicks? h⟩, ?_⟩
  rintro ⟨onTick, rfl⟩
  obtain ⟨j, found, secs, nanos⟩ := ofTicks?_ticks onTick.exactTicks_bounds
  have notLeap := onTick.notLeap
  have aligned := onTick.aligned
  have same : j = i := ext (by omega) (by omega)
  rw [found, same]

/-- **Ticks are counted in the order of time.** -/
theorem lt_iff_exactTicks_lt {i j : Instant} (hi : i.OnTick) (hj : j.OnTick) :
    i < j ↔ i.exactTicks < j.exactTicks := by
  obtain ⟨iLeap, iAligned, -, -⟩ := hi
  obtain ⟨jLeap, jAligned, -, -⟩ := hj
  rw [lt_iff]
  unfold exactTicks Ticks.perSecond
  omega

/-- **Counts and instants correspond.** Exactly the valid counts denote an instant, with no step on
the way leaving its word. It lies in no leap second and on a tick, and the ticks up to it are that
count. A smaller count denotes an earlier instant, and every instant that lies on a tick, in no leap
second and in the years 1 to 9999 is denoted by a count. -/
theorem ofTicks?_order_iso :
    (∀ t : Ticks, ofTicks? t = none ↔ ¬ (0 ≤ t.toInt ∧ t.toInt ≤ Ticks.last)) ∧
      (∀ t : Ticks, 0 ≤ t.toInt → t.toInt ≤ Ticks.last →
        ∃ i, ofTicks? t = some i ∧ partsInWords? t = some (i.secs, i.nanos) ∧
          i.nanos < 1000000000 ∧ i.nanos % 100 = 0 ∧ earliest ≤ i ∧ i ≤ latest ∧ i.ticks = t) ∧
      (∀ t u i j, ofTicks? t = some i → ofTicks? u = some j → (t < u ↔ i < j)) ∧
      (∀ i : Instant, i.nanos < 1000000000 → i.nanos % 100 = 0 → earliest ≤ i → i ≤ latest →
        ∃ t, ofTicks? t = some i) ∧
      earliest.calendarText = "0001-01-01T00:00:00+00:00" ∧
      latest.calendarText = "9999-12-31T23:59:59.999999900+00:00" := by
  refine ⟨fun t => ofTicks?_eq_none_iff, fun t first last => ?_, fun t u i j ht hu => ?_,
    fun i notLeap aligned first last => ?_, by decide +kernel, by decide +kernel⟩
  · obtain ⟨i, found⟩ := Option.isSome_iff_exists.mp ((isSome_ofTicks? t).mpr ⟨first, last⟩)
    obtain ⟨valid, secs, nanos⟩ := parts_of_ofTicks? found
    obtain ⟨onTick, ticks⟩ := ofTicks?_eq_some_iff.mp found
    refine ⟨i, found, ?_, onTick.notLeap, onTick.aligned, onTick.earliest_le, onTick.le_latest,
      ticks⟩
    rw [partsInWords?_eq valid, secs, nanos]
  · obtain ⟨hi, rfl⟩ := ofTicks?_eq_some_iff.mp ht
    obtain ⟨hj, rfl⟩ := ofTicks?_eq_some_iff.mp hu
    rw [lt_iff_exactTicks_lt hi hj, Int64.lt_iff_toInt_lt, ticks_eq_exactTicks hi.exactTicks_bounds,
      ticks_eq_exactTicks hj.exactTicks_bounds]
  · exact ⟨i.ticks, ofTicks?_eq_some_iff.mpr ⟨⟨notLeap, aligned, first, last⟩, rfl⟩⟩

/-- The last tick before 1970 and the first behind it, and the first tick that is out of range. -/
theorem ofTicks?_order_iso_around_1970 :
    ∃ i j, ofTicks? 621355967999999999 = some i ∧ ofTicks? 621355968000000000 = some j ∧
      i.secs = -1 ∧ i.nanos = 999999900 ∧ i.ticks = 621355967999999999 ∧ i < j ∧
      ofTicks? 3155378976000000000 = none ∧ ∃ t, ofTicks? t = some latest := by
  obtain ⟨refused, denotes, order, covers, -⟩ := ofTicks?_order_iso
  obtain ⟨i, hi, parts, -, -, -, -, ticks⟩ := denotes 621355967999999999 (by decide) (by decide)
  obtain ⟨j, hj, -⟩ := denotes 621355968000000000 (by decide) (by decide)
  have same : partsInWords? 621355967999999999 = some (-1, 999999900) := by decide
  obtain ⟨secs, nanos⟩ := Prod.mk.inj (Option.some.inj (parts.symm.trans same))
  refine ⟨i, j, hi, hj, secs, nanos, ticks, (order _ _ i j hi hj).mp (by decide),
    (refused _).mpr (by decide), covers latest (by decide) (by decide) ?_ le_rfl⟩
  exact le_iff.mpr (Or.inl (by decide))

end VersionInfo.Instant
