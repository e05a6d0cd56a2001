/-!
# Instants and ticks

A tick is 100 ns, counted from 0001-01-01T00:00:00Z; the last valid count is the last tick of the
year 9999. An instant is a second of Unix time and the nanoseconds past it, where the last second
of a minute may carry a leap second.

* `Instant.ticks`: `ticks_from_datetime`, which counts in 64 bits and stays at the end of that range
  when it would leave it.
* `Instant.ofTicks?`: `datetime_from_ticks`, the instant of a valid count and nothing for any other.
* `Instant.isSome_ofTicks?`: exactly the valid counts have an instant.
-/

namespace VersionInfo

/-- A count of 100 ns intervals since 0001-01-01T00:00:00Z. -/
abbrev Ticks := Int64

namespace Ticks

/-- The ticks of one second. -/
def perSecond : Int := 10000000

/-- The count at 1970-01-01T00:00:00Z. -/
def unixEpoch : Int := 621355968000000000

/-- The count at 9999-12-31T23:59:59.9999999Z. -/
def last : Int := 3155378975999999999

/-- The counts of the years 1 to 9999. -/
def Valid (t : Ticks) : Prop := 0 ≤ t.toInt ∧ t.toInt ≤ last

instance (t : Ticks) : Decidable (Valid t) :=
  inferInstanceAs (Decidable (0 ≤ t.toInt ∧ t.toInt ≤ last))

/-- The count nearest to `n` that has 64 bits. -/
def saturate (n : Int) : Ticks := Int64.ofIntClamp n

end Ticks

namespace Instant

/-- The first second of any instant. -/
def firstSecond : Int := -8334601228800

/-- The last second of any instant. -/
def lastSecond : Int := 8210266876799

/-- Which seconds and nanoseconds make an instant; a leap second only ends a minute. -/
def Valid (secs : Int) (nanos : Nat) : Prop :=
  firstSecond ≤ secs ∧ secs ≤ lastSecond ∧
    (nanos < 1000000000 ∨ secs % 60 = 59 ∧ nanos < 2000000000)

instance (secs : Int) (nanos : Nat) : Decidable (Valid secs nanos) :=
  inferInstanceAs (Decidable (_ ∧ _ ∧ _))

end Instant

/-- A point in time: Unix seconds, and nanoseconds past them. -/
structure Instant where
  secs : Int
  nanos : Nat
  valid : Instant.Valid secs nanos
deriving DecidableEq

namespace Instant

/-- The instant of a second and nanoseconds, if they make one. -/
def ofParts? (secs nanos : Int) : Option Instant :=
  if h : 0 ≤ nanos ∧ Valid secs nanos.toNat then some ⟨secs, nanos.toNat, h.2⟩ else none

/-- The ticks up to an instant, each step kept within 64 bits. -/
def ticks (i : Instant) : Ticks :=
  let sinceUnix := Ticks.saturate (i.secs * Ticks.perSecond)
  let wholeSeconds := Ticks.saturate (sinceUnix.toInt + Ticks.unixEpoch)
  Ticks.saturate (wholeSeconds.toInt + (i.nanos / 100 : Nat))

/-- The Unix second in which tick `t` falls. -/
def secondOf (t : Ticks) : Int := (t.toInt - Ticks.unixEpoch) / Ticks.perSecond

/-- The nanoseconds from that second to tick `t`. -/
def nanosOf (t : Ticks) : Nat := ((t.toInt - Ticks.unixEpoch) % Ticks.perSecond * 100).toNat

/-- Ticks in range have their second and nanosecond within those of an instant, so `ofTicks?` can
build it. -/
theorem valid_of_ticks {t : Ticks} (h : t.Valid) : Valid (secondOf t) (nanosOf t) := by
  unfold Ticks.Valid Ticks.last at h
  unfold Valid firstSecond lastSecond secondOf nanosOf Ticks.perSecond Ticks.unixEpoch
  omega

/-- The instant of a valid tick count. -/
def ofTicks? (t : Ticks) : Option Instant :=
  if h : t.Valid then some ⟨secondOf t, nanosOf t, valid_of_ticks h⟩ else none

theorem isSome_ofTicks? (t : Ticks) : (ofTicks? t).isSome = true ↔ t.Valid := by
  unfold ofTicks?
  split <;> simp_all

end Instant

end VersionInfo
