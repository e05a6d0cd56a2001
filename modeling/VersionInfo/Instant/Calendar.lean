import VersionInfo.Instant.Basic
import VersionInfo.Text.Integer

/-!
# Calendar text of instants

An instant is written as `YYYY-MM-DDTHH:MM:SS`, a fraction of three, six or nine digits when there
is one, and the offset `+00:00`. The date is that of the Gregorian calendar, which is taken back to
the year 1.
-/

namespace VersionInfo

/-- A day of the Gregorian calendar. -/
structure Date where
  year : Int
  month : Nat
  day : Nat
deriving DecidableEq

/-- The date a number of days after 1970-01-01. Years are counted from the first of March, so that
a leap day is the last day of its year; 400 years have 146097 days. -/
def Date.ofDays (days : Int) : Date :=
  let shifted := days + 719468
  let cycle := shifted / 146097
  let dayOfCycle := (shifted % 146097).toNat
  let yearOfCycle :=
    (dayOfCycle - dayOfCycle / 1460 + dayOfCycle / 36524 - dayOfCycle / 146096) / 365
  let dayOfYear := dayOfCycle - (365 * yearOfCycle + yearOfCycle / 4 - yearOfCycle / 100)
  let monthFromMarch := (5 * dayOfYear + 2) / 153
  let day := dayOfYear - (153 * monthFromMarch + 2) / 5 + 1
  let month := if monthFromMarch < 10 then monthFromMarch + 3 else monthFromMarch - 9
  ⟨cycle * 400 + yearOfCycle + (if month ≤ 2 then 1 else 0), month, day⟩

namespace Instant

open Text (writePadded)

/-- The fraction of a second, in the fewest of three, six or nine digits that is exact. -/
def fractionText (nanos : Nat) : List Char :=
  if nanos = 0 then []
  else if nanos % 1000000 = 0 then '.' :: writePadded 3 (nanos / 1000000)
  else if nanos % 1000 = 0 then '.' :: writePadded 6 (nanos / 1000)
  else '.' :: writePadded 9 nanos

/-- The instant as calendar text; a leap second is written as second 60. -/
def calendarText (i : Instant) : String :=
  let date := Date.ofDays (i.secs / 86400)
  let second := (i.secs % 86400).toNat
  String.ofList
    (writePadded 4 date.year.toNat ++ '-' :: writePadded 2 date.month ++ '-' ::
      writePadded 2 date.day ++ 'T' :: writePadded 2 (second / 3600) ++ ':' ::
      writePadded 2 (second / 60 % 60) ++ ':' ::
      writePadded 2 (second % 60 + i.nanos / 1000000000) ++
      fractionText (i.nanos % 1000000000) ++ "+00:00".toList)

end Instant

end VersionInfo
