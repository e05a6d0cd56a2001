/-!
# Sets of code points

A set of characters is a list of closed ranges of code points, and `CodePoints.contains` asks
whether a character lies in one of them.
-/

namespace VersionInfo.Text

/-- A set of code points: closed ranges, first and last. -/
abbrev CodePoints := List (Nat × Nat)

/-- Whether the code point of `c` lies in one of the ranges. -/
def CodePoints.contains (set : CodePoints) (c : Char) : Bool :=
  set.any fun range => range.1 ≤ c.toNat && c.toNat ≤ range.2

end VersionInfo.Text
