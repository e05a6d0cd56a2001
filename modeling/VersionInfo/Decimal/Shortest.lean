import VersionInfo.Decimal.Binary64

/-!
# The shortest decimal of a floating point number

Among the decimals that are nearest to a number `x` rather than to any other, the shortest is the
one on the coarsest grid of powers of ten, and of two on that grid the nearer to `x`. A format
says where the point of a positional text may stand; other numbers are written with an exponent.
-/

namespace VersionInfo.Decimal

/-- Where positional text ends. The point position counts the digits in front of the point; it is
zero or less for a number below 0.1. -/
structure NumberFormat where
  /-- The least point position that is written without exponent. -/
  leastPoint : Int
  /-- The greatest point position that is written without exponent. -/
  greatestPoint : Int

namespace Binary64

/-- The multiple of `10 ^ j` that is nearest to `x`, as its factor, if it reads back as `x`. Lengths
are measured in quarters of the last binary place; the numbers that read back end half a place from
`x`, or a quarter below it where the places get finer, and the ends count for an even mantissa. -/
def onGrid? (x : Binary64) (j : Int) : Option Nat :=
  let step := Nat.pow 10 j.toNat <<< (2 - x.exponent).toNat
  let quarter := Nat.pow 10 (-j).toNat <<< (x.exponent - 2).toNat
  let value := 4 * x.mantissa * quarter
  let finer := x.mantissa = leastFull ∧ leastExponent < x.exponent
  let low := value - (if finer then quarter else 2 * quarter)
  let high := value + 2 * quarter
  let readsBack := fun n =>
    if x.mantissa % 2 = 0 then decide (low ≤ n * step ∧ n * step ≤ high)
    else decide (low < n * step ∧ n * step < high)
  let below := value / step
  let nearest := roundDiv value step
  if readsBack nearest then some nearest
  else if readsBack below then some below
  else if readsBack (below + 1) then some (below + 1)
  else none

/-- Factor and exponent of the shortest decimal of a positive number: the grids from 10^308 to
10^-324 are tried in turn. -/
def shortest (x : Binary64) : Nat × Int :=
  ((List.range 633).findSome? fun (i : Nat) =>
    let j : Int := 308 - i
    (onGrid? x j).map fun n => (n, j)).getD (0, 0)

end Binary64

/-- The digits of a number whose point stands after `point` of them, with a fraction. -/
def positional (digits : List Char) (point : Int) : List Char :=
  if point ≤ 0 then '0' :: '.' :: List.replicate (-point).toNat '0' ++ digits
  else if digits.length ≤ point.toNat then
    digits ++ List.replicate (point.toNat - digits.length) '0' ++ ['.', '0']
  else digits.take point.toNat ++ '.' :: digits.drop point.toNat

/-- The digits with the point after the first, and the power of ten that makes up for it. -/
def scientific (digits : List Char) (point : Int) : List Char :=
  let fraction := digits.drop 1
  digits.take 1 ++ (if fraction = [] then [] else '.' :: fraction) ++ 'e' ::
    (if point ≤ 0 then '-' else '+') :: Text.writeNat (point - 1).natAbs

/-- The text of a number in a format. -/
def NumberFormat.text (format : NumberFormat) (x : Binary64) : List Char :=
  let magnitude :=
    if x.mantissa = 0 then ['0', '.', '0']
    else
      let (factor, exponent) := x.shortest
      let digits := Text.writeNat factor
      let point := digits.length + exponent
      if format.leastPoint ≤ point ∧ point ≤ format.greatestPoint then positional digits point
      else scientific digits point
  if x.negative then '-' :: magnitude else magnitude

end VersionInfo.Decimal
