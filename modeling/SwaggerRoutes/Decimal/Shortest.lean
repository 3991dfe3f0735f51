/-
  Decimal/Shortest.lean --- the fewest decimal digits that read back as the same double.

  The reals that round to a double form an interval around it; its ends belong to it when the
  fraction is even.  On the grid of decimals with one, two, … digits the two neighbours of the
  double are tried; the first grid with a neighbour inside the interval wins, of two neighbours the
  nearer one, and of two equally near the even one.  If any point of a grid lies inside the
  interval then one of the two neighbours does, so no shorter decimal reads back.
-/
import SwaggerRoutes.Decimal.Double

set_option autoImplicit false

namespace SwaggerRoutes.Decimal

/-- The decimal `digits * 10 ^ exponent`. -/
structure Scaled where
  digits : Nat
  exponent : Int
  deriving DecidableEq, Repr

/-- The least power of ten above `num / den`, by its exponent. -/
def magnitudeOrder (num den : Nat) : Int :=
  let guess : Int := (Nat.toDigits 10 num).length - (Nat.toDigits 10 den).length
  let reaches :=
    if guess < 0 then decide (den ≤ num * Nat.pow 10 (-guess).toNat)
    else decide (den * Nat.pow 10 guess.toNat ≤ num)
  if reaches then guess + 1 else guess

/-- Whether `c` lies in the interval of the ratio `num / den = m` (in units of the last place)
that reaches `below` quarters of a unit down and two quarters up. -/
def insideInterval (m below num den c : Nat) : Bool :=
  let closed := m % 2 = 0
  let low := num * (4 * m - below)
  let high := num * (4 * m + 2)
  let here := c * den * (4 * m)
  if closed then decide (low ≤ here) && decide (here ≤ high)
  else decide (low < here) && decide (here < high)

/-- The candidate with a given number of digits, if one reads back. -/
def candidateOfLength? (b : Nat) (count : Nat) : Option Scaled :=
  let (m, _) := magnitudeParts b
  let (num, den) := magnitudeRatio b
  let below := if m = fractionCount ∧ 2 * fractionCount ≤ b then 1 else 2
  let exponent := magnitudeOrder num den - count
  let (n, d) :=
    if exponent < 0 then (num * Nat.pow 10 (-exponent).toNat, den)
    else (num, den * Nat.pow 10 exponent.toNat)
  let lower := n / d
  let upper := lower + 1
  let lowerFits := insideInterval m below n d lower
  let upperFits := insideInterval m below n d upper
  let down := n - lower * d
  let up := upper * d - n
  let nearer := if down < up then lower else if up < down then upper
    else if lower % 2 = 0 then lower else upper
  if lowerFits && upperFits then some ⟨nearer, exponent⟩
  else if lowerFits then some ⟨lower, exponent⟩
  else if upperFits then some ⟨upper, exponent⟩
  else none

/-- A decimal without zeros at the end of its digits; `fuel` bounds the zeros removed. -/
def Scaled.withoutZeros (s : Scaled) : Nat → Scaled
  | 0 => s
  | fuel + 1 =>
    if s.digits ≠ 0 ∧ s.digits % 10 = 0 then
      Scaled.withoutZeros ⟨s.digits / 10, s.exponent + 1⟩ fuel
    else s

/-- The shortest decimal that reads back as a finite magnitude.  Seventeen digits always do. -/
def shortest (b : Nat) : Scaled :=
  if b = 0 then ⟨0, 0⟩
  else
    let found := (List.range 17).findSome? fun i => candidateOfLength? b (i + 1)
    (found.getD ⟨0, 0⟩).withoutZeros 20

end SwaggerRoutes.Decimal
