/-
  Decimal/Double.lean --- double-precision numbers by their bits, and rounding to them.

  Apart from its sign a double is a magnitude: the natural number that its sixty-three lower bits
  write.  Magnitudes are ordered as the numbers they stand for, and rounding a ratio of natural
  numbers to the nearest double is exact arithmetic on them: with `2 ^ e` the distance between
  doubles near the ratio, the magnitude is `(e + 1074) * 2 ^ 52` plus the rounded quotient by
  `2 ^ e`, and a quotient that rounds up to `2 ^ 53` moves to the next exponent by itself.
-/

set_option autoImplicit false

namespace SwaggerRoutes.Decimal

/-! ## Magnitudes -/

/-- How many fractions there are: `2 ^ 52`.  The magnitudes of one exponent are as many. -/
def fractionCount : Nat := 0x10000000000000

/-- The word with the sign bit alone: `2 ^ 63`.  Magnitudes are smaller. -/
def signBit : Nat := 0x8000000000000000

/-- The magnitude of infinity; greater ones are no numbers. -/
def infinityMagnitude : Nat := 0x7FF * fractionCount

/-- A finite magnitude as `(m, q)`, for the number `m * 2 ^ q`. -/
def magnitudeParts (b : Nat) : Nat × Int :=
  let e : Nat := b / fractionCount
  let f : Nat := b % fractionCount
  if e = 0 then (f, -1074) else (f + fractionCount, (e : Int) - 1075)

/-- A finite magnitude as a ratio of natural numbers. -/
def magnitudeRatio (b : Nat) : Nat × Nat :=
  let (m, q) := magnitudeParts b
  if q < 0 then (m, Nat.pow 2 (-q).toNat) else (m * Nat.pow 2 q.toNat, 1)

/-- The whole number nearest to `num / den`; a half goes to the even neighbour. -/
def roundHalfEven (num den : Nat) : Nat :=
  let d := num / den
  let r := num % den
  if den < 2 * r ∨ (2 * r = den ∧ d % 2 = 1) then d + 1 else d

/-- The ratio `num / den` divided by `2 ^ e`, again as a ratio. -/
def shiftRatio (num den : Nat) (e : Int) : Nat × Nat :=
  if e < 0 then (num * Nat.pow 2 (-e).toNat, den) else (num, den * Nat.pow 2 e.toNat)

/-- The magnitude nearest to `num / den`; beyond the greatest finite one, infinity. -/
def roundRatio (num den : Nat) : Nat :=
  if num = 0 ∨ den = 0 then 0
  else
    let guess : Int := (num.log2 : Int) - (den.log2 : Int) - 52
    let (n, d) := shiftRatio num den guess
    let fits := if n / d < fractionCount then guess - 1 else guess
    let e := max fits (-1074)
    let (n, d) := shiftRatio num den e
    min infinityMagnitude ((e + 1074).toNat * fractionCount + roundHalfEven n d)

/-- The product of two finite magnitudes, rounded. -/
def timesMagnitude (a b : Nat) : Nat :=
  let (n, d) := magnitudeRatio a
  let (k, l) := magnitudeRatio b
  roundRatio (n * k) (d * l)

/-- The quotient of two finite magnitudes, rounded. -/
def overMagnitude (a b : Nat) : Nat :=
  let (n, d) := magnitudeRatio a
  let (k, l) := magnitudeRatio b
  roundRatio (n * l) (d * k)

/-- The magnitude nearest to `m * 10 ^ x`.  Exponents far outside the range of doubles are settled
by the number of digits alone. -/
def roundDecimal (m : Nat) (x : Int) : Nat :=
  let size := (Nat.toDigits 10 m).length + x
  if m = 0 then 0
  else if 400 < size then infinityMagnitude
  else if size < -400 then 0
  else if x < 0 then roundRatio m (Nat.pow 10 (-x).toNat)
  else roundRatio (m * Nat.pow 10 x.toNat) 1

/-! ## Doubles -/

/-- A double-precision number, by its bits. -/
structure Double where
  /-- Sign, exponent and fraction in one word. -/
  bits : UInt64
  deriving DecidableEq, Repr, Inhabited

namespace Double

/-- The double with a sign and a magnitude. -/
def ofMagnitude (negative : Bool) (b : Nat) : Double :=
  ⟨UInt64.ofNat ((if negative then signBit else 0) + b)⟩

/-- The bits without the sign. -/
def magnitude (d : Double) : Nat :=
  d.bits.toNat % signBit

/-- Whether the sign bit is set. -/
def isNegative (d : Double) : Bool :=
  signBit ≤ d.bits.toNat

/-- Neither infinite nor "not a number". -/
def isFinite (d : Double) : Bool :=
  d.magnitude < infinityMagnitude

/-- One of the bit patterns that stand for no number. -/
def isNaN (d : Double) : Bool :=
  infinityMagnitude < d.magnitude

/-- Positive or negative infinity. -/
def infinity (negative : Bool) : Double :=
  ofMagnitude negative infinityMagnitude

/-- The pattern that stands for "not a number". -/
def nan : Double :=
  ofMagnitude false (infinityMagnitude + fractionCount / 2)

end Double

end SwaggerRoutes.Decimal
