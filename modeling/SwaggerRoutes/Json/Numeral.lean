/-
  Json/Numeral.lean --- numbers as JSON texts write them, and what they stand for.

  Digits are gathered into a significand while it stays below `2 ^ 64`; later digits only move the
  point.  A numeral without fraction and exponent whose digits all fit is an integer.  Any other one
  is a double: the significand, rounded, times or over a power of ten, rounded again.  So the double
  need not be the one nearest to the decimal, and a numeral beyond the greatest double stands for no
  number.
-/
import SwaggerRoutes.Decimal.Number

set_option autoImplicit false

namespace SwaggerRoutes.Json

open Decimal Text

/-- The parts of a number in a text. -/
structure Numeral where
  /-- Whether a minus sign stands in front. -/
  negative : Bool
  /-- The digits before the point. -/
  whole : List Char
  /-- The digits after the point, if there is one. -/
  fraction : Option (List Char)
  /-- The exponent, if there is one: whether it is negative, and its digits. -/
  exponent : Option (Bool × List Char)
  deriving DecidableEq, Repr

namespace Numeral

/-! ## Reading -/

/-- The digits in front of a text and what follows them. -/
def spanDigits (cs : List Char) : List Char × List Char :=
  cs.span Char.isDigit

/-- The digits before the point: a single zero, or digits that do not start with one. -/
def readWhole (cs : List Char) : Option (List Char × List Char) :=
  match spanDigits cs with
  | ([], _) => none
  | (['0'], rest) => some (['0'], rest)
  | ('0' :: _, _) => none
  | found => some found

/-- The point and the digits after it, at least one, if there is a point. -/
def readFraction : List Char → Option (Option (List Char) × List Char)
  | '.' :: cs =>
    match spanDigits cs with
    | ([], _) => none
    | (ds, rest) => some (some ds, rest)
  | cs => some (none, cs)

/-- The digits of an exponent, at least one, after its sign. -/
def readExponentDigits (negative : Bool) (cs : List Char) :
    Option (Option (Bool × List Char) × List Char) :=
  match spanDigits cs with
  | ([], _) => none
  | (ds, rest) => some (some (negative, ds), rest)

/-- The exponent, if the letter for one follows. -/
def readExponent : List Char → Option (Option (Bool × List Char) × List Char)
  | c :: cs =>
    if c = 'e' ∨ c = 'E' then
      match cs with
      | '-' :: cs => readExponentDigits true cs
      | '+' :: cs => readExponentDigits false cs
      | cs => readExponentDigits false cs
    else some (none, c :: cs)
  | [] => some (none, [])

/-- The numeral in front of a text, and what follows it. -/
def read (cs : List Char) : Option (Numeral × List Char) := do
  let (negative, cs) := match cs with
    | '-' :: cs => (true, cs)
    | cs => (false, cs)
  let (whole, cs) ← readWhole cs
  let (fraction, cs) ← readFraction cs
  let (exponent, cs) ← readExponent cs
  pure (⟨negative, whole, fraction, exponent⟩, cs)

/-! ## Values -/

/-- Gathers digits behind a significand as long as it stays below `2 ^ 64`, and returns the digits
that are left. -/
def gather (significand : Nat) : List Char → Nat × List Char
  | [] => (significand, [])
  | d :: ds =>
    let next := significand * 10 + (d.toNat - '0'.toNat)
    if next < Number.positiveBound then gather next ds else (significand, d :: ds)

/-- The magnitude of `10 ^ k`, rounded. -/
def powerOfTen (k : Nat) : Nat :=
  roundRatio (Nat.pow 10 k) 1

/-- The magnitude of `significand * 10 ^ e`, rounded at each step; none when it is infinite.  A
power of ten below `10 ^ -308` is divided by in two steps. -/
def scale (significand : Nat) (e : Int) : Option Nat :=
  let m := roundRatio significand 1
  if 308 < e then (if significand = 0 then some 0 else none)
  else if 0 ≤ e then
    let r := timesMagnitude m (powerOfTen e.toNat)
    if r < infinityMagnitude then some r else none
  else if -308 ≤ e then some (overMagnitude m (powerOfTen (-e).toNat))
  else if -616 ≤ e then
    some (overMagnitude (overMagnitude m (powerOfTen 308)) (powerOfTen (-e - 308).toNat))
  else some 0

/-- The power of ten that the exponent of a numeral asks for. -/
def exponentValue (n : Numeral) : Int :=
  match n.exponent with
  | none => 0
  | some (true, ds) => -(natOfDigits ds : Int)
  | some (false, ds) => natOfDigits ds

/-- The number that a numeral stands for, if it is not out of range. -/
def value? (n : Numeral) : Option Number :=
  let (whole, dropped) := gather 0 n.whole
  match n.fraction, n.exponent, dropped with
  | none, none, [] =>
    if !n.negative then some (.int whole)
    else if whole ≠ 0 ∧ whole ≤ Number.negativeBound then some (.int (-whole))
    else some (.double (.ofMagnitude true (roundRatio whole 1)))
  | _, _, _ =>
    let ds := n.fraction.getD []
    let (significand, left) := gather whole ds
    let shift : Int := dropped.length - (ds.length - left.length : Nat)
    (scale significand (shift + n.exponentValue)).map fun m =>
      .double (.ofMagnitude n.negative m)

end Numeral

end SwaggerRoutes.Json
