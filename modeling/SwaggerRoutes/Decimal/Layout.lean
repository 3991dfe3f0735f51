/-
  Decimal/Layout.lean --- how a double is laid out as text.

  A layout says for which powers of ten of the first digit a number is written positionally; other
  numbers get one digit before the point and an exponent with its sign.  A positional number has at
  least one digit after the point.
-/
import SwaggerRoutes.Decimal.Shortest
import SwaggerRoutes.Text.Digits

set_option autoImplicit false

namespace SwaggerRoutes.Decimal

open SwaggerRoutes.Text

/-- Which numbers are written without an exponent. -/
structure Layout where
  /-- The least power of ten of the first digit, if there is one. -/
  least : Option Int
  /-- The greatest power of ten of the first digit, if there is one. -/
  greatest : Option Int
  deriving DecidableEq, Repr

namespace Layout

/-- Numbers of JSON texts have no exponent from `1e-5` up to, but without, `1e16`. -/
def json : Layout := ⟨some (-5), some 15⟩

/-- Numbers never have an exponent. -/
def positional : Layout := ⟨none, none⟩

/-- Whether a number whose first digit stands at the power `p` of ten has no exponent. -/
def isPositional (l : Layout) (p : Int) : Bool :=
  (match l.least with | some a => decide (a ≤ p) | none => true) &&
    (match l.greatest with | some a => decide (p ≤ a) | none => true)

end Layout

/-- Digits with the point after the first `whole` of them, zeros put in where digits lack. -/
def positionalText (ds : List Char) (whole : Int) : List Char :=
  if whole ≤ 0 then ['0', '.'] ++ List.replicate (-whole).toNat '0' ++ ds
  else
    let w := whole.toNat
    let front := ds.take w ++ List.replicate (w - ds.length) '0'
    let back := ds.drop w
    front ++ '.' :: (if back.isEmpty then ['0'] else back)

/-- One digit, the point and the others, and the power of ten of the first digit. -/
def exponentText (ds : List Char) (p : Int) : List Char :=
  let front := match ds with
    | [] => []
    | [d] => [d]
    | d :: rest => d :: '.' :: rest
  front ++ 'e' :: (if p < 0 then '-' else '+') :: decimal p.natAbs

/-- A finite magnitude as text. -/
def magnitudeText (l : Layout) (b : Nat) : List Char :=
  let s := shortest b
  let ds := decimal s.digits
  let p : Int := s.exponent + ds.length - 1
  if b = 0 then ['0', '.', '0']
  else if l.isPositional p then positionalText ds (p + 1)
  else exponentText ds p

/-- A double as text; the sign of zero is kept. -/
def Double.text (l : Layout) (d : Double) : String :=
  if d.isNaN then "NaN"
  else
    let body := if d.isFinite then magnitudeText l d.magnitude else "inf".toList
    String.ofList (if d.isNegative then '-' :: body else body)

end SwaggerRoutes.Decimal
