/-
  Decimal/Number.lean --- the numbers of documents.

  An integer of at most sixty-four bits is kept as it is; every other number is a double.
-/
import SwaggerRoutes.Decimal.Layout

set_option autoImplicit false

namespace SwaggerRoutes.Decimal

/-- A number of a document. -/
inductive Number where
  /-- An integer from `-2 ^ 63` on and below `2 ^ 64`. -/
  | int (i : Int)
  /-- Any other number. -/
  | double (d : Double)
  deriving DecidableEq, Repr, Inhabited

namespace Number

/-- The least integer that is kept is this one, negated: `2 ^ 63`. -/
def negativeBound : Nat := 0x8000000000000000

/-- The integers that are kept are below this one: `2 ^ 64`. -/
def positiveBound : Nat := 0x10000000000000000

/-- A number as JSON writes it. -/
def text : Number → String
  | .int i => String.ofList (Text.signedDecimal i)
  | .double d => d.text .json

/-- Whether the number is an integer rather than a double. -/
def isInt : Number → Bool
  | .int _ => true
  | .double _ => false

end Number

end SwaggerRoutes.Decimal
