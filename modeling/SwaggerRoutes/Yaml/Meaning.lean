/-
  Yaml/Meaning.lean --- what scalars stand for.

  A plain scalar may stand for null, a truth value or a number; any other scalar, and a plain one
  that stands for none of these, is text.  A tag may ask for one of the kinds.  Digits behind a
  leading zero are text.
-/
import SwaggerRoutes.Decimal.Number
import SwaggerRoutes.Document.Mismatch
import SwaggerRoutes.Yaml.Node

set_option autoImplicit false

namespace SwaggerRoutes.Yaml

open Decimal SwaggerRoutes.Document

/-- What a scalar stands for. -/
inductive Meaning where
  | null
  | bool (b : Bool)
  /-- An integer without a minus sign. -/
  | natural (n : Nat)
  /-- The integer that a minus sign makes of another, which may be zero. -/
  | negated (n : Nat)
  | double (d : Double)
  /-- An integer beyond sixty-four bits, but within one hundred and twenty-eight. -/
  | wide (i : Int)
  | text (s : String)
  deriving DecidableEq, Repr

/-! ## Words -/

/-- The words for null. -/
def isNullWord (s : String) : Bool :=
  s == "null" || s == "Null" || s == "NULL" || s == "~"

/-- The words for the truth values. -/
def boolWord? (s : String) : Option Bool :=
  if s == "true" || s == "True" || s == "TRUE" then some true
  else if s == "false" || s == "False" || s == "FALSE" then some false
  else none

/-! ## Integers -/

/-- A text without one sign in front, and whether that sign is a minus. -/
def splitSign : List Char → Bool × List Char
  | '-' :: cs => (true, cs)
  | '+' :: cs => (false, cs)
  | cs => (false, cs)

/-- Digits behind a leading zero. -/
def isZeroLed (cs : List Char) : Bool :=
  match (splitSign cs).2 with
  | '0' :: d :: ds => (d :: ds).all Char.isDigit
  | _ => false

/-- The natural number that digits write, in the base that their start tells. -/
def natural? (cs : List Char) : Option Nat :=
  match cs with
  | '0' :: 'x' :: ds => Text.readDigits? 16 ds
  | '0' :: 'o' :: ds => Text.readDigits? 8 ds
  | '0' :: 'b' :: ds => Text.readDigits? 2 ds
  | ds => if isZeroLed ds then none else Text.readDigits? 10 ds

/-- The integer that a text writes, if it has at most one hundred and twenty-eight bits. -/
def integer? (cs : List Char) : Option Meaning :=
  let (negative, ds) := splitSign cs
  (natural? ds).bind fun n =>
    if negative then
      if n ≤ Number.negativeBound then some (.negated n)
      else if n ≤ Nat.pow 2 127 then some (.wide (-n))
      else none
    else if n < Number.positiveBound then some (.natural n)
    else if n < Nat.pow 2 128 then some (.wide n)
    else none

/-! ## Floats -/

/-- The exponent that a text writes; none when it is none. -/
def exponent? : List Char → Option Int
  | [] => some 0
  | c :: cs =>
    if c = 'e' ∨ c = 'E' then
      let (negative, ds) := splitSign cs
      if !ds.isEmpty && ds.all Char.isDigit then
        let n : Int := Text.natOfDigits ds
        some (if negative then -n else n)
      else none
    else none

/-- The magnitude that a decimal without a sign writes, if it is finite. -/
def decimal? (cs : List Char) : Option Nat := do
  let (whole, rest) := cs.span Char.isDigit
  let (fraction, rest) := match rest with
    | '.' :: rest => rest.span Char.isDigit
    | rest => ([], rest)
  guard (!(whole.isEmpty && fraction.isEmpty))
  let e ← exponent? rest
  let m := roundDecimal (Text.natOfDigits (whole ++ fraction)) (e - fraction.length)
  guard (m < infinityMagnitude)
  pure m

/-- The double that a text writes. -/
def float? (s : String) : Option Double :=
  if s == ".inf" || s == ".Inf" || s == ".INF" || s == "+.inf" || s == "+.Inf" || s == "+.INF" then
    some (.infinity false)
  else if s == "-.inf" || s == "-.Inf" || s == "-.INF" then some (.infinity true)
  else if s == ".nan" || s == ".NaN" || s == ".NAN" then some .nan
  else
    let (negative, cs) := splitSign s.toList
    (decimal? cs).map (.ofMagnitude negative)

/-! ## Scalars -/

/-- What a plain scalar without a tag stands for. -/
def plainMeaning (s : String) : Meaning :=
  if s.isEmpty || isNullWord s then .null
  else
    match boolWord? s with
    | some b => .bool b
    | none =>
      match integer? s.toList with
      | some m => m
      | none =>
        if isZeroLed s.toList then .text s
        else
          match float? s with
          | some d => .double d
          | none => .text s

namespace Scalar

/-- Whether nothing is written where the scalar stands. -/
def isBlank (s : Scalar) : Bool :=
  s.text.isEmpty && s.style == .plain

/-- What a scalar stands for; an error when it is not of the kind for which its tag asks. -/
def meaning (s : Scalar) : Except Mismatch Meaning :=
  let refused (w : Wanted) : Except Mismatch Meaning := .error (.wrongValue (.text s.text) w)
  let untagged : Meaning := if s.style = .plain then plainMeaning s.text else .text s.text
  match s.tag with
  | none => .ok untagged
  | some tag =>
    if tag = Tag.standard "bool" then
      match boolWord? s.text with
      | some b => .ok (.bool b)
      | none => refused .flag
    else if tag = Tag.standard "int" then
      match integer? s.text.toList with
      | some m => .ok m
      | none => refused .integer
    else if tag = Tag.standard "float" then
      match float? s.text with
      | some d => .ok (.double d)
      | none => refused .float
    else if tag = Tag.standard "null" then
      if isNullWord s.text then .ok .null else refused .null
    else if tag.isOwn then .ok untagged
    else .ok (.text s.text)

end Scalar

end SwaggerRoutes.Yaml
