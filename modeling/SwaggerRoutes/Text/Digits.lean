/-
  Text/Digits.lean --- whole numbers as text, and digits as numbers.
-/

set_option autoImplicit false

namespace SwaggerRoutes.Text

/-- A natural number in base ten, without leading zeros. -/
def decimal (n : Nat) : List Char :=
  Nat.toDigits 10 n

/-- An integer in base ten, with a minus sign when it is negative. -/
def signedDecimal : Int → List Char
  | .ofNat n => decimal n
  | .negSucc n => '-' :: decimal (n + 1)

/-- A natural number in base sixteen with lower-case digits. -/
def lowerHex (n : Nat) : List Char :=
  Nat.toDigits 16 n

/-- A natural number in base sixteen with upper-case digits, filled up with zeros on the left to
`width` digits. -/
def upperHexOfWidth (width n : Nat) : List Char :=
  let ds := (Nat.toDigits 16 n).map Char.toUpper
  List.replicate (width - ds.length) '0' ++ ds

/-- A natural number in base sixteen with lower-case digits, filled up with zeros on the left to
`width` digits. -/
def lowerHexOfWidth (width n : Nat) : List Char :=
  let ds := Nat.toDigits 16 n
  List.replicate (width - ds.length) '0' ++ ds

/-- The value of a digit in bases up to sixteen, letters in either case. -/
def digitValue? (c : Char) : Option Nat :=
  if '0' ≤ c ∧ c ≤ '9' then some (c.toNat - '0'.toNat)
  else if 'a' ≤ c ∧ c ≤ 'f' then some (c.toNat - 'a'.toNat + 10)
  else if 'A' ≤ c ∧ c ≤ 'F' then some (c.toNat - 'A'.toNat + 10)
  else none

/-- The number that a text of digits writes in a base; none when the text is empty or holds
anything that is no digit of the base. -/
def readDigits? (base : Nat) (cs : List Char) : Option Nat :=
  if cs.isEmpty then none
  else cs.foldlM (fun n c => do
    let d ← digitValue? c
    if d < base then some (n * base + d) else none) 0

/-- The number that decimal digits write; characters that are no digits count as zero. -/
def natOfDigits (cs : List Char) : Nat :=
  cs.foldl (fun n c => n * 10 + (c.toNat - '0'.toNat)) 0

end SwaggerRoutes.Text
