/-
  Json/Tree.lean --- what a text shows when it is read as JSON, damage included.

  Reading never fails.  Where a text stops being JSON the tree holds `broken`, or a container that
  is not closed, and nothing of the text after that place is looked at.  Whoever takes a tree apart
  from left to right therefore meets a wrong value and a damaged place in the order in which they
  stand.  A number out of range and a string whose surrogates do not pair are kept as such, since
  they matter only where their value is wanted.
-/
import SwaggerRoutes.Json.Numeral

set_option autoImplicit false

namespace SwaggerRoutes.Json

open Text

/-- A JSON text as it is read. -/
inductive Tree where
  | null
  | bool (b : Bool)
  /-- A numeral; none when it is out of range. -/
  | number (n : Option Decimal.Number)
  /-- A string; none when it writes a surrogate without its partner. -/
  | text (s : Option String)
  /-- Items, and whether the closing bracket follows them. -/
  | array (items : List Tree) (closed : Bool)
  /-- Members, and whether the closing brace follows them. -/
  | object (members : List (Option String × Tree)) (closed : Bool)
  /-- The place where the text is no longer JSON. -/
  | broken
  deriving Inhabited, Repr

/-! ## Strings -/

/-- A part of a string: a character, or a sixteen-bit unit written by four digits. -/
inductive Piece where
  | char (c : Char)
  | unit (u : Nat)
  deriving DecidableEq, Repr

/-- The character that a letter after a backslash stands for. -/
def unescaped? : Char → Option Char
  | '"' => some '"'
  | '\\' => some '\\'
  | '/' => some '/'
  | 'b' => some '\x08'
  | 'f' => some '\x0c'
  | 'n' => some '\n'
  | 'r' => some '\r'
  | 't' => some '\t'
  | _ => none

/-- The parts of a string up to its closing quote, and what follows. -/
def readPieces : List Char → Option (List Piece × List Char)
  | [] => none
  | '"' :: rest => some ([], rest)
  | '\\' :: 'u' :: a :: b :: c :: d :: rest => do
    let u ← readDigits? 16 [a, b, c, d]
    let (ps, rest) ← readPieces rest
    pure (.unit u :: ps, rest)
  | '\\' :: c :: rest => do
    let c ← unescaped? c
    let (ps, rest) ← readPieces rest
    pure (.char c :: ps, rest)
  | c :: rest =>
    if c.toNat < 0x20 then none
    else do
      let (ps, rest) ← readPieces rest
      pure (.char c :: ps, rest)

/-- The characters that the parts of a string stand for; a leading surrogate needs a trailing one
right behind it, and a trailing one a leading one before it. -/
def joinPieces : List Piece → Option (List Char)
  | [] => some []
  | .char c :: ps => (joinPieces ps).map (c :: ·)
  | .unit u :: ps =>
    if 0xD800 ≤ u ∧ u < 0xDC00 then
      match ps with
      | .unit v :: ps =>
        if 0xDC00 ≤ v ∧ v < 0xE000 then
          (joinPieces ps).map (Char.ofNat (0x10000 + (u - 0xD800) * 0x400 + (v - 0xDC00)) :: ·)
        else none
      | _ => none
    else if 0xDC00 ≤ u ∧ u < 0xE000 then none
    else (joinPieces ps).map (Char.ofNat u :: ·)

/-- The string after an opening quote, and what follows its closing quote. -/
def readString (cs : List Char) : Option (Option String × List Char) :=
  (readPieces cs).map fun (ps, rest) => ((joinPieces ps).map String.ofList, rest)

/-! ## Values -/

/-- White space between the parts of a JSON text. -/
def isGap (c : Char) : Bool :=
  c == ' ' || c == '\n' || c == '\t' || c == '\r'

/-- What follows the white space in front of a text. -/
def skipGap (cs : List Char) : List Char :=
  cs.dropWhile isGap

/-- A numeral in front of a text. -/
def readNumber (cs : List Char) : Tree × Option (List Char) :=
  match Numeral.read cs with
  | some (n, rest) => (.number n.value?, some rest)
  | none => (.broken, none)

mutual

/-- The value in front of a text, and what follows it unless the text is damaged before its end.
`fuel` bounds the steps; twice the length of the text is enough. -/
def readValue : Nat → List Char → Tree × Option (List Char)
  | 0, _ => (.broken, none)
  | fuel + 1, cs =>
    match skipGap cs with
    | '"' :: rest =>
      match readString rest with
      | some (s, rest) => (.text s, some rest)
      | none => (.broken, none)
    | '[' :: rest =>
      match skipGap rest with
      | ']' :: rest => (.array [] true, some rest)
      | rest =>
        let (items, after) := readItems fuel rest
        (.array items after.isSome, after)
    | '{' :: rest =>
      match skipGap rest with
      | '}' :: rest => (.object [] true, some rest)
      | rest =>
        let (members, after) := readMembers fuel rest
        (.object members after.isSome, after)
    | 'n' :: 'u' :: 'l' :: 'l' :: rest => (.null, some rest)
    | 't' :: 'r' :: 'u' :: 'e' :: rest => (.bool true, some rest)
    | 'f' :: 'a' :: 'l' :: 's' :: 'e' :: rest => (.bool false, some rest)
    | rest => readNumber rest

/-- The items of an array from the first one on, and what follows the closing bracket. -/
def readItems : Nat → List Char → List Tree × Option (List Char)
  | 0, _ => ([.broken], none)
  | fuel + 1, cs =>
    match readValue fuel cs with
    | (t, none) => ([t], none)
    | (t, some rest) =>
      match skipGap rest with
      | ',' :: rest =>
        let (ts, after) := readItems fuel rest
        (t :: ts, after)
      | ']' :: rest => ([t], some rest)
      | _ => ([t], none)

/-- The members of an object from the first one on, and what follows the closing brace. -/
def readMembers : Nat → List Char → List (Option String × Tree) × Option (List Char)
  | 0, _ => ([], none)
  | fuel + 1, cs =>
    match skipGap cs with
    | '"' :: rest =>
      match readString rest with
      | none => ([], none)
      | some (k, rest) =>
        match skipGap rest with
        | ':' :: rest =>
          match readValue fuel rest with
          | (t, none) => ([(k, t)], none)
          | (t, some rest) =>
            match skipGap rest with
            | ',' :: rest =>
              let (ms, after) := readMembers fuel rest
              ((k, t) :: ms, after)
            | '}' :: rest => ([(k, t)], some rest)
            | _ => ([(k, t)], none)
        | _ => ([(k, .broken)], none)
    | _ => ([], none)

end

/-- A text as it is read, and whether nothing but white space follows the value. -/
def Tree.ofText (s : String) : Tree × Bool :=
  let cs := s.toList
  let (t, after) := readValue (2 * cs.length + 2) cs
  (t, after.any fun rest => rest.all isGap)

/-! ## Damage -/

mutual

/-- Whether a tree is whole: nothing in it is broken, and its containers are closed. -/
def Tree.isWhole : Tree → Bool
  | .broken => false
  | .array items closed => closed && allWhole items
  | .object members closed => closed && allMembersWhole members
  | _ => true

/-- Whether all items are whole. -/
def allWhole : List Tree → Bool
  | [] => true
  | t :: rest => t.isWhole && allWhole rest

/-- Whether the values of all members are whole. -/
def allMembersWhole : List (Option String × Tree) → Bool
  | [] => true
  | (_, t) :: rest => t.isWhole && allMembersWhole rest

end

end SwaggerRoutes.Json
