/-
  Yaml/Printer.lean --- values as YAML texts.

  Collections are written as blocks, the items of a sequence flush with the key above them.  A text
  is written plain where it reads back as the same text, and otherwise in single quotes; a text
  with line feeds is written as a literal block; and a text with characters that do not print, or
  with white space around its breaks that the other styles would lose, is written in double quotes.
-/
import SwaggerRoutes.Json.Value
import SwaggerRoutes.Yaml.Cursor
import SwaggerRoutes.Yaml.Meaning

set_option autoImplicit false

namespace SwaggerRoutes.Yaml

/-! ## What a text holds -/

/-- Characters that may stand in a text as they are. -/
def isPrintable (c : Char) : Bool :=
  let n := c.toNat
  n == 0x0A || (0x20 ≤ n && n ≤ 0x7E) || (0xA0 ≤ n && n ≤ 0xD7FF) ||
    (0xE000 ≤ n && n ≤ 0xFFFD && n != 0xFEFF) || 0x10000 ≤ n

/-- A blank or a break. -/
def isGap (c : Char) : Bool :=
  isBlank c || isBreak c

/-- Whether a text starts with a character of a kind and the next one of another kind, anywhere. -/
def hasPair (p q : Char → Bool) : List Char → Bool
  | a :: b :: rest => (p a && q b) || hasPair p q (b :: rest)
  | _ => false

/-- Whether a blank, a break or the end follows. -/
def gapFollows (cs : List Char) : Bool :=
  cs.head?.all isGap

/-- Characters with which a plain text may not start. -/
def isIndicator (c : Char) : Bool :=
  "#,[]\x7b\x7d&*!|>'\"%@\x60".toList.contains c

/-- Whether a colon before white space, or a number sign behind it, stands anywhere but at the
start. -/
def hasInnerIndicator : List Char → Bool
  | a :: b :: rest =>
    (b == ':' && gapFollows rest) || (b == '#' && isGap a) || hasInnerIndicator (b :: rest)
  | _ => false

/-- Whether a text would be taken for something else than text where it stands plain. -/
def hasIndicator (cs : List Char) : Bool :=
  ['-', '-', '-'].isPrefixOf cs || ['.', '.', '.'].isPrefixOf cs || hasInnerIndicator cs ||
    match cs with
    | [] => false
    | c :: rest => isIndicator c || ((c == '?' || c == ':' || c == '-') && gapFollows rest)

/-- Whether a text holds what only double quotes keep. -/
def needsEscapes (cs : List Char) : Bool :=
  cs.any (fun c => !isPrintable c) || hasPair (· == ' ') isBreak cs

/-- Whether a text may stand plain. -/
def mayBePlain (cs : List Char) : Bool :=
  let edge (c : Char) : Bool := c == ' ' || isBreak c
  !cs.isEmpty && !needsEscapes cs && !cs.any isBreak && !hasIndicator cs &&
    !cs.head?.any edge && !cs.getLast?.any edge

/-- Whether a text may stand in single quotes. -/
def mayBeSingle (cs : List Char) : Bool :=
  !needsEscapes cs && !hasPair isBreak (· == ' ') cs

/-- Whether a text may stand in a block. -/
def mayBeBlock (cs : List Char) : Bool :=
  !cs.isEmpty && !needsEscapes cs && cs.getLast? != some ' '

/-- Whether a plain scalar with this text is text. -/
def readsAsText (s : String) : Bool :=
  !isZeroLed s.toList && plainMeaning s == .text s

/-! ## Styles -/

/-- `n` spaces. -/
def spaces (n : Nat) : List Char :=
  List.replicate n ' '

/-- A text between single quotes, with its breaks followed by an indentation. -/
def singleText (indent : Nat) : Bool → List Char → List Char
  | broken, [] => if broken then spaces indent else []
  | broken, c :: cs =>
    if c = ' ' then c :: singleText indent broken cs
    else if isBreak c then c :: singleText indent true cs
    else
      (if broken then spaces indent else []) ++ (if c = '\'' then ['\'', '\''] else [c]) ++
        singleText indent false cs

/-- The letter that writes a character behind a backslash. -/
def escapeLetter? (c : Char) : Option Char :=
  match c with
  | '\x00' => some '0'
  | '\x07' => some 'a'
  | '\x08' => some 'b'
  | '\t' => some 't'
  | '\n' => some 'n'
  | '\x0b' => some 'v'
  | '\x0c' => some 'f'
  | '\r' => some 'r'
  | '\x1b' => some 'e'
  | '"' => some '"'
  | '\\' => some '\\'
  | '\u0085' => some 'N'
  | '\u00a0' => some '_'
  | '\u2028' => some 'L'
  | '\u2029' => some 'P'
  | _ => none

/-- A character between double quotes. -/
def doubleChar (c : Char) : List Char :=
  if !isPrintable c || isBreak c || c == '"' || c == '\\' then
    '\\' :: match escapeLetter? c with
      | some l => [l]
      | none =>
        if c.toNat ≤ 0xFF then 'x' :: Text.upperHexOfWidth 2 c.toNat
        else if c.toNat ≤ 0xFFFF then 'u' :: Text.upperHexOfWidth 4 c.toNat
        else 'U' :: Text.upperHexOfWidth 8 c.toNat
  else [c]

/-- The lines of a literal block, each indented unless it is empty. -/
def literalLines (indent : Nat) : Bool → List Char → List Char
  | _, [] => []
  | broken, c :: cs =>
    if isBreak c then c :: literalLines indent true cs
    else (if broken then spaces indent else []) ++ c :: literalLines indent false cs

/-- What stands behind the bar of a literal block: the indentation, where the text starts with white
space, and what becomes of the breaks at its end. -/
def literalHeader (cs : List Char) : List Char :=
  let starts := cs.head?.any fun c => c == ' ' || isBreak c
  let ending := match cs.reverse with
    | [] => ['-']
    | [c] => if isBreak c then ['+'] else ['-']
    | c :: d :: _ => if !isBreak c then ['-'] else if isBreak d then ['+'] else []
  (if starts then ['2'] else []) ++ ending

/-- A text as a scalar whose further lines are indented. -/
def textScalar (indent : Nat) (s : String) : List Char :=
  let cs := s.toList
  let double := '"' :: cs.flatMap doubleChar ++ ['"']
  if cs.contains '\n' then
    if mayBeBlock cs then
      '|' :: literalHeader cs ++ '\n' :: literalLines indent true cs
    else double
  else if readsAsText s && mayBePlain cs then cs
  else if mayBeSingle cs then '\'' :: singleText indent false cs ++ ['\'']
  else double

/-! ## Values -/

/-- A line feed behind a text that does not end with a break. -/
def endLine (cs : List Char) : List Char :=
  if cs.getLast?.any isBreak then cs else cs ++ ['\n']

/-- A scalar or an empty collection. -/
def leafText (indent : Nat) : Json.Value → List Char
  | .null => "null".toList
  | .bool b => (if b then "true" else "false").toList
  | .number n => n.text.toList
  | .text s => textScalar indent s
  | .array _ => "[]".toList
  | .object _ => "\x7b\x7d".toList

mutual

/-- A value behind the key of a mapping whose keys are indented by `indent`. -/
def writeUnderKey (indent : Nat) : Json.Value → List Char
  | .array (v :: vs) => '\n' :: writeItems indent true (v :: vs)
  | .object (m :: ms) => '\n' :: writeMembers (indent + 2) true (m :: ms)
  | v => ' ' :: endLine (leafText (indent + 2) v)

/-- A value behind the hyphen of a sequence whose hyphens are indented by `indent`. -/
def writeUnderHyphen (indent : Nat) : Json.Value → List Char
  | .array (v :: vs) => ' ' :: writeItems (indent + 2) false (v :: vs)
  | .object (m :: ms) => ' ' :: writeMembers (indent + 2) false (m :: ms)
  | v => ' ' :: endLine (leafText (indent + 2) v)

/-- The items of a sequence; the first one is indented unless it stands on a line begun before. -/
def writeItems (indent : Nat) (indented : Bool) : List Json.Value → List Char
  | [] => []
  | v :: rest =>
    (if indented then spaces indent else []) ++ '-' :: writeUnderHyphen indent v ++
      writeItems indent true rest

/-- The members of a mapping; the first one is indented unless it stands on a line begun before. -/
def writeMembers (indent : Nat) (indented : Bool) : List (String × Json.Value) → List Char
  | [] => []
  | (k, v) :: rest =>
    (if indented then spaces indent else []) ++ textScalar (indent + 2) k ++ ':' ::
      writeUnderKey indent v ++ writeMembers indent true rest

end

/-- A value as a YAML document. -/
def render (v : Json.Value) : String :=
  String.ofList <| match v with
    | .array (v :: vs) => writeItems 0 false (v :: vs)
    | .object (m :: ms) => writeMembers 0 false (m :: ms)
    | v => endLine (leafText 0 v)

end SwaggerRoutes.Yaml
