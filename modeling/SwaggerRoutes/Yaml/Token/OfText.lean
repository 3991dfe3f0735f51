/-
  Yaml/Token/OfText.lean --- the tokens of a YAML text.

  A key is recognised only at the colon behind it.  So wherever a key may start its place among the
  tokens is kept as a pending key, one for each level of brackets; the colon then puts a `key`
  token there, and where the key opens a block mapping the start of that mapping too.  A pending
  key lapses when its line ends or after 1024 bytes; one that stands at the indentation of a block
  mapping has to be a key, and its lapse is a fault.
-/
import SwaggerRoutes.Yaml.Token.Scalars

set_option autoImplicit false

namespace SwaggerRoutes.Yaml

/-! ## State -/

/-- A place at which a key may have started. -/
structure PendingKey where
  /-- Whether nothing but a key may stand there. -/
  required : Bool
  /-- The number of tokens before it. -/
  number : Nat
  index : Nat
  line : Nat
  column : Nat

/-- How far a text has been read. -/
structure Scan where
  /-- What is still to be read. -/
  here : Cursor
  /-- The column of the innermost block collection; `-1` outside of all. -/
  indent : Int
  /-- The columns of the block collections around it. -/
  outer : List Int
  /-- Whether a key may start here. -/
  keyAllowed : Bool
  /-- For each level of brackets, the innermost first, the key pending there. -/
  pending : List (Option PendingKey)
  /-- The tokens read so far. -/
  tokens : Array Token

namespace Scan

/-- The state before the first character. -/
def start (s : String) : Scan :=
  ⟨.ofText s, -1, [], true, [none], #[]⟩

/-- Whether brackets are open. -/
def inFlow (s : Scan) : Bool :=
  1 < s.pending.length

/-- Adds a token. -/
def push (s : Scan) (t : Token) : Scan :=
  { s with tokens := s.tokens.push t }

/-- Adds a token at a place among those read before. -/
def pushAt (s : Scan) (number : Nat) (t : Token) : Scan :=
  { s with tokens := s.tokens.insertIdxIfInBounds number t }

/-! ## Indentation -/

/-- Opens a block collection if the column lies to the right of the innermost one. -/
def openBlock (s : Scan) (column : Nat) (number : Nat) (t : Token) : Scan :=
  if !s.inFlow && decide (s.indent < column) then
    { s.pushAt number t with indent := column, outer := s.indent :: s.outer }
  else s

/-- Ends block collections to the right of a column. -/
def closeBlocksFrom (column : Int) : Int → List Int → Array Token → Int × List Int × Array Token
  | indent, [], ts => (indent, [], ts)
  | indent, i :: outer, ts =>
    if column < indent then closeBlocksFrom column i outer (ts.push .blockEnd)
    else (indent, i :: outer, ts)

/-- Ends the block collections that lie to the right of a column. -/
def closeBlocks (s : Scan) (column : Int) : Scan :=
  if s.inFlow then s
  else
    let (indent, outer, tokens) := closeBlocksFrom column s.indent s.outer s.tokens
    { s with indent := indent, outer := outer, tokens := tokens }

/-! ## Pending keys -/

/-- Gives up the innermost pending key, which must not be a required one. -/
def dropKey (s : Scan) : Option Scan :=
  match s.pending with
  | some k :: rest => if k.required then none else some { s with pending := none :: rest }
  | _ => some s

/-- Notes that a key may start here. -/
def noteKey (s : Scan) : Option Scan :=
  if s.keyAllowed then do
    let s ← s.dropKey
    let c := s.here
    let k : PendingKey :=
      ⟨!s.inFlow && s.indent == (c.column : Int), s.tokens.size, c.index, c.line, c.column⟩
    pure { s with pending := some k :: s.pending.drop 1 }
  else some s

/-- Gives up the pending keys that have lapsed here. -/
def lapseKeys (s : Scan) : Option Scan := do
  let pending ← s.pending.mapM fun k => match k with
    | none => some none
    | some k =>
      if k.line < s.here.line ∨ k.index + 1024 < s.here.index then
        (if k.required then none else some none)
      else some (some k)
  pure { s with pending := pending }

/-! ## Steps -/

/-- The place of the next token: behind blanks, comments and breaks.  A byte order mark at the start
of a line is passed over, but it takes a column.  `fuel` bounds the lines. -/
def toNextToken : Nat → Scan → Scan
  | 0, s => s
  | fuel + 1, s =>
    let c := s.here
    let c := if c.column = 0 ∧ c.has byteOrderMark 0 then c.skip 1 else c
    let tabs := s.inFlow || !s.keyAllowed
    let c := (c.skipWhile fun ch => ch == ' ' || (tabs && ch == '\t')).skipComment
    if c.atBreak then
      toNextToken fuel { s with here := c.skipBreak, keyAllowed := s.keyAllowed || !s.inFlow }
    else { s with here := c }

/-- Ends all block collections, at a line that is no part of a document. -/
def leaveDocument (s : Scan) : Option Scan := do
  let s ← (s.closeBlocks (-1)).dropKey
  pure { s with keyAllowed := false }

/-- Reads a directive. -/
def directive (s : Scan) : Option Scan := do
  let s ← s.leaveDocument
  let (t, c) ← readDirective s.here
  pure { s.push t with here := c }

/-- Reads a line that starts or ends a document. -/
def documentMarker (s : Scan) (t : Token) : Option Scan := do
  let s ← s.leaveDocument
  pure { s.push t with here := s.here.skip 3 }

/-- Reads an opening bracket. -/
def openFlow (s : Scan) (t : Token) : Option Scan := do
  let s ← s.noteKey
  pure { s.push t with here := s.here.skip 1, keyAllowed := true, pending := none :: s.pending }

/-- Reads a closing bracket. -/
def closeFlow (s : Scan) (t : Token) : Option Scan := do
  let s ← s.dropKey
  let pending := if s.inFlow then s.pending.drop 1 else s.pending
  pure { s.push t with here := s.here.skip 1, keyAllowed := false, pending := pending }

/-- Reads a comma. -/
def comma (s : Scan) : Option Scan := do
  let s ← s.dropKey
  pure { s.push .comma with here := s.here.skip 1, keyAllowed := true }

/-- Reads the hyphen of an item. -/
def item (s : Scan) : Option Scan := do
  guard (s.inFlow || s.keyAllowed)
  let s ← (s.openBlock s.here.column s.tokens.size .blockSequence).dropKey
  pure { s.push .item with here := s.here.skip 1, keyAllowed := true }

/-- Reads the question mark of a key. -/
def keyMark (s : Scan) : Option Scan := do
  guard (s.inFlow || s.keyAllowed)
  let s ← (s.openBlock s.here.column s.tokens.size .blockMapping).dropKey
  pure { s.push .key with here := s.here.skip 1, keyAllowed := !s.inFlow }

/-- Reads the colon of a value. -/
def valueMark (s : Scan) : Option Scan :=
  match s.pending with
  | some k :: rest =>
    let s := (s.pushAt k.number .key).openBlock k.column k.number .blockMapping
    some { s.push .value with here := s.here.skip 1, keyAllowed := false, pending := none :: rest }
  | _ => do
    guard (s.inFlow || s.keyAllowed)
    let s := s.openBlock s.here.column s.tokens.size .blockMapping
    pure { s.push .value with here := s.here.skip 1, keyAllowed := !s.inFlow }

/-- Reads an alias, an anchor, a tag or a quoted scalar, with which a key may start. -/
def keyPart (s : Scan) (part : Cursor → Option (Token × Cursor)) : Option Scan := do
  let s ← s.noteKey
  let (t, c) ← part s.here
  pure { s.push t with here := c, keyAllowed := false }

/-- Reads a block scalar. -/
def blockScalar (s : Scan) (literal : Bool) : Option Scan := do
  let s ← s.dropKey
  let (t, c) ← readBlock literal s.indent s.here
  pure { s.push t with here := c, keyAllowed := true }

/-- Reads a plain scalar. -/
def plainScalar (s : Scan) : Option Scan := do
  let s ← s.noteKey
  let (t, crossed, c) ← readPlain s.inFlow (s.indent + 1).toNat s.here
  pure { s.push t with here := c, keyAllowed := crossed }

/-- Whether a plain scalar may start with a character, before the one behind it is looked at. -/
def startsPlain (c : Char) : Bool :=
  !("-?:,[]\x7b\x7d#&*!|>'\"%@\x60".toList.contains c)

/-- Reads one token, or several that start with the same character; the text is not at its end. -/
def step (s : Scan) (ch : Char) : Option Scan :=
  let c := s.here
  let flow := s.inFlow
  if c.column = 0 ∧ ch = '%' then s.directive
  else if c.atMarker '-' then s.documentMarker .documentStart
  else if c.atMarker '.' then s.documentMarker .documentEnd
  else if ch = '[' then s.openFlow .openSequence
  else if ch = '{' then s.openFlow .openMapping
  else if ch = ']' then s.closeFlow .closeSequence
  else if ch = '}' then s.closeFlow .closeMapping
  else if ch = ',' then s.comma
  else if ch = '-' ∧ c.endsWord 1 then s.item
  else if ch = '?' ∧ (flow || c.endsWord 1) then s.keyMark
  else if ch = ':' ∧ (flow || c.endsWord 1) then s.valueMark
  else if ch = '*' then
    s.keyPart fun c => (readAnchorName c).map fun (n, c) => (.reference n, c)
  else if ch = '&' then
    s.keyPart fun c => (readAnchorName c).map fun (n, c) => (.anchor n, c)
  else if ch = '!' then s.keyPart (readTag flow)
  else if ch = '|' ∧ !flow then s.blockScalar true
  else if ch = '>' ∧ !flow then s.blockScalar false
  else if ch = '\'' then s.keyPart (readQuoted '\'')
  else if ch = '"' then s.keyPart (readQuoted '"')
  else if (startsPlain ch && !isBlank ch) || ch == '-' || (!flow && (ch == '?' || ch == ':')) then
    s.plainScalar
  else none

/-- Reads all tokens.  `fuel` bounds their number. -/
def run : Nat → Scan → Option (Array Token)
  | 0, _ => none
  | fuel + 1, s => do
    let s ← (toNextToken (s.here.rest.length + 1) s).lapseKeys
    let s := s.closeBlocks s.here.column
    match s.here.at? 0 with
    | some ch => run fuel (← s.step ch)
    | none =>
      let s ← s.leaveDocument
      pure (s.tokens.push .done)

end Scan

/-- The tokens of a text, if all its characters are allowed and each token is well formed. -/
def tokens? (text : String) : Option (List Token) :=
  if text.toList.all isAllowed then
    let s := Scan.start text
    (s.run (s.here.rest.length + 2)).map Array.toList
  else none

end SwaggerRoutes.Yaml
