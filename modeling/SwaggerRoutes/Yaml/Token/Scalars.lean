/-
  Yaml/Token/Scalars.lean --- scalars in their five styles.

  In plain and in quoted scalars a single break stands for a space, and of several breaks all but
  the first are kept.  In block scalars the lines keep their breaks, or in the folded style are
  joined where both are flush with the indentation.
-/
import SwaggerRoutes.Yaml.Token.Marks

set_option autoImplicit false

namespace SwaggerRoutes.Yaml

/-! ## White space inside a scalar -/

/-- White space met since the last character of a scalar. -/
structure Space where
  /-- The blanks, as long as no break was met. -/
  blanks : List Char
  /-- The first break. -/
  firstBreak : List Char
  /-- The other breaks. -/
  moreBreaks : List Char
  /-- Whether a break was met. -/
  crossed : Bool

namespace Space

/-- No white space. -/
def none : Space := ⟨[], [], [], false⟩

/-- What white space stands for, once a character follows it. -/
def folded (s : Space) : List Char :=
  if s.crossed then
    if s.firstBreak == ['\n'] then (if s.moreBreaks.isEmpty then [' '] else s.moreBreaks)
    else s.firstBreak ++ s.moreBreaks
  else s.blanks

/-- Gathers the white space at a cursor.  A tab to the left of column `least` is refused once a
break was met. `fuel` bounds the number of characters. -/
def gather (least : Nat) : Nat → Space → Cursor → Option (Space × Cursor)
  | 0, s, c => some (s, c)
  | fuel + 1, s, c =>
    match c.at? 0 with
    | Option.none => some (s, c)
    | some ch =>
      if isBlank ch then
        if s.crossed then
          if ch = '\t' ∧ c.column < least then Option.none else gather least fuel s (c.skip 1)
        else gather least fuel { s with blanks := s.blanks ++ [ch] } (c.skip 1)
      else if isBreak ch then
        let (br, c) := c.takeBreak
        if s.crossed then gather least fuel { s with moreBreaks := s.moreBreaks ++ br } c
        else gather least fuel ⟨[], br, [], true⟩ c
      else some (s, c)

end Space

/-! ## Quoted scalars -/

/-- The character that a letter behind a backslash stands for. -/
def escapeChar? : Char → Option Char
  | '0' => some '\x00'
  | 'a' => some '\x07'
  | 'b' => some '\x08'
  | 't' => some '\t'
  | '\t' => some '\t'
  | 'n' => some '\n'
  | 'v' => some '\x0b'
  | 'f' => some '\x0c'
  | 'r' => some '\r'
  | 'e' => some '\x1b'
  | ' ' => some ' '
  | '"' => some '"'
  | '/' => some '/'
  | '\\' => some '\\'
  | 'N' => some '\u0085'
  | '_' => some '\u00a0'
  | 'L' => some '\u2028'
  | 'P' => some '\u2029'
  | _ => none

/-- The number of digits behind a letter that writes a character by its number. -/
def escapeWidth? : Char → Option Nat
  | 'x' => some 2
  | 'u' => some 4
  | 'U' => some 8
  | _ => none

/-- The character that an escape at a cursor writes. -/
def readEscape (c : Cursor) : Option (Char × Cursor) := do
  let letter ← c.at? 1
  match escapeChar? letter with
  | some ch => pure (ch, c.skip 2)
  | none =>
    let width ← escapeWidth? letter
    let ds := (c.skip 2).rest.take width
    guard (ds.length == width)
    let n ← Text.readDigits? 16 ds
    guard (!(0xD800 ≤ n && n ≤ 0xDFFF) && n ≤ 0x10FFFF)
    pure (Char.ofNat n, c.skip (2 + width))

/-- What stops a run of characters in a quoted scalar. -/
inductive Stop where
  /-- The closing quote, white space or the end of the text. -/
  | here
  /-- A break behind a backslash. -/
  | escapedBreak

/-- The characters of a quoted scalar up to white space or the closing quote.  `fuel` bounds their
number. -/
def readQuotedRun (quote : Char) : Nat → Cursor → Option (List Char × Stop × Cursor)
  | 0, c => some ([], .here, c)
  | fuel + 1, c =>
    match c.at? 0 with
    | none => some ([], .here, c)
    | some ch =>
      if isBlank ch || isBreak ch then some ([], .here, c)
      else if ch = quote then
        if quote = '\'' ∧ c.has '\'' 1 then do
          let (more, stop, c) ← readQuotedRun quote fuel (c.skip 2)
          pure ('\'' :: more, stop, c)
        else some ([], .here, c)
      else if quote = '"' ∧ ch = '\\' then
        if (c.at? 1).any isBreak then some ([], .escapedBreak, (c.skip 1).skipBreak)
        else do
          let (e, c) ← readEscape c
          let (more, stop, c) ← readQuotedRun quote fuel c
          pure (e :: more, stop, c)
      else do
        let (more, stop, c) ← readQuotedRun quote fuel (c.skip 1)
        pure (ch :: more, stop, c)

/-- The text of a quoted scalar behind its opening quote, and the place behind its closing one.
`fuel` bounds the number of characters; every run takes at least one. -/
def readQuotedText (quote : Char) : Nat → Cursor → Option (List Char × Cursor)
  | 0, _ => none
  | fuel + 1, c => do
    guard (!c.atDocumentMarker)
    guard (!c.atEnd)
    let (run, stop, c) ← readQuotedRun quote fuel c
    if c.has quote 0 then pure (run, c.skip 1)
    else do
      let before : Space := match stop with
        | .here => .none
        | .escapedBreak => { Space.none with crossed := true }
      let (space, c) ← Space.gather 0 fuel before c
      let (more, c) ← readQuotedText quote fuel c
      pure (run ++ space.folded ++ more, c)

/-- The quoted scalar at a cursor. -/
def readQuoted (quote : Char) (c : Cursor) : Option (Token × Cursor) := do
  let (text, c) ← readQuotedText quote (c.rest.length + 1) (c.skip 1)
  pure (.scalar (String.ofList text) (if quote = '"' then .double else .single), c)

/-! ## Plain scalars -/

/-- Characters that end a plain scalar between brackets. -/
def isFlowIndicator (c : Char) : Bool :=
  c == ',' || c == '[' || c == ']' || c == '{' || c == '}'

/-- The characters of a plain scalar up to white space or an indicator.  Between brackets a colon
may not stand right before an indicator. `fuel` bounds their number. -/
def readPlainRun (flow : Bool) : Nat → Cursor → Option (List Char × Cursor)
  | 0, c => some ([], c)
  | fuel + 1, c =>
    match c.at? 0 with
    | none => some ([], c)
    | some ch =>
      if isBlank ch || isBreak ch then some ([], c)
      else if flow && ch == ':' && (c.at? 1).any (fun d => isFlowIndicator d || d == '?') then none
      else if (ch == ':' && c.endsWord 1) || (flow && isFlowIndicator ch) then some ([], c)
      else do
        let (more, c) ← readPlainRun flow fuel (c.skip 1)
        pure (ch :: more, c)

/-- The text of a plain scalar behind some white space, the place behind it, and whether a break was
met at its end.  Outside of brackets it ends before a line that starts to the left of column
`least`.  `fuel` bounds the number of characters; every run takes at least one. -/
def readPlainText (flow : Bool) (least : Nat) :
    Nat → Space → Cursor → Option (List Char × Bool × Cursor)
  | 0, _, _ => none
  | fuel + 1, space, c => do
    if c.atDocumentMarker || c.has '#' 0 then pure ([], space.crossed, c)
    else
      let (run, c) ← readPlainRun flow fuel c
      let (front, space) := if run.isEmpty then ([], space) else (space.folded ++ run, .none)
      if !(c.atBlank || c.atBreak) then pure (front, space.crossed, c)
      else
        let (space, c) ← Space.gather least fuel space c
        if !flow && c.column < least then pure (front, space.crossed, c)
        else
          let (more, crossed, c) ← readPlainText flow least fuel space c
          pure (front ++ more, crossed, c)

/-- The plain scalar at a cursor, and whether a break follows it. -/
def readPlain (flow : Bool) (least : Nat) (c : Cursor) : Option (Token × Bool × Cursor) := do
  let (text, crossed, c) ← readPlainText flow least (c.rest.length + 1) .none c
  pure (.scalar (String.ofList text) .plain, crossed, c)

/-! ## Block scalars -/

/-- What becomes of the breaks at the end of a block scalar. -/
inductive Chomp where
  | strip
  | clip
  | keep
  deriving DecidableEq

/-- The header of a block scalar: what becomes of its last breaks, and how far it is indented if
that is written. -/
def readBlockHeader (c : Cursor) : Option (Chomp × Nat × Cursor) :=
  let chomp? (c : Cursor) : Option Chomp :=
    if c.has '+' 0 then some .keep else if c.has '-' 0 then some .strip else none
  let digit? (c : Cursor) : Option Nat :=
    (c.at? 0).bind fun ch => if ch.isDigit then some (ch.toNat - '0'.toNat) else none
  match chomp? c with
  | some chomp =>
    match digit? (c.skip 1) with
    | some 0 => none
    | some n => some (chomp, n, c.skip 2)
    | none => some (chomp, 0, c.skip 1)
  | none =>
    match digit? c with
    | some 0 => none
    | some n =>
      match chomp? (c.skip 1) with
      | some chomp => some (chomp, n, c.skip 2)
      | none => some (.clip, n, c.skip 1)
    | none => some (.clip, 0, c)

/-- The breaks of empty lines in front of a line of a block scalar, the indentation, the greatest
one met where it is still open (zero), and the place behind. `fuel` bounds the number of lines. -/
def readEmptyLines (indent : Nat) : Nat → Nat → Cursor → Option (List Char × Nat × Cursor)
  | 0, widest, c => some ([], widest, c)
  | fuel + 1, widest, c => do
    let room := if indent = 0 then c.rest else c.rest.take (indent - c.column)
    let spaces := (room.takeWhile fun ch => ch == ' ').length
    let c := c.skip spaces
    let widest := max widest c.column
    guard (!((indent = 0 || c.column < indent) && c.has '\t' 0))
    if c.atBreak then do
      let (br, c) := c.takeBreak
      let (more, widest, c) ← readEmptyLines indent fuel widest c
      pure (br ++ more, widest, c)
    else pure ([], widest, c)

/-- The lines of a block scalar from one that is indented as it should be, with the breaks between
them joined in the folded style.  `before` is the break of the last line, `empty` are those of the
empty lines behind it, and `wasBlank` tells whether the last line starts with a blank.  Returns the
text, the last break and the breaks of the empty lines at the end.  `fuel` bounds the lines. -/
def readBlockLines (literal : Bool) (indent : Nat) :
    Nat → Bool → List Char → List Char → Cursor →
      Option (List Char × List Char × List Char × Cursor)
  | 0, _, _, _, _ => none
  | fuel + 1, wasBlank, before, empty, c =>
    if c.column = indent ∧ c.atEnd = false then do
      let blank := c.atBlank
      let front :=
        if !literal && before == ['\n'] && !wasBlank && !blank then
          (if empty.isEmpty then [' '] else empty)
        else before ++ empty
      let (line, c) := c.takeWhile fun ch => !isBreak ch
      let (br, c) := c.takeBreak
      let (empty, _, c) ← readEmptyLines indent fuel 0 c
      let (more, last, tail, c) ← readBlockLines literal indent fuel blank br empty c
      pure (front ++ line ++ more, last, tail, c)
    else some ([], before, empty, c)

/-- The block scalar at a cursor, inside a collection that is indented by `outer`. -/
def readBlock (literal : Bool) (outer : Int) (c : Cursor) : Option (Token × Cursor) := do
  let (chomp, increment, c) ← readBlockHeader (c.skip 1)
  let c := (c.skipWhile isBlank).skipComment
  guard (c.endsLine 0)
  let c := c.skipBreak
  let fixed := if increment = 0 then 0 else (max outer 0).toNat + increment
  let (empty, widest, c) ← readEmptyLines fixed (c.rest.length + 1) 0 c
  let indent := if fixed = 0 then max widest (max (outer + 1).toNat 1) else fixed
  let (text, last, tail, c) ← readBlockLines literal indent (c.rest.length + 2) false [] empty c
  let ending := match chomp with
    | .strip => []
    | .clip => last
    | .keep => last ++ tail
  pure (.scalar (String.ofList (text ++ ending)) (if literal then .literal else .folded), c)

end SwaggerRoutes.Yaml
