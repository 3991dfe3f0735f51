/-
  Proofs/Java/Lexeme.lean --- how the text of a Java source is read.

  Reading has two phases.  `translate` replaces numbers of characters, a backslash, a `u` and four
  digits, by the characters; a backslash counts only if an even number of them stands in front of
  it.  `scan` then goes through the characters with a `Mode` that says what has been begun, and
  gives out lexemes: tokens and comments.

  Only what is certain is read.  Character literals, numbers, operators, text blocks, escapes by
  octal numbers and letters that are not ASCII are refused, so where `read` succeeds its answer is
  the one that the rules of the language give, and that it succeeds is a statement of its own.
-/
import SwaggerRoutes.Text.Digits

set_option autoImplicit false

namespace SwaggerRoutes.Java

/-! ## Lexemes -/

/-- What sources are made of apart from white space and comments. -/
inductive Token where
  /-- A name. -/
  | identifier (name : String)
  /-- A keyword, or a literal that is written as a word. -/
  | reserved (word : String)
  /-- A string literal, by the text that it stands for. -/
  | text (value : String)
  /-- A character that separates. -/
  | separator (c : Char)
  deriving DecidableEq, Repr

/-- A token or a comment. -/
inductive Lexeme where
  | token (t : Token)
  /-- What stands between the marks of a comment. -/
  | comment (text : String)
  deriving DecidableEq, Repr

/-- The token of a lexeme that is one. -/
def Lexeme.token? : Lexeme → Option Token
  | token t => some t
  | comment _ => none

/-- The text of a lexeme that is a comment. -/
def Lexeme.comment? : Lexeme → Option String
  | token _ => none
  | comment text => some text

/-- The tokens among lexemes. -/
def tokens (ls : List Lexeme) : List Token :=
  ls.filterMap Lexeme.token?

/-- The comments among lexemes. -/
def comments (ls : List Lexeme) : List String :=
  ls.filterMap Lexeme.comment?

theorem tokens_append (ls ks : List Lexeme) : tokens (ls ++ ks) = tokens ls ++ tokens ks :=
  List.filterMap_append

theorem comments_append (ls ks : List Lexeme) :
    comments (ls ++ ks) = comments ls ++ comments ks :=
  List.filterMap_append

theorem tokens_map_token (ts : List Token) : tokens (ts.map .token) = ts := by
  induction ts with
  | nil => rfl
  | cons t ts ih => exact congrArg (t :: ·) ih

theorem comments_map_token (ts : List Token) : comments (ts.map .token) = [] := by
  induction ts with
  | nil => rfl
  | cons t ts ih => exact ih

/-- The tokens of names with points between them. -/
def dottedNames (names : List String) : List Token :=
  (names.map .identifier).intersperse (.separator '.')

/-! ## Numbers of characters -/

/-- The character with a number of four digits in base sixteen; numbers of surrogates are
refused. -/
def charOfDigits? (digits : List Char) : Option Char :=
  if digits.length = 4 then
    match Text.readDigits? 16 digits with
    | none => none
    | some n => if n.isValidChar then some (Char.ofNat n) else none
  else none

/-- A text with the numbers of characters in it replaced by the characters.  Two backslashes in a
row stay as they are, whatever follows them. -/
def translate : List Char → Option (List Char)
  | [] => some []
  | '\\' :: '\\' :: cs => (translate cs).map fun ds => '\\' :: '\\' :: ds
  | '\\' :: 'u' :: cs =>
    let digits := cs.dropWhile (· == 'u')
    match charOfDigits? (digits.take 4) with
    | none => none
    | some c => (translate (digits.drop 4)).map fun ds => c :: ds
  | c :: cs => (translate cs).map fun ds => c :: ds
  termination_by cs => cs.length
  decreasing_by
    all_goals try simp only [List.length_cons]; omega
    simp only [List.length_drop, List.length_cons]
    have := (List.dropWhile_sublist (l := cs) (· == 'u')).length_le
    omega

/-! ## Characters -/

/-- White space between lexemes. -/
def isWhite (c : Char) : Bool :=
  c == ' ' || c == '\t' || c == '\x0c' || c == '\n' || c == '\r'

/-- Characters that end a line. -/
def isLineEnd (c : Char) : Bool :=
  c == '\n' || c == '\r'

/-- Characters with which a word may start. -/
def isLetter (c : Char) : Bool :=
  ('a' ≤ c && c ≤ 'z') || ('A' ≤ c && c ≤ 'Z') || c == '_' || c == '$'

/-- Characters of words. -/
def isLetterOrDigit (c : Char) : Bool :=
  isLetter c || ('0' ≤ c && c ≤ '9')

/-- Characters that are separators whatever follows them. -/
def isSeparator (c : Char) : Bool :=
  c == '(' || c == ')' || c == '\x7b' || c == '\x7d' || c == '[' || c == ']' || c == ';' ||
    c == ',' || c == '@'

/-- The words that are keywords or literals. -/
def reservedWords : List String :=
  ["abstract", "assert", "boolean", "break", "byte", "case", "catch", "char", "class", "const",
    "continue", "default", "do", "double", "else", "enum", "extends", "final", "finally", "float",
    "for", "goto", "if", "implements", "import", "instanceof", "int", "interface", "long", "native",
    "new", "package", "private", "protected", "public", "return", "short", "static", "strictfp",
    "super", "switch", "synchronized", "this", "throw", "throws", "transient", "try", "void",
    "volatile", "while", "_", "true", "false", "null"]

/-- The token that a word is. -/
def wordToken (word : List Char) : Token :=
  if String.ofList word ∈ reservedWords then .reserved (String.ofList word)
  else .identifier (String.ofList word)

/-- What a character after a backslash stands for in a string literal. -/
def escaped? : Char → Option Char
  | 'b' => some '\x08'
  | 's' => some ' '
  | 't' => some '\t'
  | 'n' => some '\n'
  | 'f' => some '\x0c'
  | 'r' => some '\r'
  | '"' => some '"'
  | '\'' => some '\''
  | '\\' => some '\\'
  | _ => none

/-! ## Scanning -/

/-- What has been begun. -/
inductive Mode where
  /-- Nothing. -/
  | between
  /-- A word, with its characters so far. -/
  | word (cs : List Char)
  /-- A point was met. -/
  | point
  /-- A slash was met. -/
  | slash
  /-- A comment up to the end of the line. -/
  | lineComment (cs : List Char)
  /-- A comment up to its end mark. -/
  | comment (cs : List Char)
  /-- Such a comment, in which a star was met after the characters. -/
  | star (cs : List Char)
  /-- A string literal. -/
  | literal (cs : List Char)
  /-- A string literal, in which a backslash was met after the characters. -/
  | escape (cs : List Char)
  /-- Two quotes were met, which are an empty literal unless a third one follows. -/
  | quotes
  deriving DecidableEq, Repr

/-- What reading some characters gives: lexemes that have ended, and what has been begun. -/
abbrev Reading := Option (List Lexeme × Mode)

/-- The reading with lexemes in front. -/
def Reading.after (ls : List Lexeme) (r : Reading) : Reading :=
  r.map fun p => (ls ++ p.1, p.2)

/-- Reading a character when nothing has been begun. -/
def start (c : Char) : Reading :=
  if isWhite c then some ([], .between)
  else if isLetter c then some ([], .word [c])
  else if isSeparator c then some ([.token (.separator c)], .between)
  else if c = '.' then some ([], .point)
  else if c = '/' then some ([], .slash)
  else if c = '"' then some ([], .literal [])
  else none

/-- Reading a character. -/
def step : Mode → Char → Reading
  | .between, c => start c
  | .word cs, c =>
    if isLetterOrDigit c then some ([], .word (cs ++ [c]))
    else (start c).after [.token (wordToken cs)]
  | .point, c =>
    if c = '.' ∨ ('0' ≤ c ∧ c ≤ '9') then none
    else (start c).after [.token (.separator '.')]
  | .slash, c =>
    if c = '/' then some ([], .lineComment [])
    else if c = '*' then some ([], .comment [])
    else none
  | .lineComment cs, c =>
    if isLineEnd c then some ([.comment (String.ofList cs)], .between)
    else some ([], .lineComment (cs ++ [c]))
  | .comment cs, c =>
    if c = '*' then some ([], .star cs) else some ([], .comment (cs ++ [c]))
  | .star cs, c =>
    if c = '/' then some ([.comment (String.ofList cs)], .between)
    else if c = '*' then some ([], .star (cs ++ ['*']))
    else some ([], .comment (cs ++ ['*', c]))
  | .literal cs, c =>
    if c = '"' then
      if cs = [] then some ([], .quotes)
      else some ([.token (.text (String.ofList cs))], .between)
    else if c = '\\' then some ([], .escape cs)
    else if isLineEnd c then none
    else some ([], .literal (cs ++ [c]))
  | .escape cs, c => (escaped? c).map fun d => ([], .literal (cs ++ [d]))
  | .quotes, c => if c = '"' then none else (start c).after [.token (.text "")]

/-- Reading characters. -/
def scan : Mode → List Char → Reading
  | m, [] => some ([], m)
  | m, c :: cs => (step m c).bind fun p => (scan p.2 cs).after p.1

/-- What has been begun, if it may end where the text ends. -/
def finish : Mode → Option (List Lexeme)
  | .between => some []
  | .word cs => some [.token (wordToken cs)]
  | .point => some [.token (.separator '.')]
  | .lineComment cs => some [.comment (String.ofList cs)]
  | .quotes => some [.token (.text "")]
  | .slash | .comment _ | .star _ | .literal _ | .escape _ => none

/-- The lexemes of a source. -/
def read (source : String) : Option (List Lexeme) := do
  let cs ← translate source.toList
  let (ls, m) ← scan .between cs
  return ls ++ (← finish m)

end SwaggerRoutes.Java
