/-
  Source/Escape.lean --- any text inside a string literal or a comment of Java source.

  A text keeps to its place: escaped for a literal it cannot end the literal or the line, escaped
  for a comment it cannot end the comment or the line.
-/

set_option autoImplicit false

namespace SwaggerRoutes.Source

/-! ## String literals -/

/-- How one character stands in a string literal. -/
def literalChar : Char → List Char
  | '\\' => ['\\', '\\']
  | '"' => ['\\', '"']
  | '\n' => ['\\', 'n']
  | '\r' => ['\\', 'r']
  | '\t' => ['\\', 't']
  | c => [c]

/-- What stands between the quotes of a string literal for a text. -/
def escapeLiteral (cs : List Char) : List Char :=
  cs.flatMap literalChar

/-- The string literal for a text. -/
def literal (s : String) : String :=
  "\"" ++ String.ofList (escapeLiteral s.toList) ++ "\""

/-! ## Comments -/

/-- A text for the inside of a comment.  The end mark of comments and the backslash, which may begin
a character number, are written as character references, and line ends as spaces. -/
def escapeComment : List Char → List Char
  | [] => []
  | '*' :: '/' :: cs => "*&#47;".toList ++ escapeComment cs
  | '\\' :: cs => "&#92;".toList ++ escapeComment cs
  | '\r' :: cs => ' ' :: escapeComment cs
  | '\n' :: cs => ' ' :: escapeComment cs
  | c :: cs => c :: escapeComment cs

/-- A string for the inside of a comment. -/
def comment (s : String) : String :=
  String.ofList (escapeComment s.toList)

/-- No line ends inside a string literal. -/
theorem not_mem_escapeLiteral_of_line_end {c : Char} (h : c = '\n' ∨ c = '\r') (cs : List Char) :
    c ∉ escapeLiteral cs := by
  intro hc
  obtain ⟨d, -, hd⟩ := List.mem_flatMap.1 hc
  unfold literalChar at hd
  split at hd <;> rcases h with rfl | rfl <;> grind

/-- No line ends inside a comment text. -/
theorem not_mem_escapeComment_of_line_end {c : Char} (h : c = '\n' ∨ c = '\r') (cs : List Char) :
    c ∉ escapeComment cs := by
  fun_induction escapeComment cs with
  | case1 => simp
  | case2 cs ih => rcases h with rfl | rfl <;> simp_all
  | case3 cs ih => rcases h with rfl | rfl <;> simp_all
  | case4 cs ih => rcases h with rfl | rfl <;> simp_all
  | case5 cs ih => rcases h with rfl | rfl <;> simp_all
  | case6 d cs _ _ _ _ ih => rcases h with rfl | rfl <;> simp_all [eq_comm]

end SwaggerRoutes.Source
