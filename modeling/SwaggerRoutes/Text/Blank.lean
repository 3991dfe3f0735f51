/-
  Text/Blank.lean --- white space, and text without it at its ends.

  A character is blank when Unicode gives it the property White_Space; there are twenty-five.
  `trimChars` removes blank characters from both ends of a text and leaves its inside alone.
-/

set_option autoImplicit false

namespace SwaggerRoutes.Text

/-- Characters with the Unicode property White_Space. -/
def isBlank (c : Char) : Bool :=
  let n := c.toNat
  (0x09 ≤ n && n ≤ 0x0D) || n == 0x20 || n == 0x85 || n == 0xA0 || n == 0x1680 ||
    (0x2000 ≤ n && n ≤ 0x200A) || n == 0x2028 || n == 0x2029 || n == 0x202F || n == 0x205F ||
    n == 0x3000

/-- The text without the blank characters at its two ends. -/
def trimChars (cs : List Char) : List Char :=
  ((cs.dropWhile isBlank).reverse.dropWhile isBlank).reverse

/-- The string without the blank characters at its two ends. -/
def trim (s : String) : String :=
  String.ofList (trimChars s.toList)

/-- A string of blank characters only; the empty string is one. -/
def isBlankText (s : String) : Bool :=
  s.toList.all isBlank

/-- The string itself unless it is blank. -/
def present? (s : String) : Option String :=
  if isBlankText s then none else some s

theorem toList_trim (s : String) : (trim s).toList = trimChars s.toList := by
  simp [trim]

theorem isBlankText_iff {s : String} : isBlankText s = true ↔ ∀ c ∈ s.toList, isBlank c = true := by
  simp [isBlankText]

end SwaggerRoutes.Text
