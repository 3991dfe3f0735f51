/-
  Files/Path.lean --- paths as text.

  A path is a sequence of names with slashes between them, and an absolute one begins with a slash.
  `push` puts one path after another: it never changes a name, but an absolute path takes the place
  of all that is before it.
-/
import SwaggerRoutes.Naming.Identifier

set_option autoImplicit false

namespace SwaggerRoutes.Files

open Text

/-! ## Paths in front of others -/

/-- Whether a path begins at the root. -/
def isAbsolute (path : String) : Bool :=
  path.toList.head? == some '/'

/-- A path after another.  A slash is put between them unless the first is empty or ends with one.
-/
def push (path next : String) : String :=
  if isAbsolute next then next
  else if path.isEmpty || path.toList.getLast? == some '/' then path ++ next
  else path ++ "/" ++ next

/-- The ending of source files. -/
def sourceEnding : String := ".java"

/-- The path of the source file of a qualified name: a directory for each part of the name but the
last, which names the file. -/
def sourcePath (root qualifiedName : String) : String :=
  let parts := (Naming.segments qualifiedName).map String.ofList
  push (parts.dropLast.foldl push root) (parts.getLastD "" ++ sourceEnding)

/-! ## Names on a path -/

/-- The names on a path.  Empty ones and a point for the directory itself are left out, except for a
point at the very front. -/
def names (path : String) : List String :=
  match (pieces '/' path.toList).map String.ofList with
  | [] => []
  | n :: ns => (if n = "" then [] else [n]) ++ ns.filter fun m => m ≠ "" ∧ m ≠ "."

/-- A path with certain names. -/
def ofNames (absolute : Bool) (ns : List String) : String :=
  (if absolute then "/" else "") ++ "/".intercalate ns

/-- The path with one slash between names and none at the end. -/
def normal (path : String) : String :=
  ofNames (isAbsolute path) (names path)

/-- The paths of the directories around a path, from the inside out; the empty path is none of
them. -/
def parents (path : String) : List String :=
  let ns := names path
  (((List.range ns.length).reverse.map ns.take).map (ofNames (isAbsolute path))).filter
    fun p => !p.isEmpty

/-- The part of the last name on a path after its last point, if there is one and something is
before it. -/
def extension? (path : String) : Option String :=
  match (names path).getLast? with
  | none => none
  | some n =>
    match (pieces '.' n.toList).reverse with
    | [] => none
    | [_] => none
    | last :: before =>
      if n = ".." ∨ before.all List.isEmpty ∧ before.length = 1 then none
      else some (String.ofList last)

end SwaggerRoutes.Files
