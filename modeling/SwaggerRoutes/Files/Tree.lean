/-
  Files/Tree.lean --- trees of files and directories.

  Whatever is in a tree stands in a directory that is in it too.  Paths are followed name by name
  through directories, so a path through something else, or through nothing, leads nowhere.
-/
import SwaggerRoutes.Files.Fault
import SwaggerRoutes.Files.Path
import SwaggerRoutes.Table

set_option autoImplicit false

namespace SwaggerRoutes.Files

/-! ## Entries -/

/-- Where something is: its name, then the names of the directories around it, from the inside
out.  The root is at `[]`. -/
abbrev Address := List String

/-- What an address may hold. -/
inductive Entry where
  | file (content : List UInt8)
  | directory
  deriving DecidableEq, Repr

/-- What entries hold at an address, the root being a directory. -/
def entryAt? (es : Table Address Entry) (a : Address) : Option Entry :=
  if a = [] then some .directory else es.get? a

/-- A tree of files and directories. -/
structure Tree where
  /-- What is where. -/
  entries : Table Address Entry
  /-- Every entry stands in a directory. -/
  rooted : ∀ n up, (entries.get? (n :: up)).isSome → entryAt? entries up = some .directory
  /-- The root is no entry. -/
  root_free : entries.get? [] = none

namespace Tree

/-- The tree that holds nothing but its root. -/
def empty : Tree := ⟨.empty, by simp [Table.get?_empty], by simp [Table.get?_empty]⟩

instance : Inhabited Tree := ⟨empty⟩

/-- What a tree holds at an address. -/
def at? (t : Tree) (a : Address) : Option Entry :=
  entryAt? t.entries a

theorem at?_nil (t : Tree) : t.at? [] = some .directory := by
  simp [at?, entryAt?]

/-- What is in a tree stands in a directory. -/
theorem at?_tail (t : Tree) {n : String} {up : Address} (h : (t.at? (n :: up)).isSome) :
    t.at? up = some .directory :=
  t.rooted n up (by simpa [at?, entryAt?] using h)

/-! ## Changes -/

/-- The tree with an entry put into a directory.  No file takes the place of a directory. -/
def put (t : Tree) (n : String) (up : Address) (e : Entry) (hup : t.at? up = some .directory)
    (he : e = .directory ∨ t.at? (n :: up) ≠ some .directory) : Tree where
  entries := t.entries.insert (n :: up) e
  rooted m vp hm := by
    simp only [entryAt?, Table.get?_insert] at hm ⊢
    have hself : ∀ {l : List String} {x : String}, l ≠ x :: l := by
      intro l x h
      have := congrArg List.length h
      simp at this
    split at hm
    · next heq =>
      obtain ⟨rfl, rfl⟩ := List.cons.inj heq
      simpa [hself, at?, entryAt?] using hup
    · have h := t.rooted m vp hm
      by_cases hv : vp = n :: up
      · subst hv
        rcases he with rfl | he
        · simp
        · exact absurd (by simpa [at?] using h) he
      · have hv' : ¬ n :: up = vp := fun e => hv e.symm
        simpa [hv', entryAt?] using h
  root_free := by simpa [Table.get?_insert] using t.root_free

theorem at?_put (t : Tree) (n : String) (up : Address) (e : Entry)
    (hup : t.at? up = some .directory)
    (he : e = .directory ∨ t.at? (n :: up) ≠ some .directory) (a : Address) :
    (t.put n up e hup he).at? a = if n :: up = a then some e else t.at? a := by
  by_cases ha : a = [] <;> simp [at?, entryAt?, put, Table.get?_insert, ha]

/-- The tree without what is at an address and below it. -/
def remove (t : Tree) (a : Address) : Tree where
  entries := t.entries.filterKeys fun b => !a.isSuffixOf b
  rooted n up h := by
    simp only [entryAt?, Table.get?_filterKeys] at h ⊢
    split at h
    · next hs =>
      have hr := t.rooted n up h
      by_cases hup : up = []
      · simp [hup]
      · have hs' : a.isSuffixOf up = false := by
          cases hx : a.isSuffixOf up
          · rfl
          · exfalso
            have : a <:+ n :: up := (List.isSuffixOf_iff_suffix.1 hx).trans (List.suffix_cons n up)
            simp [List.isSuffixOf_iff_suffix.2 this] at hs
        simpa [hup, hs', entryAt?] using hr
    · simp at h
  root_free := by simp [Table.get?_filterKeys, t.root_free]

/-! ## Paths in a tree -/

/-- How many bytes a name may have. -/
def nameLimit : Nat := 255

/-- How many bytes a path may have. -/
def pathLimit : Nat := 4095

/-- Where names lead from an address.  The last name may lead to nothing. -/
def follow (t : Tree) : Address → List String → Except OsFault Address
  | a, [] => .ok a
  | a, n :: ns =>
    match t.at? a with
    | none => .error .noEntry
    | some (.file _) => .error .notDirectory
    | some .directory =>
      if n = "" ∨ n = "." then t.follow a ns
      else if n = ".." then t.follow a.tail ns
      else if nameLimit < n.utf8ByteSize then .error .nameTooLong
      else t.follow (n :: a) ns

/-- Where a path leads from a working directory. -/
def resolve (t : Tree) (here : Address) (path : String) : Except OsFault Address :=
  if path.isEmpty then .error .noEntry
  else if pathLimit < path.utf8ByteSize then .error .nameTooLong
  else
    t.follow (if isAbsolute path then [] else here)
      ((Text.pieces '/' path.toList).map String.ofList)

/-! ## Reading -/

/-- Whether there is something at a path. -/
def isThere (t : Tree) (here : Address) (path : String) : Bool :=
  match t.resolve here path with
  | .error _ => false
  | .ok a => (t.at? a).isSome

/-- Whether there is a directory at a path. -/
def isDirectory (t : Tree) (here : Address) (path : String) : Bool :=
  match t.resolve here path with
  | .error _ => false
  | .ok a => t.at? a = some .directory

/-- The content of the file at a path. -/
def read (t : Tree) (here : Address) (path : String) : Except OsFault (List UInt8) := do
  let a ← t.resolve here path
  match t.at? a with
  | none => .error .noEntry
  | some .directory => .error .isDirectory
  | some (.file c) => .ok c

/-! ## Writing -/

/-- Puts a file with a content at an address. -/
def putFile (t : Tree) (a : Address) (content : List UInt8) : Except OsFault Tree :=
  match a with
  | [] => .error .isDirectory
  | n :: up =>
    if he : t.at? (n :: up) = some .directory then .error .isDirectory
    else if hup : t.at? up = some .directory then
      .ok (t.put n up (.file content) hup (.inr he))
    else .error .noEntry

/-- Makes the file at a path empty, or makes an empty file there. -/
def create (t : Tree) (here : Address) (path : String) : Except OsFault Tree := do
  let a ← t.resolve here path
  t.putFile a []

/-- Adds bytes to the end of the file at a path. -/
def append (t : Tree) (here : Address) (path : String) (bytes : List UInt8) :
    Except OsFault Tree := do
  let c ← t.read here path
  let a ← t.resolve here path
  t.putFile a (c ++ bytes)

/-- Makes a directory at a path, where nothing may be and all directories around must be. -/
def createDirectory (t : Tree) (here : Address) (path : String) : Except OsFault Tree := do
  let a ← t.resolve here (normal path)
  match a with
  | [] => .error .alreadyThere
  | n :: up =>
    if (t.at? (n :: up)).isSome then .error .alreadyThere
    else if hup : t.at? up = some .directory then
      .ok (t.put n up .directory hup (.inl rfl))
    else .error .noEntry

/-! ## Listing -/

/-- All that is below an address: the names that lead to it from there, and what it is. -/
def below (t : Tree) (a : Address) : List (List String × Entry) :=
  t.entries.entries.filterMap fun (b, e) =>
    if a.isSuffixOf b && a.length < b.length then
      some ((b.take (b.length - a.length)).reverse, e)
    else none

end Tree

end SwaggerRoutes.Files
