/-
  Files/Store.lean --- what may be done with files, wherever they are.

  A store says how each operation is carried out in a monad.  A tree is a store, and so is the file
  system of a machine; what is built from the operations is the same for both.
-/
import SwaggerRoutes.Files.Tree
import SwaggerRoutes.Text.Utf8

set_option autoImplicit false

namespace SwaggerRoutes.Files

/-- Whether an operating system can be told a path: a zero character would end it too early. -/
def isTellable (path : String) : Bool :=
  path.toList.all fun c => c ≠ '\x00'

/-- What an operating system answers about a path, if it can be asked. -/
def asked {α : Type} (path : String) (answer : Except OsFault α) : Except Fault α :=
  if isTellable path then answer.mapError .os else .error .zeroInPath

/-- Files and directories under paths. -/
structure Store (m : Type → Type) where
  /-- Whether there is something at a path. -/
  isThere : String → m Bool
  /-- Whether there is a directory at a path. -/
  isDirectory : String → m Bool
  /-- The content of a file. -/
  read : String → m (Except Fault (List UInt8))
  /-- Makes a file empty, or makes an empty file. -/
  create : String → m (Except Fault Unit)
  /-- Adds bytes to the end of a file. -/
  append : String → List UInt8 → m (Except Fault Unit)
  /-- Makes a directory in one that is there. -/
  createDirectory : String → m (Except Fault Unit)

namespace Store

variable {m : Type → Type} [Monad m]

/-- Makes a directory, the first of a list of paths, and before it those of the others that are
missing; each path stands for the directory around the one before it. -/
def createDirectories (s : Store m) : List String → m (Except Fault Unit)
  | [] => pure (.ok ())
  | p :: outer => do
    match ← s.createDirectory p with
    | .ok () => return .ok ()
    | .error (.os .noEntry) =>
      match ← s.createDirectories outer with
      | .error f => return .error f
      | .ok () =>
        match ← s.createDirectory p with
        | .ok () => return .ok ()
        | .error f => if ← s.isDirectory p then return .ok () else return .error f
    | .error f => if ← s.isDirectory p then return .ok () else return .error f

/-- The text of a file. -/
def readText (s : Store m) (path : String) : m (Except Fault String) := do
  match ← s.read path with
  | .error f => return .error f
  | .ok bytes =>
    match Text.ofUtf8? bytes with
    | none => return .error .notText
    | some t => return .ok t

/-- The store with its operations carried out in another monad. -/
def inMonad {n : Type → Type} (s : Store m) (run : {α : Type} → m α → n α) : Store n where
  isThere path := run (s.isThere path)
  isDirectory path := run (s.isDirectory path)
  read path := run (s.read path)
  create path := run (s.create path)
  append path bytes := run (s.append path bytes)
  createDirectory path := run (s.createDirectory path)

end Store

/-! ## Trees as stores -/

namespace Tree

/-- Changes the tree at a path, unless the change fails. -/
def attempt (path : String) (f : Tree → Except OsFault Tree) : StateM Tree (Except Fault Unit) :=
  fun t =>
    match asked path (f t) with
    | .error e => (.error e, t)
    | .ok t' => (.ok (), t')

/-- A tree as a store, seen from a working directory. -/
def store (here : Address) : Store (StateM Tree) where
  isThere path := fun t => (t.isThere here path, t)
  isDirectory path := fun t => (t.isDirectory here path, t)
  read path := fun t => (asked path (t.read here path), t)
  create path := attempt path fun t => t.create here path
  append path bytes := attempt path fun t => t.append here path bytes
  createDirectory path := attempt path fun t => t.createDirectory here path

end Tree

end SwaggerRoutes.Files
