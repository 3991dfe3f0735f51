/-
  Cli/Host.lean --- where commands run.

  A host has files, an output and a place for messages.  A `Session` is a host that is a value: the
  files before and after a command, and all that the command said, can be looked at.
-/
import SwaggerRoutes.Files.Sink

set_option autoImplicit false

namespace SwaggerRoutes.Cli

open Files

/-- Where commands run. -/
structure Host (m : Type → Type) where
  /-- The files. -/
  store : Store m
  /-- The output. -/
  output : Sink m
  /-- Tells the user something that is no output. -/
  tell : String → m Unit

/-- Files, and what was said so far. -/
structure Session where
  /-- The files. -/
  tree : Tree
  /-- The bytes of the output. -/
  output : List UInt8
  /-- What the user was told. -/
  told : String

namespace Session

/-- A session in which nothing was said. -/
def start (tree : Tree) : Session := ⟨tree, [], ""⟩

/-- An operation on the files of a session. -/
def onTree {α : Type} (f : StateM Tree α) : StateM Session α := fun s =>
  let (a, t) := f s.tree
  (a, { s with tree := t })

/-- A session as a host, with a working directory. -/
def host (here : Address) : Host (StateM Session) where
  store := (Tree.store here).inMonad onTree
  output := {
    write := fun bytes s =>
      (.ok (Fin.last bytes.length), { s with output := s.output ++ bytes })
    flush := fun s => (.ok (), s) }
  tell text := fun s => ((), { s with told := s.told ++ text })

end Session

end SwaggerRoutes.Cli
