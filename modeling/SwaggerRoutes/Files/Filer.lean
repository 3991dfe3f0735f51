/-
  Files/Filer.lean --- who decides where source files go.

  A filer is asked for a sink by the qualified name of a class.  A build directory is one: it puts
  each file where its name says, remembers the files it made, and makes none for a name twice.
-/
import SwaggerRoutes.Files.Sink
import SwaggerRoutes.Notice

set_option autoImplicit false

namespace SwaggerRoutes.Files

/-- Who gives out sinks for source files. -/
structure Filer (m : Type → Type) where
  /-- A sink for the source file of a qualified name, and the notices about it. -/
  openSource : String → m (Except Fault (Sink m) × List Notice)

/-- A directory into which a build puts source files. -/
structure BuildDirectory where
  /-- Where the files go. -/
  root : String
  /-- The names of the files made so far. -/
  created : List String
  /-- The paths of the files made so far, in order. -/
  generated : List String
  deriving DecidableEq, Repr

namespace BuildDirectory

/-- A build directory into which nothing has been put. -/
def rootedAt (root : String) : BuildDirectory := ⟨root, [], []⟩

/-- The build directory that the environment names. -/
def ofEnvironment (outputDirectory : Option String) : Except Fault BuildDirectory :=
  match outputDirectory with
  | none => .error .noOutputDirectory
  | some root => .ok (rootedAt root)

/-- Where the source file of a qualified name goes. -/
def sourcePath (b : BuildDirectory) (qualifiedName : String) : String :=
  Files.sourcePath b.root qualifiedName

/-- Why a name is refused before any file is touched. -/
def refusal? (b : BuildDirectory) (qualifiedName : String) : Option Fault :=
  if !Naming.isQualifiedName qualifiedName then some (.notQualified qualifiedName)
  else if qualifiedName ∈ b.created then some (.alreadyCreated qualifiedName)
  else none

/-- The build directory with a file noted. -/
def note (b : BuildDirectory) (qualifiedName : String) : BuildDirectory where
  root := b.root
  created := qualifiedName :: b.created
  generated := b.generated ++ [b.sourcePath qualifiedName]

/-- Makes the file of a name, empty, with the directories around it. -/
def createSource {m : Type → Type} [Monad m] (s : Store m) (b : BuildDirectory)
    (qualifiedName : String) : m (Except Fault String × BuildDirectory) := do
  match b.refusal? qualifiedName with
  | some f => return (.error f, b)
  | none =>
    let path := b.sourcePath qualifiedName
    match ← s.createDirectories (parents path) with
    | .error f => return (.error f, b)
    | .ok () =>
      match ← s.create path with
      | .error f => return (.error f, b)
      | .ok () => return (.ok path, b.note qualifiedName)

/-- A build directory as a filer. -/
def filer {m : Type → Type} [Monad m] (s : Store m) : Filer (StateT BuildDirectory m) where
  openSource qualifiedName := do
    let b ← get
    let (result, b) ← StateT.lift (createSource s b qualifiedName)
    set b
    match result with
    | .error f => return (.error f, [])
    | .ok path =>
      let sink := s.sink path
      return (.ok ⟨fun bytes => StateT.lift (sink.write bytes), StateT.lift sink.flush⟩,
        [.created path])

end BuildDirectory

end SwaggerRoutes.Files
