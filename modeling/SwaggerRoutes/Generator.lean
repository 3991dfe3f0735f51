/-
  Generator.lean --- from a description to the source of a class.

  A generator holds a description, how names and destinations are chosen, and the state of the
  latter.  Every output begins with one derivation of rules, and the generator that goes on
  afterwards is the one with the state in which the derivation left the strategy, whatever became
  of the output.
-/
import SwaggerRoutes.Files.Filer
import SwaggerRoutes.Generator.Fault
import SwaggerRoutes.Naming.ClassName
import SwaggerRoutes.Naming.PackageName
import SwaggerRoutes.Source.Builder

set_option autoImplicit false

namespace SwaggerRoutes

open Files Route Source Swagger

/-- All that decides what source is generated. -/
structure Generator (σ : Type) where
  /-- The description. -/
  spec : Spec
  /-- How destinations are chosen. -/
  strategy : Strategy σ
  /-- The state of the strategy. -/
  state : σ
  /-- How the class is named. -/
  classNameOf : Spec → String
  /-- How its package is named. -/
  packageNameOf : Spec → String
  /-- What one level of indentation is. -/
  indent : String

namespace Generator

variable {σ : Type}

/-! ## Setting up -/

/-- The indentation unless another is asked for. -/
def defaultIndent : String := "    "

/-- The generator for a description that takes all names from it. -/
def ofSpec (spec : Spec) : Generator Namer where
  spec := spec
  strategy := Namer.direct
  state := .fresh
  classNameOf := Naming.className
  packageNameOf := Naming.packageName
  indent := defaultIndent

/-- The generator with destinations chosen in another way. -/
def withStrategy {τ : Type} (g : Generator σ) (d : Strategy τ) (s : τ) : Generator τ where
  spec := g.spec
  strategy := d
  state := s
  classNameOf := g.classNameOf
  packageNameOf := g.packageNameOf
  indent := g.indent

/-- The generator with the class named in another way. -/
def withClassNameOf (g : Generator σ) (f : Spec → String) : Generator σ :=
  { g with classNameOf := f }

/-- The generator with the package named in another way. -/
def withPackageNameOf (g : Generator σ) (f : Spec → String) : Generator σ :=
  { g with packageNameOf := f }

/-- The generator with a fixed class name, which must be an identifier. -/
def withClassName (g : Generator σ) (name : String) : Except NameFault (Generator σ) :=
  if Naming.isIdentifier name then .ok (g.withClassNameOf fun _ => name)
  else .error (.className name)

/-- The generator with a fixed package name, which must be a qualified name. -/
def withPackageName (g : Generator σ) (name : String) : Except NameFault (Generator σ) :=
  if Naming.isQualifiedName name then .ok (g.withPackageNameOf fun _ => name)
  else .error (.packageName name)

/-- The generator with another indentation. -/
def withIndent (g : Generator σ) (indent : String) : Generator σ :=
  { g with indent := indent }

/-- The generator with its strategy in another state. -/
def withState (g : Generator σ) (s : σ) : Generator σ :=
  { g with state := s }

/-! ## Names -/

/-- The name of the class. -/
def className (g : Generator σ) : String :=
  g.classNameOf g.spec

/-- The name of its package. -/
def packageName (g : Generator σ) : String :=
  g.packageNameOf g.spec

/-- The name of the class with its package. -/
def qualifiedName (g : Generator σ) : String :=
  Naming.qualify g.packageName g.className

/-- What the source needs besides its routes, if the names are such that a source can have them. -/
def layout (g : Generator σ) : Except NameFault Layout :=
  if !Naming.isQualifiedName g.packageName then .error (.derivedPackageName g.packageName)
  else if !Naming.isIdentifier g.className then .error (.derivedClassName g.className)
  else .ok {
    packageName := g.packageName
    className := g.className
    title := g.spec.title?.getD g.className
    basePath := g.spec.basePath
    indent := g.indent }

/-! ## Without a file -/

/-- The rules of the description. -/
def derive (g : Generator σ) : Run GenerateFault σ (List Rule) :=
  (Route.derive g.spec g.strategy g.state).mapError .spec

/-- The definition of the description. -/
def define (g : Generator σ) : Run GenerateFault σ Definition :=
  (Route.define g.spec g.strategy g.state).mapError .spec

/-- The source for rules, and the notices that making it gives. -/
def source (g : Generator σ) (rules : List Rule) : Except GenerateFault String × List Notice :=
  match g.layout with
  | .error f => (.error (.names f), [])
  | .ok l => (.ok (emit l rules), emitNotices rules)

/-- The source for the description. -/
def render (g : Generator σ) : Run GenerateFault σ String :=
  g.derive.andThen g.source

/-! ## Into sinks and files -/

variable {m : Type → Type} [Monad m]

/-- Writes the source to a sink. -/
def toSink (g : Generator σ) (s : Sink m) : m (Run GenerateFault σ Unit) :=
  g.render.andThenM fun text => do
    return ((← s.deliver text).mapError .files, [])

/-- Where the source goes under a directory. -/
def pathUnder (g : Generator σ) (dir : String) : String :=
  sourcePath dir g.qualifiedName

/-- Writes a text to a file, in place of one that is there, with the directories around it. -/
def writeFile (s : Store m) (path text : String) : m (Except Fault Unit) := do
  match ← s.createDirectories (parents path) with
  | .error f => return .error f
  | .ok () =>
    match ← s.create path with
    | .error f => return .error f
    | .ok () => s.append path (Text.utf8 text)

/-- Writes the source under a directory, where its name says; the result is its path. -/
def toDirectory (g : Generator σ) (s : Store m) (dir : String) : m (Run GenerateFault σ String) :=
  g.render.andThenM fun text => do
    let path := g.pathUnder dir
    match ← writeFile s path text with
    | .error f => return (.error (.files f), [])
    | .ok () => return (.ok path, [.wrote path])

/-- Writes the source to the sink that a filer gives for its name. -/
def toFiler (g : Generator σ) (f : Filer m) : m (Run GenerateFault σ Unit) :=
  g.render.andThenM fun text => do
    let (opened, notices) ← f.openSource g.qualifiedName
    match opened with
    | .error e => return (.error (.files e), notices)
    | .ok s =>
      match ← s.deliver text with
      | .error e => return (.error (.files e), notices)
      | .ok () => return (.ok (), notices ++ [.generated g.qualifiedName])

end Generator

end SwaggerRoutes
