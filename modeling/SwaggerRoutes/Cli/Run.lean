/-
  Cli/Run.lean --- how commands are carried out.

  A command does one thing: it writes a source, prints a definition or makes a configuration file.
  When it fails it says why, and what it had not done by then stays undone.  An output that fails is
  a failure like others for a source; a definition is only printed, and there the command is broken
  off with an exit code of its own.
-/
import SwaggerRoutes.Cli.Arguments
import SwaggerRoutes.Cli.Failure
import SwaggerRoutes.Cli.Host
import SwaggerRoutes.Generator
import SwaggerRoutes.Yaml.Printer

set_option autoImplicit false

namespace SwaggerRoutes.Cli

open Files Route Swagger

variable {m : Type → Type} [Monad m]

/-! ## Before generation -/

/-- The configuration of the project in the working directory. -/
def loadConfig (h : Host m) : m (Except Failure Config) := do
  match ← Config.load h.store Config.fileName with
  | .error f => return .error (.ofConfig f Config.fileName)
  | .ok c => return .ok (c.getD .default)

/-- The format of the file at a path: JSON if the path says so, YAML otherwise. -/
def formatOf (path : String) : Format :=
  if extension? path = some "json" then .json else .yaml

/-- The description in the file at a path. -/
def loadSpec (h : Host m) (path : String) : m (Except Failure Spec) := do
  match ← h.store.readText path with
  | .error f => return .error ((Failure.plain f.message).within ("failed to read " ++ path))
  | .ok text => return (Spec.load (formatOf path) text).mapError .ofLoad

/-- The one destination of a project that has only one. -/
def fixedUri (c : Config) : Except Failure String :=
  match c.uri.bind Text.present? with
  | none => .error (.plain "destination.uri is required by the fixed destination strategy")
  | some uri => .ok uri

/-- The generator for a description in a project. -/
def generatorFor (c : Config) (spec : Spec) : Except Failure (Generator Namer) := do
  let fault := fun (f : NameFault) => Failure.ofGenerate (.names f)
  let g := (Generator.ofSpec spec).withIndent c.indent
  let g ← match c.packageName with
    | none => .ok g
    | some n => (g.withPackageName n).mapError fault
  let g ← match c.className with
    | none => .ok g
    | some n => (g.withClassName n).mapError fault
  match c.strategy with
  | .direct => .ok g
  | .fixed => do
    let uri ← fixedUri c
    .ok (g.withStrategy (.fixed uri) g.state)

/-- The configuration, and the generator for the description that is asked for. -/
def prepare (h : Host m) (input : Option String) :
    m (Except Failure (Config × Generator Namer)) := do
  match ← loadConfig h with
  | .error f => return .error f
  | .ok c =>
    match ← loadSpec h (input.getD c.input) with
    | .error f => return .error f
    | .ok spec => return (generatorFor c spec).map (c, ·)

/-! ## Commands -/

/-- Why a command stops before it has done what it was asked for. -/
inductive Stop where
  /-- It failed. -/
  | failed (f : Failure)
  /-- The output failed under what was printed. -/
  | broken (f : Fault)
  deriving DecidableEq, Repr

/-- Writes the source to the output. -/
def generateToOutput (h : Host m) (g : Generator Namer) : m (Except Failure Unit) := do
  let r ← g.toSink h.output
  return r.result.mapError fun f =>
    (Failure.ofGenerate f).within "failed to write generated source"

/-- Writes the source under a directory. -/
def generateUnder (h : Host m) (g : Generator Namer) (dir : String) :
    m (Except Failure Unit) := do
  h.tell ("Generating " ++ g.qualifiedName ++ " → " ++ dir ++ "\n")
  let r ← g.toDirectory h.store dir
  match r.result with
  | .error f => return .error ((Failure.ofGenerate f).within ("failed to generate into " ++ dir))
  | .ok path =>
    h.tell ("  wrote " ++ path ++ "\n")
    return .ok ()

/-- A definition as it is printed. -/
def dump (format : DumpFormat) (d : Definition) : String :=
  match format with
  | .yaml => Yaml.render d.toJson
  | .json => d.toJson.indentedText ++ "\n"

/-- Prints the definition of a description. -/
def inspect (h : Host m) (g : Generator Namer) (format : DumpFormat) :
    m (Except Stop Unit) := do
  match g.define.result with
  | .error f => return .error (.failed (.ofGenerate f))
  | .ok d => return (← h.output.deliver (dump format d)).mapError .broken

/-- Makes a configuration file, in place of one that is there only if that is asked for. -/
def makeConfig (h : Host m) (force : Bool) : m (Except Failure Unit) := do
  if (← h.store.isThere Config.fileName) && !force then
    return .error (.plain (Config.fileName ++ " already exists. Use --force to overwrite."))
  match ← h.store.create Config.fileName with
  | .error f => return .error (.plain f.message)
  | .ok () =>
    match ← h.store.append Config.fileName (Text.utf8 Config.initialText) with
    | .error f => return .error (.plain f.message)
    | .ok () =>
      h.tell ("Created " ++ Config.fileName ++ "\n")
      return .ok ()

/-- Carries out a command. -/
def perform (h : Host m) : Command → m (Except Stop Unit)
  | .generate input output toOutput => do
    match ← prepare h input with
    | .error f => return .error (.failed f)
    | .ok (c, g) =>
      let r ← if toOutput then generateToOutput h g else generateUnder h g (output.getD c.output)
      return r.mapError .failed
  | .inspect input format => do
    match ← prepare h input with
    | .error f => return .error (.failed f)
    | .ok (_, g) => inspect h g format
  | .init force => return (← makeConfig h force).mapError .failed

/-! ## Whole runs -/

/-- The exit code of a command that did what it was asked for. -/
def success : UInt32 := 0

/-- The exit code of a command that failed. -/
def failure : UInt32 := 1

/-- The exit code of a command line that cannot be understood. -/
def misuse : UInt32 := 2

/-- The exit code of a command that was broken off. -/
def breakdown : UInt32 := 101

namespace Stop

/-- The exit code of a command that stopped. -/
def exitCode : Stop → UInt32
  | failed _ => failure
  | broken _ => breakdown

/-- What the user is told; the words around the fault of an output are left open. -/
def render : Stop → String
  | failed f => f.render
  | broken f => "failed printing to stdout: " ++ f.message ++ "\n"

end Stop

/-- Runs the command of a command line; the result is the exit code. -/
def run (h : Host m) (arguments : List String) : m UInt32 := do
  match Command.ofArguments? arguments with
  | none =>
    h.tell "error: usage: restdsl generate|inspect|init [switches]\n"
    return misuse
  | some c =>
    match ← perform h c with
    | .error s =>
      h.tell s.render
      return s.exitCode
    | .ok () => return success

end SwaggerRoutes.Cli
