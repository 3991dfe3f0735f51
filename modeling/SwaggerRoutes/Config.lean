/-
  Config.lean --- what a project decides once for all its generations.

  A project keeps its decisions in a YAML file in its directory.  A decision that the file does not
  give has a default, and so has every decision where there is no file.
-/
import SwaggerRoutes.Files.Store
import SwaggerRoutes.Swagger.Parameter
import SwaggerRoutes.Yaml.Decode

set_option autoImplicit false

namespace SwaggerRoutes

open Document Swagger

/-! ## Destinations -/

/-- How a project chooses destinations. -/
inductive DestinationChoice where
  /-- Each operation has a destination of its own. -/
  | direct
  /-- All operations have one destination. -/
  | fixed
  deriving DecidableEq, Repr, Inhabited

namespace DestinationChoice

/-- The name of a choice. -/
def name : DestinationChoice → String
  | direct => "direct"
  | fixed => "fixed"

/-- A choice is one of two names. -/
abbrev shape : Shape :=
  .choice "DestinationStrategy" "direct" ["fixed"]

/-- The choice at a place. -/
def ofValue (i : shape.Value) : DestinationChoice :=
  match i with
  | 0 => direct
  | 1 => fixed

end DestinationChoice

/-! ## The file -/

/-- The decisions of a project. -/
structure Config where
  /-- The path of the description. -/
  input : String
  /-- The directory under which sources go. -/
  output : String
  /-- The package of the class, unless it comes from the description. -/
  packageName : Option String
  /-- The name of the class, unless it comes from the description. -/
  className : Option String
  /-- What one level of indentation is. -/
  indent : String
  /-- How destinations are chosen. -/
  strategy : DestinationChoice
  /-- The one destination, if there is only one. -/
  uri : Option String
  deriving DecidableEq, Repr

namespace Config

/-- The fields that decide on destinations. -/
abbrev destinationShape : Shape :=
  .record "DestinationConfig" .placed <|
    .cons "strategy" .defaulted DestinationChoice.shape <|
    .cons "uri" .defaulted someText .nil

/-- The fields of the file. -/
abbrev shape : Shape :=
  .record "RestDslConfig" .placed <|
    .cons "input" .defaulted (.text "swagger.yaml") <|
    .cons "output" .defaulted (.text "src/main/java") <|
    .cons "package_name" .defaulted someText <|
    .cons "class_name" .defaulted someText <|
    .cons "indent" .defaulted (.text "    ") <|
    .cons "destination" .defaulted destinationShape .nil

/-- A configuration from the values of its fields. -/
def ofValue : shape.Value → Config
  | (input, output, packageName, className, indent, (strategy, uri, ()), ()) =>
    ⟨input, output, packageName, className, indent, .ofValue strategy, uri⟩

/-- The configuration that decides nothing. -/
def default : Config :=
  ofValue shape.absent

/-- The name of the file. -/
def fileName : String := ".restdsl.yaml"

/-- What a new file says. -/
def initialText : String :=
  String.join <| (· ++ "\n") <$>
    ["# restdsl configuration",
      "input: swagger.yaml",
      "output: src/main/java",
      "",
      "# package_name: com.example.api    # defaults to the reversed spec host",
      "# class_name: PetstoreRoutes       # defaults to <Title>RestDslRoutes",
      "indent: \"    \"",
      "",
      "destination:",
      "  strategy: direct      # direct | fixed",
      "  # uri: seda:requests  # required by the fixed strategy"]

/-- Why there is no configuration although there is a file. -/
inductive Fault where
  /-- The file cannot be read. -/
  | unreadable (f : Files.Fault)
  /-- The text is not that of a configuration. -/
  | unfit (f : Yaml.Fault)
  deriving DecidableEq, Repr

namespace Fault

/-- What is behind a fault. -/
def cause : Fault → String
  | unreadable f => f.message
  | unfit f => f.message

/-- The message for a fault in the file at a path. -/
def message (f : Fault) (path : String) : String :=
  match f with
  | unreadable _ => "failed to read config " ++ path ++ ": " ++ f.cause
  | unfit _ => "failed to parse config " ++ path ++ ": " ++ f.cause

end Fault

/-- The configuration that a text gives. -/
def ofText (text : String) : Except Fault Config :=
  ((Yaml.decode shape text).mapError .unfit).map ofValue

/-- The configuration in the file at a path; none if there is no file. -/
def load {m : Type → Type} [Monad m] (s : Files.Store m) (path : String) :
    m (Except Fault (Option Config)) := do
  if ← s.isThere path then
    match ← s.readText path with
    | .error f => return .error (.unreadable f)
    | .ok text => return (ofText text).map some
  else return .ok none

end Config

end SwaggerRoutes
