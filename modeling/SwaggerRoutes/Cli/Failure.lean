/-
  Cli/Failure.lean --- how a command tells why it failed.

  A failure has a message and the causes behind it, the nearest first.  Causes are numbered when
  there are several, and the lines of one cause are indented alike.
-/
import SwaggerRoutes.Config
import SwaggerRoutes.Generator.Fault
import SwaggerRoutes.Swagger.Load
import SwaggerRoutes.Text.Pieces

set_option autoImplicit false

namespace SwaggerRoutes.Cli

/-- Why a command failed. -/
structure Failure where
  /-- What could not be done. -/
  message : String
  /-- Why, the nearest cause first. -/
  causes : List String
  deriving DecidableEq, Repr

namespace Failure

/-! ## Causes -/

/-- A failure behind which there is none. -/
def plain (message : String) : Failure := ⟨message, []⟩

/-- A fault of a generation. -/
def ofGenerate (f : GenerateFault) : Failure :=
  ⟨f.message,
    match f with
    | .spec _ => []
    | .names _ => []
    | .files e => [e.message]⟩

/-- A fault of the configuration file at a path. -/
def ofConfig (f : Config.Fault) (path : String) : Failure :=
  ⟨f.message path, [f.cause]⟩

/-- A fault of a description. -/
def ofLoad (f : Swagger.LoadFault) : Failure :=
  ⟨f.message, [f.cause]⟩

/-- A failure as the cause of another. -/
def within (f : Failure) (message : String) : Failure :=
  ⟨message, f.message :: f.causes⟩

/-! ## Text -/

/-- A text with its first line after a mark and the others indented. -/
def hang (mark indent text : String) : String :=
  mark ++ ("\n" ++ indent).intercalate ((Text.pieces '\n' text.toList).map String.ofList)

/-- A cause that is the only one. -/
def renderOnly (cause : String) : String :=
  "\n" ++ hang "    " "    " cause

/-- A cause with its number. -/
def renderNumbered (n : Nat) (cause : String) : String :=
  let digits := Text.decimal n
  let mark := String.ofList (List.replicate (5 - digits.length) ' ' ++ digits) ++ ": "
  "\n" ++ hang mark "       " cause

/-- Causes, each on lines of its own. -/
def renderCauses : List String → String
  | [] => ""
  | [cause] => "\n\nCaused by:" ++ renderOnly cause
  | causes => "\n\nCaused by:" ++ String.join (causes.mapIdx renderNumbered)

/-- What the user is told. -/
def render (f : Failure) : String :=
  "Error: " ++ f.message ++ renderCauses f.causes ++ "\n"

end Failure

end SwaggerRoutes.Cli
