/-
  Generator/Fault.lean --- why no source is generated.
-/
import SwaggerRoutes.Files.Fault
import SwaggerRoutes.Route.Derivation

set_option autoImplicit false

namespace SwaggerRoutes

/-- A name that no source can have. -/
inductive NameFault where
  /-- The class name that was asked for. -/
  | className (name : String)
  /-- The package name that was asked for. -/
  | packageName (name : String)
  /-- The class name that the description gives. -/
  | derivedClassName (name : String)
  /-- The package name that the description gives. -/
  | derivedPackageName (name : String)
  deriving DecidableEq, Repr

/-- The message for a name. -/
def NameFault.message : NameFault → String
  | className n => Text.quoted n ++ " is not a valid class name"
  | packageName n => Text.quoted n ++ " is not a valid package name"
  | derivedClassName n => "derived class name " ++ Text.quoted n ++ " is not valid"
  | derivedPackageName n => "derived package name " ++ Text.quoted n ++ " is not valid"

/-- Why no source is generated. -/
inductive GenerateFault where
  /-- The description has no routes to speak of. -/
  | spec (f : Route.SpecFault)
  /-- A name is wrong. -/
  | names (f : NameFault)
  /-- The source cannot be written. -/
  | files (f : Files.Fault)
  deriving DecidableEq, Repr

/-- The message for a fault. -/
def GenerateFault.message : GenerateFault → String
  | spec f => "invalid specification: " ++ f.message
  | names f => "invalid configuration: " ++ f.message
  | files f => "I/O error: " ++ f.message

end SwaggerRoutes
