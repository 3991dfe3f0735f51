/-
  Notice.lean --- what the library tells its user on the way.

  A notice never changes a result.  Its level and its wording are functions of what it reports, so
  statements about notices need not speak of text.
-/
import SwaggerRoutes.Swagger.Operation
import SwaggerRoutes.Text.Quoted

set_option autoImplicit false

namespace SwaggerRoutes

open Swagger

/-- How much a notice matters. -/
inductive Level where
  | warning
  | info
  | debug
  deriving DecidableEq, Repr

/-- The name of a level. -/
def Level.name : Level → String
  | warning => "WARN"
  | info => "INFO"
  | debug => "DEBUG"

/-- Something the user may want to know. -/
inductive Notice where
  /-- A document claims a version of the format that is not known. -/
  | unknownVersion (version : String)
  /-- An operation has the id of an earlier one. -/
  | repeatedId (id : String)
  /-- An operation was given its destination. -/
  | routed (method : Method) (path destination : String)
  /-- A parameter that is only a reference was left out. -/
  | skippedReference (target : String)
  /-- A parameter asks for a collection format that the generated code cannot name. -/
  | unknownCollectionFormat (parameter format : String)
  /-- A source file was created. -/
  | created (path : String)
  /-- A source file was written under a directory. -/
  | wrote (path : String)
  /-- A source was generated under a qualified name. -/
  | generated (qualifiedName : String)
  deriving DecidableEq, Repr

namespace Notice

/-- The level of a notice. -/
def level : Notice → Level
  | unknownVersion _ => .warning
  | repeatedId _ => .warning
  | routed _ _ _ => .debug
  | skippedReference _ => .debug
  | unknownCollectionFormat _ _ => .warning
  | created _ => .debug
  | wrote _ => .info
  | generated _ => .info

/-- The wording of a notice. -/
def message : Notice → String
  | unknownVersion v =>
    "expected a Swagger 2.0 document, found version " ++ Text.quoted v ++ "; continuing"
  | repeatedId i =>
    "operationId " ++ Text.quoted i ++
      " is declared more than once; routes will share a destination"
  | routed m p d => m.name ++ " " ++ p ++ " -> " ++ d
  | skippedReference t => "skipping parameter reference " ++ t
  | unknownCollectionFormat p f =>
    "parameter " ++ Text.quoted p ++ " uses unknown collectionFormat " ++ Text.quoted f ++
      "; omitting it"
  | created p => "filer created " ++ p
  | wrote p => "wrote " ++ p
  | generated n => "generated " ++ n

/-- A notice on a line of its own. -/
def line (n : Notice) : String :=
  n.level.name ++ " " ++ n.message

end Notice

end SwaggerRoutes
