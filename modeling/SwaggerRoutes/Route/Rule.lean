/-
  Route/Rule.lean --- routes: which requests match, what they carry, and where they go.

  A rule is what becomes of one operation of a description.  All that it inherits from its path and
  from the description as a whole is written out in it.
-/
import SwaggerRoutes.Swagger.Operation

set_option autoImplicit false

namespace SwaggerRoutes.Swagger.Method

open Document

/-- A method is one of seven names in lower case. -/
abbrev shape : Shape :=
  .choice "Method" "get" ["put", "post", "delete", "patch", "head", "options"]

/-- The place of a method in the choice. -/
def toValue : Method → shape.Value
  | get => (0 : Fin 7)
  | put => (1 : Fin 7)
  | post => (2 : Fin 7)
  | delete => (3 : Fin 7)
  | patch => (4 : Fin 7)
  | head => (5 : Fin 7)
  | options => (6 : Fin 7)

theorem encode_toValue (m : Method) : shape.encode m.toValue = .text m.verb := by
  cases m <;> simp only [Shape.encode] <;> rfl

end SwaggerRoutes.Swagger.Method

namespace SwaggerRoutes.Route

open Document Swagger

/-! ## Parameters -/

/-- A value that a route takes out of a request. -/
structure Param where
  /-- The name of the parameter. -/
  name : String
  /-- Where the request carries it. -/
  location : Location
  /-- Whether every request must give it. -/
  required : Bool
  /-- What it is for. -/
  description : Option String
  /-- The type of its values. -/
  dataType : Option String
  /-- The format of its values. -/
  dataFormat : Option String
  /-- The value of requests that do not give it, as text. -/
  defaultValue : Option String
  /-- The values that it may have, as texts; any if there is none. -/
  allowed : List String
  /-- How several values are written as one. -/
  collectionFormat : Option String
  /-- The type of its items, if it is an array. -/
  arrayType : Option String
  deriving DecidableEq, Repr, Inhabited

namespace Param

/-- The fields of a parameter. -/
abbrev shape : Shape :=
  .record "Param" .placed <|
    .cons "name" .needed (.text "") <|
    .cons "param_type" .needed Location.shape <|
    .cons "required" .needed .flag <|
    .cons "description" .optional someText <|
    .cons "data_type" .optional someText <|
    .cons "data_format" .optional someText <|
    .cons "default_value" .optional someText <|
    .cons "allowable_values" .defaulted texts <|
    .cons "collection_format" .optional someText <|
    .cons "array_type" .optional someText .nil

/-- The values of the fields of a parameter. -/
def toValue (p : Param) : shape.Value :=
  (p.name, p.location.toValue, p.required, p.description, p.dataType, p.dataFormat, p.defaultValue,
    p.allowed, p.collectionFormat, p.arrayType, ())

end Param

/-! ## Rules -/

/-- One route. -/
structure Rule where
  /-- The method of the requests that match. -/
  method : Method
  /-- The path template that they match. -/
  path : String
  /-- The id of the route. -/
  id : Option String
  /-- What it is for. -/
  description : Option String
  /-- The media types it reads. -/
  consumes : List String
  /-- The media types it writes. -/
  produces : List String
  /-- The values it takes out of a request. -/
  params : List Param
  /-- Where a request that matches goes. -/
  destination : String
  deriving DecidableEq, Repr, Inhabited

namespace Rule

/-- The fields of a rule. -/
abbrev shape : Shape :=
  .record "Rule" .placed <|
    .cons "method" .needed Method.shape <|
    .cons "path" .needed (.text "") <|
    .cons "id" .optional someText <|
    .cons "description" .optional someText <|
    .cons "consumes" .defaulted texts <|
    .cons "produces" .defaulted texts <|
    .cons "params" .defaulted (.list Param.shape) <|
    .cons "destination" .needed (.text "") .nil

/-- The values of the fields of a rule. -/
def toValue (r : Rule) : shape.Value :=
  (r.method.toValue, r.path, r.id, r.description, r.consumes, r.produces,
    r.params.map Param.toValue, r.destination, ())

/-- A rule as JSON. -/
def toJson (r : Rule) : Json.Value :=
  shape.encode r.toValue

end Rule

end SwaggerRoutes.Route
