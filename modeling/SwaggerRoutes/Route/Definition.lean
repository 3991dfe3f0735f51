/-
  Route/Definition.lean --- routes as a router registers them: blocks under a base path, with a verb
  for each route.

  A definition that comes from rules has one block with one verb for each rule, in order.
-/
import SwaggerRoutes.Route.Rule

set_option autoImplicit false

namespace SwaggerRoutes.Route

open Document Swagger

/-- A list of media types as one text, with commas between them; none if there is no type. -/
def joinMediaTypes (types : List String) : Option String :=
  if types.isEmpty then none else some (",".intercalate types)

/-! ## Verbs -/

/-- One route of a block. -/
structure Verb where
  /-- The method of the requests that match. -/
  method : Method
  /-- The path template that they match, after the path of the block. -/
  uri : String
  /-- The id of the route. -/
  id : Option String
  /-- What it is for. -/
  description : Option String
  /-- The media types it reads, joined. -/
  consumes : Option String
  /-- The media types it writes, joined. -/
  produces : Option String
  /-- The values it takes out of a request. -/
  params : List Param
  /-- Where a request that matches goes. -/
  destination : String
  deriving DecidableEq, Repr, Inhabited

namespace Verb

/-- The verb of a rule. -/
def ofRule (r : Rule) : Verb where
  method := r.method
  uri := r.path
  id := r.id
  description := r.description
  consumes := joinMediaTypes r.consumes
  produces := joinMediaTypes r.produces
  params := r.params
  destination := r.destination

/-- The fields of a verb. -/
abbrev shape : Shape :=
  .record "Verb" .placed <|
    .cons "method" .needed Method.shape <|
    .cons "uri" .needed (.text "") <|
    .cons "id" .optional someText <|
    .cons "description" .optional someText <|
    .cons "consumes" .optional someText <|
    .cons "produces" .optional someText <|
    .cons "params" .defaulted (.list Param.shape) <|
    .cons "to" .needed (.text "") .nil

/-- The values of the fields of a verb. -/
def toValue (v : Verb) : shape.Value :=
  (v.method.toValue, v.uri, v.id, v.description, v.consumes, v.produces,
    v.params.map Param.toValue, v.destination, ())

end Verb

/-! ## Blocks -/

/-- Routes under a base path. -/
structure Block where
  /-- The path in front of the paths of all verbs. -/
  path : Option String
  /-- The routes. -/
  verbs : List Verb
  deriving DecidableEq, Repr, Inhabited

namespace Block

/-- The fields of a block. -/
abbrev shape : Shape :=
  .record "Block" .placed <|
    .cons "path" .optional someText <|
    .cons "verbs" .needed (.list Verb.shape) .nil

/-- The values of the fields of a block. -/
def toValue (b : Block) : shape.Value :=
  (b.path, b.verbs.map Verb.toValue, ())

end Block

/-! ## Definitions -/

/-- All blocks of a router. -/
structure Definition where
  /-- The blocks. -/
  rests : List Block
  deriving DecidableEq, Repr, Inhabited

/-- A base path as blocks and statements show it: an empty one counts as none. -/
def shownBase (basePath : Option String) : Option String :=
  basePath.filter fun p => !p.isEmpty

namespace Definition

/-- The definition of rules under a base path. -/
def ofRules (basePath : Option String) (rules : List Rule) : Definition :=
  ⟨[⟨shownBase basePath, rules.map Verb.ofRule⟩]⟩

/-- The verbs of all blocks, in order. -/
def verbs (d : Definition) : List Verb :=
  d.rests.flatMap Block.verbs

/-- How many verbs there are. -/
def verbCount (d : Definition) : Nat :=
  d.rests.foldr (fun b n => b.verbs.length + n) 0

/-- The fields of a definition. -/
abbrev shape : Shape :=
  .record "Definition" .placed <| .cons "rests" .needed (.list Block.shape) .nil

/-- The values of the fields of a definition. -/
def toValue (d : Definition) : shape.Value :=
  (d.rests.map Block.toValue, ())

/-- A definition as JSON. -/
def toJson (d : Definition) : Json.Value :=
  shape.encode d.toValue

end Definition

end SwaggerRoutes.Route
