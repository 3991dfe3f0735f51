/-
  Swagger/Operation.lean --- operations, and the paths that declare them.

  A path declares at most one operation for each method.  Whatever the order in which a document
  gives them, they are listed in the order of `Method.all`.
-/
import SwaggerRoutes.Swagger.Parameter

set_option autoImplicit false

namespace SwaggerRoutes.Swagger

open Document

/-! ## Methods -/

/-- The methods that a path may declare. -/
inductive Method where
  | get
  | put
  | post
  | delete
  | patch
  | head
  | options
  deriving DecidableEq, Repr, Inhabited

namespace Method

/-- All methods, in the order in which operations are listed. -/
def all : List Method := [get, put, post, delete, patch, head, options]

/-- The method as a request writes it. -/
def name : Method → String
  | get => "GET"
  | put => "PUT"
  | post => "POST"
  | delete => "DELETE"
  | patch => "PATCH"
  | head => "HEAD"
  | options => "OPTIONS"

/-- The method in lower case, as documents and routes write it. -/
def verb : Method → String
  | get => "get"
  | put => "put"
  | post => "post"
  | delete => "delete"
  | patch => "patch"
  | head => "head"
  | options => "options"

end Method

/-! ## Operations -/

/-- What a path does for one method. -/
structure Operation where
  /-- The name of the operation; a document should give it only once. -/
  operationId : Option String
  /-- A short text on what the operation does. -/
  summary : Option String
  /-- A longer text on it. -/
  description : Option String
  /-- The groups to which it belongs. -/
  tags : List String
  /-- The media types it reads, in place of those of the whole document. -/
  consumes : Option (List String)
  /-- The media types it writes, in place of those of the whole document. -/
  produces : Option (List String)
  /-- Its own parameters. -/
  parameters : List ParameterEntry
  /-- Its responses under their status codes. -/
  responses : Table String Json.Value
  /-- Whether it should no longer be used. -/
  deprecated : Option Bool
  /-- What it asks for before it serves a request. -/
  security : Option (List Json.Value)
  deriving Inhabited

namespace Operation

/-- The operation of which nothing is said. -/
def blank : Operation where
  operationId := none
  summary := none
  description := none
  tags := []
  consumes := none
  produces := none
  parameters := []
  responses := .empty
  deprecated := none
  security := none

/-- The operation's id; an empty one counts as none. -/
def id? (o : Operation) : Option String :=
  o.operationId.filter fun i => !i.isEmpty

/-- The fields of an operation. -/
abbrev shape : Shape :=
  .record "Operation" .placed <|
    .cons "operationId" .optional someText <|
    .cons "summary" .optional someText <|
    .cons "description" .optional someText <|
    .cons "tags" .defaulted texts <|
    .cons "consumes" .optional (.optional texts) <|
    .cons "produces" .optional (.optional texts) <|
    .cons "parameters" .defaulted (.list ParameterEntry.shape) <|
    .cons "responses" .defaulted (.table .free) <|
    .cons "deprecated" .optional (.optional .flag) <|
    .cons "security" .optional (.optional (.list .free)) .nil

/-- An operation from the values of its fields. -/
def ofValue : shape.Value → Operation
  | (operationId, summary, description, tags, consumes, produces, parameters, responses, deprecated,
      security, ()) =>
    ⟨operationId, summary, description, tags, consumes, produces,
      parameters.map ParameterEntry.ofValue, responses, deprecated, security⟩

/-- The values of the fields of an operation. -/
def toValue (o : Operation) : shape.Value :=
  (o.operationId, o.summary, o.description, o.tags, o.consumes, o.produces,
    o.parameters.map ParameterEntry.toValue, o.responses, o.deprecated, o.security, ())

theorem ofValue_toValue (o : Operation) : ofValue o.toValue = o := by
  simp [ofValue, toValue, ParameterEntry.ofValue_toValue, Function.comp_def]

end Operation

/-! ## Paths -/

/-- What a path declares: shared parameters, and an operation for some methods. -/
structure PathItem where
  /-- The parameters that all its operations share. -/
  parameters : List ParameterEntry
  get : Option Operation
  put : Option Operation
  post : Option Operation
  delete : Option Operation
  patch : Option Operation
  head : Option Operation
  options : Option Operation
  deriving Inhabited

namespace PathItem

/-- The path that declares nothing. -/
def blank : PathItem := ⟨[], none, none, none, none, none, none, none⟩

/-- The operation for a method, if one is declared. -/
def operation? (p : PathItem) : Method → Option Operation
  | .get => p.get
  | .put => p.put
  | .post => p.post
  | .delete => p.delete
  | .patch => p.patch
  | .head => p.head
  | .options => p.options

/-- Declares an operation for a method, in place of one declared before. -/
def set (p : PathItem) (m : Method) (o : Operation) : PathItem :=
  match m with
  | .get => { p with get := some o }
  | .put => { p with put := some o }
  | .post => { p with post := some o }
  | .delete => { p with delete := some o }
  | .patch => { p with patch := some o }
  | .head => { p with head := some o }
  | .options => { p with options := some o }

/-- The declared operations with their methods, in the order of `Method.all`. -/
def operations (p : PathItem) : List (Method × Operation) :=
  Method.all.filterMap fun m => (p.operation? m).map (m, ·)

/-- The fields of a path. -/
abbrev shape : Shape :=
  .record "PathItem" .placed <|
    .cons "parameters" .defaulted (.list ParameterEntry.shape) <|
    .cons "get" .optional (.optional Operation.shape) <|
    .cons "put" .optional (.optional Operation.shape) <|
    .cons "post" .optional (.optional Operation.shape) <|
    .cons "delete" .optional (.optional Operation.shape) <|
    .cons "patch" .optional (.optional Operation.shape) <|
    .cons "head" .optional (.optional Operation.shape) <|
    .cons "options" .optional (.optional Operation.shape) .nil

/-- A path from the values of its fields. -/
def ofValue : shape.Value → PathItem
  | (parameters, get, put, post, delete, patch, head, options, ()) =>
    ⟨parameters.map ParameterEntry.ofValue, get.map Operation.ofValue, put.map Operation.ofValue,
      post.map Operation.ofValue, delete.map Operation.ofValue, patch.map Operation.ofValue,
      head.map Operation.ofValue, options.map Operation.ofValue⟩

/-- The values of the fields of a path. -/
def toValue (p : PathItem) : shape.Value :=
  (p.parameters.map ParameterEntry.toValue, p.get.map Operation.toValue,
    p.put.map Operation.toValue, p.post.map Operation.toValue, p.delete.map Operation.toValue,
    p.patch.map Operation.toValue, p.head.map Operation.toValue,
    p.options.map Operation.toValue, ())

theorem ofValue_toValue (p : PathItem) : ofValue p.toValue = p := by
  simp [ofValue, toValue, ParameterEntry.ofValue_toValue, Operation.ofValue_toValue,
    Function.comp_def]

/-- A path as JSON. -/
def toJson (p : PathItem) : Json.Value :=
  shape.encode p.toValue

end PathItem

end SwaggerRoutes.Swagger
