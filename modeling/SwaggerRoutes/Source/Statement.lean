/-
  Source/Statement.lean --- the statement that registers one route.

  A statement is a chain of method calls on `rest(…)`.  It is built as data, call by call, before
  any text is made of it.  What a rule does not say, and what it says with an empty text, has no
  call.
-/
import SwaggerRoutes.Route.Definition
import SwaggerRoutes.Source.Escape

set_option autoImplicit false

namespace SwaggerRoutes.Source

open Route Swagger

/-! ## Collection formats -/

/-- The ways to write several values as one that have a constant. -/
inductive CollectionFormat where
  | csv
  | ssv
  | tsv
  | pipes
  | multi
  deriving DecidableEq, Repr

namespace CollectionFormat

/-- The name of a format, which is also the name of its constant. -/
def name : CollectionFormat → String
  | csv => "csv"
  | ssv => "ssv"
  | tsv => "tsv"
  | pipes => "pipes"
  | multi => "multi"

/-- The format with a name. -/
def ofName? (s : String) : Option CollectionFormat :=
  [csv, ssv, tsv, pipes, multi].find? fun f => f.name = s

/-- The format that a parameter asks for, if there is a constant for it. -/
def ofParam? (p : Param) : Option CollectionFormat :=
  p.collectionFormat.bind ofName?

theorem name_of_ofName? {s : String} {f : CollectionFormat} (h : ofName? s = some f) :
    f.name = s := by
  simpa using List.find?_some h

end CollectionFormat

/-! ## Calls -/

/-- What a call is given. -/
inductive Argument where
  /-- A string literal. -/
  | text (s : String)
  /-- True or false. -/
  | flag (b : Bool)
  /-- A constant of the type of parameter kinds. -/
  | kind (l : Location)
  /-- A constant of the type of collection formats. -/
  | format (f : CollectionFormat)
  deriving DecidableEq, Repr

/-- The text of an argument. -/
def Argument.render : Argument → String
  | text s => literal s
  | flag b => if b then "true" else "false"
  | kind l => "RestParamType." ++ l.name
  | format f => "CollectionFormat." ++ f.name

/-- A method call in a chain. -/
structure Call where
  /-- How far the call is indented. -/
  level : Nat
  /-- The method. -/
  method : String
  /-- What it is given. -/
  arguments : List Argument
  deriving DecidableEq, Repr

/-- Arguments in parentheses. -/
def renderArguments (as : List Argument) : String :=
  "(" ++ ", ".intercalate (as.map Argument.render) ++ ")"

/-- The text of a call, from the dot on. -/
def Call.render (c : Call) : String :=
  "." ++ c.method ++ renderArguments c.arguments

/-- A call with one text, unless there is no text or it is empty. -/
def Call.ofText? (level : Nat) (method : String) (s : Option String) : List Call :=
  match s with
  | none => []
  | some s => if s.isEmpty then [] else [⟨level, method, [.text s]⟩]

/-! ## Statements -/

/-- The calls for a parameter. -/
def paramCalls (p : Param) : List Call :=
  [⟨4, "param", []⟩, ⟨5, "name", [.text p.name]⟩, ⟨5, "type", [.kind p.location]⟩,
    ⟨5, "required", [.flag p.required]⟩] ++
  Call.ofText? 5 "description" p.description ++
  Call.ofText? 5 "dataType" p.dataType ++
  Call.ofText? 5 "dataFormat" p.dataFormat ++
  Call.ofText? 5 "defaultValue" p.defaultValue ++
  (if p.allowed.isEmpty then [] else [⟨5, "allowableValues", p.allowed.map .text⟩]) ++
  (CollectionFormat.ofParam? p).toList.map (fun f => ⟨5, "collectionFormat", [.format f]⟩) ++
  Call.ofText? 5 "arrayType" p.arrayType ++
  [⟨4, "endParam", []⟩]

/-- A statement that registers a route. -/
structure Statement where
  /-- The base path that `rest` is given. -/
  base : Option String
  /-- The calls after it, up to the last. -/
  calls : List Call
  /-- The last call. -/
  last : Call
  deriving DecidableEq, Repr

namespace Statement

/-- The statement for a rule under a base path. -/
def ofRule (basePath : Option String) (r : Rule) : Statement where
  base := shownBase basePath
  calls :=
    [⟨3, r.method.verb, [.text r.path]⟩] ++
    Call.ofText? 4 "id" r.id ++
    Call.ofText? 4 "description" r.description ++
    Call.ofText? 4 "consumes" (joinMediaTypes r.consumes) ++
    Call.ofText? 4 "produces" (joinMediaTypes r.produces) ++
    r.params.flatMap paramCalls
  last := ⟨4, "to", [.text r.destination]⟩

end Statement

end SwaggerRoutes.Source
