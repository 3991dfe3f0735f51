/-
  Swagger/Parameter.lean --- parameters of operations.

  The items of a parameter list are parameters in place or references to shared ones.  A reference
  is recognised first: an item with the member `$ref` is one, whatever else it holds.
-/
import SwaggerRoutes.Document.Shape

set_option autoImplicit false

namespace SwaggerRoutes.Swagger

open Document

/-! ## Shapes that occur often -/

/-- A text or none. -/
abbrev someText : Shape := .optional (.text "")

/-- A list of texts. -/
abbrev texts : Shape := .list (.text "")

/-! ## Locations -/

/-- Where a request carries a parameter. -/
inductive Location where
  | query
  | header
  | path
  | formData
  | body
  deriving DecidableEq, Repr, Inhabited

namespace Location

/-- The name of a location. -/
def name : Location → String
  | query => "query"
  | header => "header"
  | path => "path"
  | formData => "formData"
  | body => "body"

/-- A location is one of five names. -/
abbrev shape : Shape :=
  .choice "ParameterLocation" "query" ["header", "path", "formData", "body"]

/-- The location at a place of the choice. -/
def ofValue (i : shape.Value) : Location :=
  match i with
  | 0 => query
  | 1 => header
  | 2 => path
  | 3 => formData
  | 4 => body

/-- The place of a location in the choice. -/
def toValue : Location → shape.Value
  | query => (0 : Fin 5)
  | header => (1 : Fin 5)
  | path => (2 : Fin 5)
  | formData => (3 : Fin 5)
  | body => (4 : Fin 5)

theorem ofValue_toValue (l : Location) : ofValue l.toValue = l := by
  cases l <;> rfl

end Location

/-! ## Items of array parameters -/

/-- What the items of an array parameter are. -/
structure Items where
  /-- The type of the items. -/
  itemType : Option String
  /-- The format of the items. -/
  format : Option String
  deriving DecidableEq, Repr, Inhabited

namespace Items

/-- The fields of an items object. -/
abbrev shape : Shape :=
  .record "Items" .placed <|
    .cons "type" .optional someText <|
    .cons "format" .optional someText .nil

/-- Items from the values of their fields. -/
def ofValue : shape.Value → Items
  | (itemType, format, ()) => ⟨itemType, format⟩

/-- The values of the fields of items. -/
def toValue (i : Items) : shape.Value :=
  (i.itemType, i.format, ())

theorem ofValue_toValue (i : Items) : ofValue i.toValue = i := rfl

end Items

/-! ## Parameters -/

/-- A parameter of an operation. -/
structure Parameter where
  /-- The name of the parameter. -/
  name : String
  /-- Where requests carry it. -/
  location : Location
  /-- What it is for. -/
  description : Option String
  /-- Whether every request must give it. -/
  required : Bool
  /-- The type of its values. -/
  dataType : Option String
  /-- The format of its values. -/
  format : Option String
  /-- What its items are, if it is an array. -/
  items : Option Items
  /-- How several values are written as one. -/
  collectionFormat : Option String
  /-- The value of requests that do not give it. -/
  default : Option Json.Value
  /-- The values that it may have; any if there is none. -/
  allowed : List Json.Value
  /-- The schema of a body. -/
  schema : Option Json.Value
  deriving Inhabited, Repr

namespace Parameter

/-- A parameter of which no more is said than its name and its location; one in the path is
required. -/
def named (name : String) (location : Location) : Parameter where
  name := name
  location := location
  description := none
  required := location = .path
  dataType := none
  format := none
  items := none
  collectionFormat := none
  default := none
  allowed := []
  schema := none

/-- The fields of a parameter. -/
abbrev shape : Shape :=
  .record "Parameter" .placed <|
    .cons "name" .needed (.text "") <|
    .cons "in" .needed Location.shape <|
    .cons "description" .optional someText <|
    .cons "required" .defaulted .flag <|
    .cons "type" .optional someText <|
    .cons "format" .optional someText <|
    .cons "items" .optional (.optional Items.shape) <|
    .cons "collectionFormat" .optional someText <|
    .cons "default" .optional (.optional .free) <|
    .cons "enum" .defaulted (.list .free) <|
    .cons "schema" .optional (.optional .free) .nil

/-- A parameter from the values of its fields. -/
def ofValue : shape.Value → Parameter
  | (name, location, description, required, dataType, format, items, collectionFormat, default,
      allowed, schema, ()) =>
    ⟨name, .ofValue location, description, required, dataType, format, items.map Items.ofValue,
      collectionFormat, default, allowed, schema⟩

/-- The values of the fields of a parameter. -/
def toValue (p : Parameter) : shape.Value :=
  (p.name, p.location.toValue, p.description, p.required, p.dataType, p.format,
    p.items.map Items.toValue, p.collectionFormat, p.default, p.allowed, p.schema, ())

theorem ofValue_toValue (p : Parameter) : ofValue p.toValue = p := by
  simp [ofValue, toValue, Location.ofValue_toValue, Items.ofValue_toValue, Function.comp_def]

end Parameter

/-! ## Items of parameter lists -/

/-- A parameter in place or a reference to a shared one. -/
inductive ParameterEntry where
  | reference (target : String)
  | inline (p : Parameter)
  deriving Inhabited, Repr

namespace ParameterEntry

/-- The member that marks a reference; no sequence is read as one. -/
abbrev referenceShape : Shape :=
  .record "Ref" .keyed <| .cons "$ref" .needed (.text "") .nil

/-- A reference, or else a parameter. -/
abbrev shape : Shape :=
  .either "ParameterOrRef" referenceShape Parameter.shape

/-- An entry from its value. -/
def ofValue : shape.Value → ParameterEntry
  | .inl (target, ()) => .reference target
  | .inr p => .inline (.ofValue p)

/-- The value of an entry. -/
def toValue : ParameterEntry → shape.Value
  | .reference target => .inl (target, ())
  | .inline p => .inr p.toValue

theorem ofValue_toValue (e : ParameterEntry) : ofValue e.toValue = e := by
  cases e <;> simp [ofValue, toValue, Parameter.ofValue_toValue]

/-- An entry as JSON. -/
def toJson (e : ParameterEntry) : Json.Value :=
  shape.encode e.toValue

end ParameterEntry

end SwaggerRoutes.Swagger
