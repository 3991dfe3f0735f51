/-
  Swagger/Spec.lean --- descriptions of services in Swagger 2.0.

  A document without paths differs from one that declares an empty set of them, so the paths are
  optional.
-/
import SwaggerRoutes.Swagger.Operation
import SwaggerRoutes.Text.Blank

set_option autoImplicit false

namespace SwaggerRoutes.Swagger

open Document

/-! ## On the service -/

/-- Whom to ask about the service. -/
structure Contact where
  name : Option String
  url : Option String
  email : Option String
  deriving DecidableEq, Repr, Inhabited

namespace Contact

/-- The fields of a contact. -/
abbrev shape : Shape :=
  .record "Contact" .placed <|
    .cons "name" .optional someText <|
    .cons "url" .optional someText <|
    .cons "email" .optional someText .nil

/-- A contact from the values of its fields. -/
def ofValue : shape.Value → Contact
  | (name, url, email, ()) => ⟨name, url, email⟩

/-- The values of the fields of a contact. -/
def toValue (c : Contact) : shape.Value :=
  (c.name, c.url, c.email, ())

theorem ofValue_toValue (c : Contact) : ofValue c.toValue = c := rfl

end Contact

/-- Under which terms the service may be used. -/
structure License where
  name : String
  url : Option String
  deriving DecidableEq, Repr, Inhabited

namespace License

/-- The fields of a license. -/
abbrev shape : Shape :=
  .record "License" .placed <|
    .cons "name" .needed (.text "") <|
    .cons "url" .optional someText .nil

/-- A license from the values of its fields. -/
def ofValue : shape.Value → License
  | (name, url, ()) => ⟨name, url⟩

/-- The values of the fields of a license. -/
def toValue (l : License) : shape.Value :=
  (l.name, l.url, ())

theorem ofValue_toValue (l : License) : ofValue l.toValue = l := rfl

end License

/-- What the service is. -/
structure Info where
  title : Option String
  description : Option String
  version : Option String
  termsOfService : Option String
  contact : Option Contact
  license : Option License
  deriving DecidableEq, Repr, Inhabited

namespace Info

/-- The service of which nothing is said. -/
def blank : Info := ⟨none, none, none, none, none, none⟩

/-- The fields of an info object. -/
abbrev shape : Shape :=
  .record "Info" .placed <|
    .cons "title" .optional someText <|
    .cons "description" .optional someText <|
    .cons "version" .optional someText <|
    .cons "termsOfService" .optional someText <|
    .cons "contact" .optional (.optional Contact.shape) <|
    .cons "license" .optional (.optional License.shape) .nil

/-- An info object from the values of its fields. -/
def ofValue : shape.Value → Info
  | (title, description, version, termsOfService, contact, license, ()) =>
    ⟨title, description, version, termsOfService, contact.map Contact.ofValue,
      license.map License.ofValue⟩

/-- The values of the fields of an info object. -/
def toValue (i : Info) : shape.Value :=
  (i.title, i.description, i.version, i.termsOfService, i.contact.map Contact.toValue,
    i.license.map License.toValue, ())

theorem ofValue_toValue (i : Info) : ofValue i.toValue = i := by
  simp [ofValue, toValue, Contact.ofValue_toValue, License.ofValue_toValue, Function.comp_def]

end Info

/-- A group of operations. -/
structure Tag where
  name : String
  description : Option String
  deriving DecidableEq, Repr, Inhabited

namespace Tag

/-- The fields of a tag. -/
abbrev shape : Shape :=
  .record "Tag" .placed <|
    .cons "name" .needed (.text "") <|
    .cons "description" .optional someText .nil

/-- A tag from the values of its fields. -/
def ofValue : shape.Value → Tag
  | (name, description, ()) => ⟨name, description⟩

/-- The values of the fields of a tag. -/
def toValue (t : Tag) : shape.Value :=
  (t.name, t.description, ())

theorem ofValue_toValue (t : Tag) : ofValue t.toValue = t := rfl

end Tag

/-! ## The whole description -/

/-- A description of a service. -/
structure Spec where
  /-- The version of the format. -/
  version : String
  /-- What the service is. -/
  info : Info
  /-- The host that serves it. -/
  host : Option String
  /-- The path in front of all paths. -/
  basePath : Option String
  /-- The protocols by which it is reached. -/
  schemes : List String
  /-- The media types that its operations read. -/
  consumes : List String
  /-- The media types that its operations write. -/
  produces : List String
  /-- Its paths, in the order of the document. -/
  paths : Option (Table String PathItem)
  /-- Schemas under their names. -/
  definitions : Table String Json.Value
  /-- The groups of its operations. -/
  tags : List Tag
  deriving Inhabited

namespace Spec

/-- The description that says nothing. -/
def blank : Spec where
  version := ""
  info := .blank
  host := none
  basePath := none
  schemes := []
  consumes := []
  produces := []
  paths := none
  definitions := .empty
  tags := []

/-- The title without the white space around it, unless it is blank. -/
def title? (s : Spec) : Option String :=
  (s.info.title.map Text.trim).filter fun t => !t.isEmpty

/-- The fields of a description. -/
abbrev shape : Shape :=
  .record "Swagger" .placed <|
    .cons "swagger" .defaulted (.text "") <|
    .cons "info" .defaulted Info.shape <|
    .cons "host" .optional someText <|
    .cons "basePath" .optional someText <|
    .cons "schemes" .defaulted texts <|
    .cons "consumes" .defaulted texts <|
    .cons "produces" .defaulted texts <|
    .cons "paths" .optional (.optional (.table PathItem.shape)) <|
    .cons "definitions" .defaulted (.table .free) <|
    .cons "tags" .defaulted (.list Tag.shape) .nil

/-- A description from the values of its fields. -/
def ofValue : shape.Value → Spec
  | (version, info, host, basePath, schemes, consumes, produces, paths, definitions, tags, ()) =>
    ⟨version, .ofValue info, host, basePath, schemes, consumes, produces,
      paths.map (Table.mapValues PathItem.ofValue), definitions, tags.map Tag.ofValue⟩

/-- The values of the fields of a description. -/
def toValue (s : Spec) : shape.Value :=
  (s.version, s.info.toValue, s.host, s.basePath, s.schemes, s.consumes, s.produces,
    s.paths.map (Table.mapValues PathItem.toValue), s.definitions, s.tags.map Tag.toValue, ())

/-- A description as JSON. -/
def toJson (s : Spec) : Json.Value :=
  shape.encode s.toValue

end Spec

end SwaggerRoutes.Swagger
