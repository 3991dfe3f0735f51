/-
  Swagger/Load.lean --- descriptions out of JSON and YAML texts.
-/
import SwaggerRoutes.Json.Decode
import SwaggerRoutes.Notice
import SwaggerRoutes.Swagger.Spec
import SwaggerRoutes.Yaml.Decode

set_option autoImplicit false

namespace SwaggerRoutes.Swagger

/-- The format of a text. -/
inductive Format where
  | json
  | yaml
  deriving DecidableEq, Repr

/-- Why a text gives no description. -/
inductive LoadFault where
  | json (f : Json.Fault)
  | yaml (f : Yaml.Fault)
  deriving DecidableEq, Repr

namespace LoadFault

/-- Whether the text is not of its format at all. -/
def isMalformed : LoadFault → Bool
  | json .malformed => true
  | yaml .malformed => true
  | _ => false

/-- What is wrong with the text; the wording for malformed texts is left open. -/
def cause : LoadFault → String
  | json .malformed => "malformed JSON"
  | json (.mismatch m) => m.message
  | yaml f => f.message

/-- The message for a fault. -/
def message (f : LoadFault) : String :=
  match f with
  | json _ => "failed to parse JSON: " ++ f.cause
  | yaml _ => "failed to parse YAML: " ++ f.cause

end LoadFault

namespace Spec

/-- The description that a text of a format gives. -/
def load (format : Format) (text : String) : Except LoadFault Spec :=
  match format with
  | .json => ((Json.decode shape text).mapError .json).map ofValue
  | .yaml => ((Yaml.decode shape text).mapError .yaml).map ofValue

/-- The only version of the format that is known. -/
def knownVersion : String := "2.0"

/-- The notices that loading a description gives. -/
def notices (s : Spec) : List Notice :=
  if s.version = knownVersion then [] else [.unknownVersion s.version]

end Spec

end SwaggerRoutes.Swagger
