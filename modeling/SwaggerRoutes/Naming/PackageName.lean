/-
  Naming/PackageName.lean --- the name of a package out of a host.

  The labels of the host, up to its first colon, become the segments of the package in reverse
  order.  A label is cut down to its identifier characters, with an underscore for what stood
  between them; it gets an underscore in front of a digit and another one behind a reserved word.
-/
import SwaggerRoutes.Naming.Stripped
import SwaggerRoutes.Swagger.Spec

set_option autoImplicit false

namespace SwaggerRoutes.Naming

open Text

/-- The package of a description without a host that could name one. -/
def defaultPackage : String := "rest.dsl.generated"

/-- Underscores in place of spaces. -/
def underscored (cs : List Char) : List Char :=
  cs.map fun c => if c = ' ' then '_' else c

/-- An underscore in front of a digit. -/
def guardDigit : List Char → List Char
  | [] => []
  | c :: cs => if c.isDigit then '_' :: c :: cs else c :: cs

/-- An underscore behind a reserved word. -/
def guardReserved (word : List Char) : List Char :=
  if isReserved word then word ++ ['_'] else word

/-- The segment for a label of a host; empty if the label has no identifier characters. -/
def segmentOfLabel (label : List Char) : List Char :=
  guardReserved ((guardDigit (underscored (stripped label))).map Char.toLower)

/-- A host up to its first colon, without the white space around it. -/
def hostName (host : String) : List Char :=
  trimChars (host.toList.takeWhile (· != ':'))

/-- Whether a host name tells where the service is. -/
def isTelling (name : List Char) : Bool :=
  !name.isEmpty && name.map Char.toLower != "localhost".toList

/-- The package for a host. -/
def packageOfHost (host : String) : String :=
  let name := hostName host
  if isTelling name then
    let parts := ((pieces '.' name).reverse.map segmentOfLabel).filter fun p => !p.isEmpty
    if parts.isEmpty then defaultPackage else String.ofList (join '.' parts)
  else defaultPackage

/-- The package for a description. -/
def packageName (s : Swagger.Spec) : String :=
  match s.host with
  | some host => packageOfHost host
  | none => defaultPackage

end SwaggerRoutes.Naming
