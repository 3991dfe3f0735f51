/-
  Yaml/Tag.lean --- tags of nodes.

  A tag is a string of octets, since its escapes may write any; they need not be those of a text.
  It ends before the first octet that is zero.  A tag that starts with an exclamation mark is one of
  the document's own; of the others only the standard ones mean something.
-/
import SwaggerRoutes.Text.Utf8

set_option autoImplicit false

namespace SwaggerRoutes.Yaml

/-- A tag, with its handle expanded. -/
structure Tag where
  octets : List UInt8
  deriving DecidableEq, Repr

namespace Tag

/-- What of some octets belongs to a tag: those before the first that is zero. -/
def bounded (octets : List UInt8) : List UInt8 :=
  octets.takeWhile (· != 0)

/-- The tag of a standard kind. -/
def standard (kind : String) : Tag :=
  ⟨Text.utf8 ("tag:yaml.org,2002:" ++ kind)⟩

/-- Whether a tag starts with an exclamation mark. -/
def isOwn (t : Tag) : Bool :=
  t.octets.head? == some 0x21

/-- The name that a tag of the document's own gives, if it gives a text: what is behind the
exclamation mark, or the mark itself if nothing is. -/
def ownName? (t : Tag) : Option String :=
  if t.isOwn then
    Text.ofUtf8? (if t.octets.length = 1 then t.octets else t.octets.drop 1)
  else none

end Tag

end SwaggerRoutes.Yaml
