/-
  Text/Utf8.lean --- strings as bytes.
-/

set_option autoImplicit false

namespace SwaggerRoutes.Text

/-- The bytes of a string in UTF-8. -/
def utf8 (s : String) : List UInt8 :=
  s.toUTF8.data.toList

/-- The string that bytes encode in UTF-8, if they encode one. -/
def ofUtf8? (bytes : List UInt8) : Option String :=
  String.fromUTF8? ⟨bytes.toArray⟩

end SwaggerRoutes.Text
