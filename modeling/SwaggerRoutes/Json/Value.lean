/-
  Json/Value.lean --- values that a JSON text writes.

  An object keeps its members in the order in which they are listed.  A free-form object, one whose
  members have no meaning here, is kept sorted by key with the last value given for each key;
  `insertMember` builds such objects.
-/
import SwaggerRoutes.Decimal.Number

set_option autoImplicit false

namespace SwaggerRoutes.Json

/-- A JSON value. -/
inductive Value where
  | null
  | bool (b : Bool)
  | number (n : Decimal.Number)
  | text (s : String)
  | array (items : List Value)
  | object (members : List (String × Value))
  deriving Inhabited, Repr

/-- Puts a member at its place among members sorted by key, in place of one with the same key. -/
def insertMember (k : String) (v : Value) : List (String × Value) → List (String × Value)
  | [] => [(k, v)]
  | (k', v') :: rest =>
    if k = k' then (k, v) :: rest
    else if k < k' then (k, v) :: (k', v') :: rest
    else (k', v') :: insertMember k v rest

/-- The members sorted by key, of several with one key the last. -/
def sortMembers (ms : List (String × Value)) : List (String × Value) :=
  ms.foldl (fun done m => insertMember m.1 m.2 done) []

namespace Value

/-- A double as a value; one that is not finite is null. -/
def ofDouble (d : Decimal.Double) : Value :=
  if d.isFinite then .number (.double d) else .null

end Value

end SwaggerRoutes.Json
