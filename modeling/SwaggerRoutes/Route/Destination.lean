/-
  Route/Destination.lean --- how destinations are chosen.

  A strategy sees an operation where it stands in its description, and keeps a state of its own from
  one operation to the next.  The default strategy names destinations after operations, and numbers
  those operations that have no id.
-/
import SwaggerRoutes.Swagger.Operation
import SwaggerRoutes.Text.Digits

set_option autoImplicit false

namespace SwaggerRoutes.Route

open Swagger

/-- An operation together with where it stands. -/
structure Place where
  /-- The method under which it is declared. -/
  method : Method
  /-- The path template under which it is declared. -/
  path : String
  /-- The operation. -/
  operation : Operation
  deriving Inhabited

/-- The id of the operation at a place. -/
def Place.id? (p : Place) : Option String :=
  p.operation.id?

/-- A way to choose destinations, with the state it keeps between them. -/
abbrev Strategy (σ : Type) := Place → σ → String × σ

/-- Every request goes to one destination. -/
def Strategy.fixed {σ : Type} (uri : String) : Strategy σ :=
  fun _ s => (uri, s)

/-- A counter of the names that were made up for operations without an id. -/
structure Namer where
  /-- How many names were made up. -/
  count : UInt32
  deriving DecidableEq, Repr, Inhabited

namespace Namer

/-- The namer that has made up no name. -/
def fresh : Namer := ⟨0⟩

/-- The scheme of all destinations that a namer gives. -/
def scheme : String := "direct:"

/-- The destination with a number. -/
def numbered (n : UInt32) : String :=
  scheme ++ "rest" ++ String.ofList (Text.decimal n.toNat)

/-- An operation with an id goes to the destination of that id, one without to the next number. -/
def direct : Strategy Namer := fun p n =>
  match p.id? with
  | some i => (scheme ++ i, n)
  | none => (numbered (n.count + 1), ⟨n.count + 1⟩)

theorem direct_of_id {p : Place} {i : String} (n : Namer) (h : p.id? = some i) :
    direct p n = (scheme ++ i, n) := by
  simp [direct, h]

theorem direct_of_no_id {p : Place} (n : Namer) (h : p.id? = none) :
    direct p n = (numbered (n.count + 1), ⟨n.count + 1⟩) := by
  simp [direct, h]

end Namer

end SwaggerRoutes.Route
