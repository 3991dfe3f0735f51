/-
  Document/Shape.lean --- descriptions of documents, and the values they describe.

  A shape says what a part of a document may be, and gives a type of values.  Readers of every
  format work from the shape, so a field is named, ordered and defaulted in one place, and `encode`
  writes any value back.  A field that may be missing is left out when its value is none, an empty
  list or an empty table; every other field is written.  A record may also be given as a sequence of
  its fields, unless its form says otherwise: one that serves only to tell two shapes apart is given
  by its keys.
-/
import SwaggerRoutes.Json.Value
import SwaggerRoutes.Table

set_option autoImplicit false

namespace SwaggerRoutes.Document

/-- What becomes of a field that a record does not give. -/
inductive Presence where
  /-- It must be there. -/
  | needed
  /-- It may be missing from a record written with keys, but not from one written as a sequence. -/
  | optional
  /-- It may be missing everywhere. -/
  | defaulted
  deriving DecidableEq, Repr

/-- How the fields of a record may be given. -/
inductive Form where
  /-- Under their names only. -/
  | keyed
  /-- Under their names, or by their places in a sequence. -/
  | placed
  deriving DecidableEq, Repr

mutual

/-- What a part of a document may be. -/
inductive Shape where
  /-- A text; `absent` is its value where nothing is given. -/
  | text (absent : String)
  /-- True or false. -/
  | flag
  /-- One of several names. -/
  | choice (name : String) (first : String) (others : List String)
  /-- Any value. -/
  | free
  /-- A value or none. -/
  | optional (s : Shape)
  /-- A sequence of values. -/
  | list (s : Shape)
  /-- Values under keys. -/
  | table (s : Shape)
  /-- Fields under their names, or by their places where the form allows it. -/
  | record (name : String) (form : Form) (fields : Fields)
  /-- A value of the first shape or, if it fits that one not, of the second. -/
  | either (name : String) (first second : Shape)

/-- The fields of a record, in order. -/
inductive Fields where
  | nil
  | cons (key : String) (presence : Presence) (shape : Shape) (rest : Fields)

end

/-! ## Values -/

mutual

/-- The values that a shape describes. -/
@[reducible] def Shape.Value : Shape → Type
  | .text _ => String
  | .flag => Bool
  | .choice _ _ others => Fin (others.length + 1)
  | .free => Json.Value
  | .optional s => Option s.Value
  | .list s => List s.Value
  | .table s => Table String s.Value
  | .record _ _ fs => fs.Values
  | .either _ a b => a.Value ⊕ b.Value

/-- A value for each field. -/
@[reducible] def Fields.Values : Fields → Type
  | .nil => Unit
  | .cons _ _ s rest => s.Value × rest.Values

end

mutual

/-- The value where nothing is given. -/
def Shape.absent : (s : Shape) → s.Value
  | .text a => a
  | .flag => false
  | .choice _ _ _ => 0
  | .free => .null
  | .optional _ => none
  | .list _ => []
  | .table _ => .empty
  | .record _ _ fs => fs.absent
  | .either _ a _ => .inl a.absent

/-- The values of fields none of which is given. -/
def Fields.absent : (fs : Fields) → fs.Values
  | .nil => ()
  | .cons _ _ s rest => (s.absent, rest.absent)

end

/-- Whether a value is none, an empty list or an empty table. -/
def Shape.isVacant : (s : Shape) → s.Value → Bool
  | .optional _, v => v.isNone
  | .list _, v => v.isEmpty
  | .table _, v => v.isEmpty
  | .text _, _ => false
  | .flag, _ => false
  | .choice _ _ _, _ => false
  | .free, _ => false
  | .record _ _ _, _ => false
  | .either _ _ _, _ => false

/-! ## Writing -/

/-- The name at a place of a choice. -/
def choiceName (first : String) (others : List String) (i : Fin (others.length + 1)) : String :=
  (first :: others).get i

/-- The place of a name in a choice. -/
def choiceIndex? (first : String) (others : List String) (name : String) :
    Option (Fin (others.length + 1)) :=
  (first :: others).finIdxOf? name

mutual

/-- A value as JSON. -/
def Shape.encode : (s : Shape) → s.Value → Json.Value
  | .text _, t => .text t
  | .flag, b => .bool b
  | .choice _ first others, i => .text (choiceName first others i)
  | .free, v => v
  | .optional s, o =>
    match o with
    | none => .null
    | some v => s.encode v
  | .list s, vs => .array (vs.map s.encode)
  | .table s, t => .object (t.entries.map fun e => (e.1, s.encode e.2))
  | .record _ _ fs, vs => .object (fs.encode vs)
  | .either _ a b, v =>
    match v with
    | .inl v => a.encode v
    | .inr v => b.encode v

/-- The fields of a record as members. -/
def Fields.encode : (fs : Fields) → fs.Values → List (String × Json.Value)
  | .nil, _ => []
  | .cons key presence s rest, (v, vs) =>
    if presence ≠ .needed ∧ s.isVacant v = true then rest.encode vs
    else (key, s.encode v) :: rest.encode vs

end

/-! ## Fields while they are read -/

/-- The names of the fields. -/
def Fields.names : Fields → List String
  | .nil => []
  | .cons key _ _ rest => key :: rest.names

/-- For each field its value, once it has been read. -/
@[reducible] def Fields.Slots : Fields → Type
  | .nil => Unit
  | .cons _ _ s rest => Option s.Value × rest.Slots

/-- No field read yet. -/
def Fields.noSlots : (fs : Fields) → fs.Slots
  | .nil => ()
  | .cons _ _ _ rest => (none, rest.noSlots)

/-- The values of all fields, or the name of the first one that is needed and was not read. -/
def Fields.collect : (fs : Fields) → fs.Slots → Except String fs.Values
  | .nil, _ => .ok ()
  | .cons key presence s rest, (slot, slots) => do
    let v ← match slot, presence with
      | some v, _ => .ok v
      | none, .needed => .error key
      | none, _ => .ok s.absent
    let vs ← rest.collect slots
    .ok (v, vs)

end SwaggerRoutes.Document
