/-
  Document/Content.lean --- a part of a document held back until its shape is decided.

  Where a document may have one of two shapes its content is gathered first and then tried on each.
  Content knows the kinds of its scalars, so a number is no text here, and its keys are content
  again: a key that is a natural number names a field by its place.  A number behind a minus sign
  names none, zero included.
-/
import SwaggerRoutes.Document.Shape

set_option autoImplicit false

namespace SwaggerRoutes.Document

/-- A part of a document without a shape. -/
inductive Content where
  | null
  | bool (b : Bool)
  /-- An integer without a minus sign. -/
  | natural (n : Nat)
  /-- The integer that a minus sign makes of another, which may be zero. -/
  | negated (n : Nat)
  | double (d : Decimal.Double)
  | text (s : String)
  | sequence (items : List Content)
  | map (entries : List (Content × Content))
  deriving Inhabited, Repr

namespace Content

/-- A number as content; zero is written without a minus sign. -/
def ofNumber : Decimal.Number → Content
  | .int i => if 0 ≤ i then .natural i.toNat else .negated i.natAbs
  | .double d => .double d

/-! ## Free values -/

mutual

/-- Content as a free value; the keys of its maps must be texts. -/
def toJson? : Content → Option Json.Value
  | .null => some .null
  | .bool b => some (.bool b)
  | .natural n => some (.number (.int n))
  | .negated n => some (.number (.int (-n)))
  | .double d => some (.ofDouble d)
  | .text s => some (.text s)
  | .sequence items => (itemsToJson? items).map .array
  | .map entries => (entriesToJson? entries).map fun ms => .object (Json.sortMembers ms)

/-- The items of a sequence as free values. -/
def itemsToJson? : List Content → Option (List Json.Value)
  | [] => some []
  | c :: rest => do
    let v ← c.toJson?
    let vs ← itemsToJson? rest
    pure (v :: vs)

/-- The entries of a map as members. -/
def entriesToJson? : List (Content × Content) → Option (List (String × Json.Value))
  | [] => some []
  | (.text k, c) :: rest => do
    let v ← c.toJson?
    let ms ← entriesToJson? rest
    pure ((k, v) :: ms)
  | _ :: _ => none

end

/-! ## Fitting a shape -/

/-- The place of a name in a choice, named by text or by its number. -/
def choice? (first : String) (others : List String) : Content → Option (Fin (others.length + 1))
  | .text s => choiceIndex? first others s
  | .natural n => if h : n < others.length + 1 then some ⟨n, h⟩ else none
  | _ => none

/-- The field that a key names, among fields with the given names: none when the key cannot name
one, and an empty option when it names none of them. -/
def fieldNamed? (names : List String) : Content → Option (Option String)
  | .text s => some (some s)
  | .natural n => some names[n]?
  | _ => none

mutual

/-- The value of a shape that content has, if it has one. -/
def fits : (s : Shape) → Content → Option s.Value
  | .text _, c =>
    match c with
    | .text t => some t
    | _ => none
  | .flag, c =>
    match c with
    | .bool b => some b
    | _ => none
  | .choice _ first others, c =>
    match c with
    | .text t => choiceIndex? first others t
    | .map [(k, .null)] => choice? first others k
    | _ => none
  | .free, c => c.toJson?
  | .optional s, c =>
    match c with
    | .null => some none
    | c => (fits s c).map some
  | .list s, c =>
    match c with
    | .sequence items => items.mapM (fits s)
    | _ => none
  | .table s, c =>
    match c with
    | .map entries =>
      entries.foldlM (fun t e => match e.1 with
        | .text k => (fits s e.2).map (t.insert k)
        | _ => none) .empty
    | _ => none
  | .record _ form fs, c =>
    match c with
    | .sequence items => if form = .placed then fitItems fs items else none
    | .map entries => do
      let slots ← entries.foldlM (fun slots e => do
        match ← fieldNamed? fs.names e.1 with
        | some name => fitField fs slots name e.2
        | none => pure slots) fs.noSlots
      (fs.collect slots).toOption
    | _ => none
  | .either _ a b, c =>
    match fits a c with
    | some v => some (.inl v)
    | none => (fits b c).map .inr

/-- Fields given by place: as many items as there are fields, or fewer where the others have a
default. -/
def fitItems : (fs : Fields) → List Content → Option fs.Values
  | .nil, items => if items.isEmpty then some () else none
  | .cons _ presence s rest, items =>
    match items with
    | [] => if presence = .defaulted then (fitItems rest []).map (s.absent, ·) else none
    | c :: items => do
      let v ← fits s c
      let vs ← fitItems rest items
      pure (v, vs)

/-- Reads the field of a name, unless it has been read before; other names are passed over. -/
def fitField : (fs : Fields) → fs.Slots → String → Content → Option fs.Slots
  | .nil, _, _, _ => some ()
  | .cons key _ s rest, (slot, slots), name, c =>
    if key = name then
      match slot with
      | some _ => none
      | none => (fits s c).map fun v => (some v, slots)
    else (fitField rest slots name c).map (slot, ·)

end

end Content

end SwaggerRoutes.Document
