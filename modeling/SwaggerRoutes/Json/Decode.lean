/-
  Json/Decode.lean --- values of a shape out of JSON texts.

  A text is taken apart from left to right in one pass, so of several faults the first in reading
  order decides.  A value whose place in the shape is unknown is passed over: it must be whole, but
  its numbers, its strings and its depth do not matter.  Of the containers that are kept, at most
  `maxDepth` may stand inside each other.
-/
import SwaggerRoutes.Document.Content
import SwaggerRoutes.Document.Mismatch
import SwaggerRoutes.Json.Tree

set_option autoImplicit false

namespace SwaggerRoutes.Json

open Document

/-- Why a text gives no value of a shape. -/
inductive Fault where
  /-- It is not JSON, or a number, a string or the depth is out of bounds. -/
  | malformed
  /-- It is JSON of another shape. -/
  | mismatch (m : Mismatch)
  deriving DecidableEq, Repr

/-- The number of containers that may stand inside each other. -/
def maxDepth : Nat := 127

/-! ## Content of any shape -/

mutual

/-- A tree as content, with room for `room` containers inside each other. -/
def gather (room : Nat) : Tree → Option Content
  | .null => some .null
  | .bool b => some (.bool b)
  | .number n => n.map .ofNumber
  | .text s => s.map .text
  | .array items closed =>
    match room with
    | 0 => none
    | room + 1 => if closed then (gatherItems room items).map .sequence else none
  | .object members closed =>
    match room with
    | 0 => none
    | room + 1 => if closed then (gatherMembers room members).map .map else none
  | .broken => none

/-- The items of an array as content. -/
def gatherItems (room : Nat) : List Tree → Option (List Content)
  | [] => some []
  | t :: rest => do
    let c ← gather room t
    let cs ← gatherItems room rest
    pure (c :: cs)

/-- The members of an object as entries. -/
def gatherMembers (room : Nat) : List (Option String × Tree) → Option (List (Content × Content))
  | [] => some []
  | (k, t) :: rest => do
    let k ← k
    let c ← gather room t
    let cs ← gatherMembers room rest
    pure ((.text k, c) :: cs)

end

/-! ## Values of a shape -/

/-- The kind of value that a tree shows, if it shows one. -/
def found? : Tree → Option Found
  | .null => some .null
  | .bool b => some (.bool b)
  | .number n => n.map (.number .json)
  | .text s => s.map .text
  | .array _ _ => some .sequence
  | .object _ _ => some .map
  | .broken => none

/-- The fault of a tree that is not of the wanted kind. -/
def unwanted (t : Tree) (w : Wanted) : Fault :=
  match found? t with
  | some f => .mismatch (.wrongType f w)
  | none => .malformed

/-- The value that an option holds; without one the text is malformed. -/
def orMalformed {α : Type} : Option α → Except Fault α
  | some a => .ok a
  | none => .error .malformed

/-- Goes on when a condition holds; otherwise the text is malformed. -/
def require (b : Bool) : Except Fault Unit :=
  if b then .ok () else .error .malformed

/-- The place of a name in a choice.  The name may also be the key of the only member of an object,
with null as its value. -/
def chosen (first : String) (others : List String) (name : String) :
    Except Fault (Fin (others.length + 1)) :=
  match choiceIndex? first others name with
  | some i => .ok i
  | none => .error (.mismatch (.unknownName name (first :: others)))

mutual

/-- The value of a shape that a tree shows, with room for `room` containers inside each other. -/
def decodeTree : (s : Shape) → Nat → Tree → Except Fault s.Value
  | .text _, _, t =>
    match t with
    | .text (some s) => .ok s
    | t => .error (unwanted t .text)
  | .flag, _, t =>
    match t with
    | .bool b => .ok b
    | t => .error (unwanted t .flag)
  | .choice _ first others, room, t =>
    match t, room with
    | .text (some s), _ => chosen first others s
    | .object ((some s, v) :: rest) closed, _ + 1 => do
      let i ← chosen first others s
      match v with
      | .null => do
        require (rest.isEmpty && closed)
        .ok i
      | v => .error (unwanted v .unit)
    | _, _ => .error .malformed
  | .free, room, t => orMalformed ((gather room t).bind Content.toJson?)
  | .optional s, room, t =>
    match t with
    | .null => .ok none
    | t => (decodeTree s room t).map some
  | .list s, room, t =>
    match t, room with
    | .array _ _, 0 => .error .malformed
    | .array items closed, room + 1 => do
      let vs ← items.mapM (decodeTree s room)
      require closed
      .ok vs
    | t, _ => .error (unwanted t .sequence)
  | .table s, room, t =>
    match t, room with
    | .object _ _, 0 => .error .malformed
    | .object members closed, room + 1 => do
      let vs ← members.foldlM (fun vs m => do
        let k ← orMalformed m.1
        let v ← decodeTree s room m.2
        .ok (vs.insert k v)) .empty
      require closed
      .ok vs
    | t, _ => .error (unwanted t .table)
  | .record name form fs, room, t =>
    match t, room with
    | .array _ _, 0 => .error .malformed
    | .object _ _, 0 => .error .malformed
    | .array items closed, room + 1 =>
      if form = .placed then decodeItems fs room name fs.names.length 0 items closed
      else .error (unwanted t (.record name))
    | .object members closed, room + 1 => do
      let slots ← members.foldlM (fun slots m => do
        let k ← orMalformed m.1
        decodeField fs room slots k m.2) fs.noSlots
      require closed
      match fs.collect slots with
      | .ok vs => .ok vs
      | .error key => .error (.mismatch (.missing key))
    | t, _ => .error (unwanted t (.record name))
  | .either name a b, room, t => do
    let c ← orMalformed (gather room t)
    match Content.fits a c with
    | some v => .ok (.inl v)
    | none =>
      match Content.fits b c with
      | some v => .ok (.inr v)
      | none => .error (.mismatch (.neither name))

/-- Fields given by place, from the field at `place` on, of a record with `count` fields. -/
def decodeItems : (fs : Fields) → Nat → String → Nat → Nat → List Tree → Bool →
    Except Fault fs.Values
  | .nil, _, _, _, _, items, closed => require (items.isEmpty && closed)
  | .cons _ presence s rest, room, name, count, place, items, closed =>
    match items with
    | [] => do
      require closed
      if presence = .defaulted then
        let vs ← decodeItems rest room name count (place + 1) [] closed
        .ok (s.absent, vs)
      else .error (.mismatch (.tooShort place name count))
    | t :: items => do
      let v ← decodeTree s room t
      let vs ← decodeItems rest room name count (place + 1) items closed
      .ok (v, vs)

/-- Reads the field of a name, unless it has been read before; other names are passed over. -/
def decodeField : (fs : Fields) → Nat → fs.Slots → String → Tree → Except Fault fs.Slots
  | .nil, _, _, _, t => require t.isWhole
  | .cons key _ s rest, room, (slot, slots), name, t =>
    if key = name then
      match slot with
      | some _ => .error (.mismatch (.repeated key))
      | none => do
        let v ← decodeTree s room t
        .ok (some v, slots)
    else do
      let slots ← decodeField rest room slots name t
      .ok (slot, slots)

end

/-- The value of a shape that a text writes. -/
def decode (s : Shape) (text : String) : Except Fault s.Value := do
  let (t, alone) := Tree.ofText text
  let v ← decodeTree s maxDepth t
  require alone
  .ok v

end SwaggerRoutes.Json
