/-
  Yaml/Decode.lean --- values of a shape out of YAML texts.

  A text that is not YAML, or holds several documents, is refused before its shape is looked at.  A
  mismatch shows the path to the place where it was met; of the things that may go wrong at a node
  some are known only to the node around it, whose path they show.  At most `maxDepth` collections
  are kept inside each other, and aliases are followed at most a hundred times as often as the
  document has parts.
-/
import SwaggerRoutes.Document.Content
import SwaggerRoutes.Yaml.Meaning
import SwaggerRoutes.Yaml.Token.OfText

set_option autoImplicit false

namespace SwaggerRoutes.Yaml

open Decimal SwaggerRoutes.Document

/-! ## Paths -/

/-- The way from the root of a document to a node. -/
inductive Path where
  | root
  | item (parent : Path) (index : Nat)
  | key (parent : Path) (name : String)
  /-- The node to which an alias leads. -/
  | target (parent : Path)
  /-- The value under a key that is no scalar. -/
  | unknown (parent : Path)
  deriving DecidableEq, Repr

namespace Path

/-- A path as text; the root is a point. -/
def text : Path → String
  | root => "."
  | item p i => p.text ++ "[" ++ String.ofList (Text.decimal i) ++ "]"
  | key p name => (match p with | root => "" | p => p.text ++ ".") ++ name
  | target p => p.text
  | unknown p => (match p with | root => "" | p => p.text ++ ".") ++ "?"

/-- The path to the value under a key. -/
def under (p : Path) : Node → Path
  | .scalar s => key p s.text
  | _ => unknown p

end Path

/-! ## Faults -/

/-- Why a text gives no value of a shape. -/
inductive Fault where
  /-- It is not YAML, or not a single document. -/
  | malformed
  /-- It is YAML of another shape; the place is the path that the message shows. -/
  | mismatch (m : Mismatch) (place : Option Path)
  /-- Too many collections stand inside each other. -/
  | tooDeep
  /-- Aliases are followed too often. -/
  | tooManyAliases
  deriving DecidableEq, Repr

namespace Fault

/-- The message for a fault of shape or size; the wording for malformed texts is left open. -/
def message : Fault → String
  | malformed => "malformed YAML"
  | mismatch m place =>
    match place with
    | none | some .root => m.message
    | some p => p.text ++ ": " ++ m.message
  | tooDeep => "recursion limit exceeded"
  | tooManyAliases => "repetition limit exceeded"

end Fault

/-- The number of collections that may stand inside each other. -/
def maxDepth : Nat := 128

/-- A computation that may follow aliases, counting how often. -/
abbrev Decoder := StateT Nat (Except Fault)

/-- Fails for a mismatch whose place the node around it knows. -/
def mismatched {α : Type} (m : Mismatch) : Decoder α :=
  throw (.mismatch m none)

/-- Gives a path to a mismatch that has none yet. -/
def locate {α : Type} (p : Path) (d : Decoder α) : Decoder α := fun jumps =>
  match d jumps with
  | .error (.mismatch m none) => .error (.mismatch m (some p))
  | r => r

/-! ## Nodes -/

namespace Graph

/-- How often aliases may be followed. -/
def jumpLimit (g : Graph) : Nat :=
  g.root.size * 100

/-- The node itself, or the one to which it leads as an alias, with its path. -/
def enter (g : Graph) (p : Path) (n : Node) : Decoder (Path × Node) := do
  match n with
  | .reference number =>
    let jumps := (← get) + 1
    set jumps
    if g.jumpLimit < jumps then throw .tooManyAliases
    match g.anchored.lookup number with
    | some n => pure (.target p, n)
    | none => throw .malformed
  | n => pure (p, n)

end Graph

/-- What a scalar stands for. -/
def meaningOf (s : Scalar) : Decoder Meaning :=
  match s.meaning with
  | .ok m => pure m
  | .error e => mismatched e

/-- How messages name what a scalar stands for. -/
def Meaning.found : Meaning → Found
  | .null => .unit
  | .bool b => .bool b
  | .natural n => .number .positional (.int n)
  | .negated n => .number .positional (.int (-n))
  | .double d => .number .positional (.double d)
  | .wide i => .wide i
  | .text s => .text s

/-- Fails at a node that is not of the wanted kind. -/
def unwanted {α : Type} (n : Node) (w : Wanted) : Decoder α := do
  match n with
  | .scalar s => mismatched (.wrongType (← meaningOf s).found w)
  | .sequence _ _ => mismatched (.wrongType .sequence w)
  | .mapping _ _ => mismatched (.wrongType .map w)
  | .void => throw .malformed
  | .reference _ => throw .malformed

/-- The text of a scalar, whatever its style and its tag, at a path. -/
def scalarText (g : Graph) (p : Path) (n : Node) (w : Wanted) : Decoder String :=
  locate p do
    let (q, n) ← g.enter p n
    locate q do
      match n with
      | .scalar s => pure s.text
      | n => unwanted n w

/-- The place for one more collection inside those that are open. -/
def deeper (room : Nat) : Decoder Nat :=
  match room with
  | 0 => throw .tooDeep
  | room + 1 => pure room

/-- Whether a tag names a value of its own. -/
def hasOwnTag (tag : Option Tag) : Bool :=
  (tag.bind Tag.ownName?).isSome

/-! ## Values of any shape -/

/-- A node as a free value, with room for `room` collections inside each other. -/
def freeValue (g : Graph) : Nat → Path → Node → Decoder Json.Value
  | room, p, n => locate p do
    let (q, n) ← g.enter p n
    locate q do
      match n, room with
      | .void, _ => pure .null
      | .reference _, _ => throw .malformed
      | .scalar s, _ =>
        if hasOwnTag s.tag then mismatched (.wrongType .enumeration .anyJson)
        else
          match ← meaningOf s with
          | .null => pure .null
          | .bool b => pure (.bool b)
          | .natural n => pure (.number (.int n))
          | .negated n => pure (.number (.int (-n)))
          | .double d => pure (.ofDouble d)
          | .wide _ => mismatched .outOfRange
          | .text t => pure (.text t)
      | .sequence tag _, 0 =>
        if hasOwnTag tag then mismatched (.wrongType .enumeration .anyJson)
        else throw .tooDeep
      | .mapping tag _, 0 =>
        if hasOwnTag tag then mismatched (.wrongType .enumeration .anyJson)
        else throw .tooDeep
      | .sequence tag items, room + 1 =>
        if hasOwnTag tag then mismatched (.wrongType .enumeration .anyJson)
        else
          let vs ← items.zipIdx.mapM fun (n, i) => freeValue g room (.item q i) n
          pure (.array vs)
      | .mapping tag entries, room + 1 =>
        if hasOwnTag tag then mismatched (.wrongType .enumeration .anyJson)
        else
          let ms ← entries.zipIdx.mapM fun ((k, n), i) => do
            let name ← scalarText g q k (if i = 0 then .textKey else .text)
            let v ← freeValue g room (q.under k) n
            pure (name, v)
          pure (.object (Json.sortMembers ms))

/-- A node as content, with room for `room` collections inside each other. -/
def gather (g : Graph) : Nat → Path → Node → Decoder Content
  | room, p, n => locate p do
    let (q, n) ← g.enter p n
    locate q do
      match n, room with
      | .void, _ => pure .null
      | .reference _, _ => throw .malformed
      | .scalar s, _ =>
        if hasOwnTag s.tag then mismatched .taggedEither
        else
          match ← meaningOf s with
          | .null => pure .null
          | .bool b => pure (.bool b)
          | .natural n => pure (.natural n)
          | .negated n => pure (.negated n)
          | .double d => pure (.double d)
          | .wide i => mismatched (.wrongType (.wide i) .anything)
          | .text t => pure (.text t)
      | .sequence tag _, 0 =>
        if hasOwnTag tag then mismatched .taggedEither else throw .tooDeep
      | .mapping tag _, 0 =>
        if hasOwnTag tag then mismatched .taggedEither else throw .tooDeep
      | .sequence tag items, room + 1 =>
        if hasOwnTag tag then mismatched .taggedEither
        else
          let cs ← items.zipIdx.mapM fun (n, i) => gather g room (.item q i) n
          pure (.sequence cs)
      | .mapping tag entries, room + 1 =>
        if hasOwnTag tag then mismatched .taggedEither
        else
          let es ← entries.mapM fun (k, n) => do
            let key ← gather g room q k
            let c ← gather g room (q.under k) n
            pure (key, c)
          pure (.map es)

/-! ## Values of a shape -/

/-- The place of a name in a choice. -/
def chosen (first : String) (others : List String) (name : String) :
    Decoder (Fin (others.length + 1)) :=
  match choiceIndex? first others name with
  | some i => pure i
  | none => mismatched (.unknownName name (first :: others))

/-- Checks that the node under the tag of a choice says nothing more. -/
def requireNothing (n : Node) : Decoder Unit :=
  match n with
  | .scalar s =>
    if s.style = .plain ∧ (s.text.isEmpty || isNullWord s.text) then pure ()
    else mismatched (.wrongValue (.text s.text) .null)
  | n => unwanted n .unit

/-- The place in a choice that a node names, by a scalar or by its tag. -/
def decodeChoice (first : String) (others : List String) (p : Path) (n : Node) :
    Decoder (Fin (others.length + 1)) :=
  let tagged (tag : Option Tag) (untagged : Decoder (Fin (others.length + 1))) :=
    match tag.bind Tag.ownName? with
    | some name => do
      let i ← chosen first others name
      locate p (requireNothing n)
      pure i
    | none => locate p untagged
  match n with
  | .scalar s => tagged s.tag (chosen first others s.text)
  | .sequence tag _ => tagged tag (mismatched (.wrongType .sequence .tag))
  | .mapping tag _ => tagged tag (mismatched (.wrongType .map .tag))
  | .void => throw .malformed
  | .reference _ => throw .malformed

/-- Whether a node stands for nothing where a value is optional. -/
def isNothing (n : Node) : Decoder Bool := do
  match n with
  | .void => pure true
  | .scalar s =>
    if s.style ≠ .plain then pure false
    else
      match s.tag with
      | none => pure (s.text.isEmpty || isNullWord s.text)
      | some tag =>
        if tag = Tag.standard "null" then
          if isNullWord s.text then pure true
          else mismatched (.wrongValue (.text s.text) .null)
        else pure false
  | _ => pure false

/-- Whether a node stands for a collection without items. -/
def isEmptyCollection : Node → Bool
  | .void => true
  | .scalar s => s.isBlank
  | _ => false

mutual

/-- The value of a shape that a node shows, with room for `room` collections inside each other. -/
def decodeNode (g : Graph) : (s : Shape) → Nat → Path → Node → Decoder s.Value
  | .text _, _, p, n => scalarText g p n .text
  | .flag, _, p, n => locate p do
    let (q, n) ← g.enter p n
    locate q do
      match n with
      | .scalar s =>
        let eligible := s.style = .plain ∨ (s.style = .literal ∧ s.tag = some (Tag.standard "bool"))
        match boolWord? s.text with
        | some b => if eligible then pure b else unwanted n .flag
        | none => unwanted n .flag
      | n => unwanted n .flag
  | .choice _ first others, _, p, n => do
    match n with
    | .reference _ => locate p do
      let (q, n) ← g.enter p n
      decodeChoice first others q n
    | n => decodeChoice first others p n
  | .free, room, p, n => freeValue g room p n
  | .optional s, room, p, n => do
    let (q, n) ← g.enter p n
    if ← isNothing n then pure none
    else
      let v ← decodeNode g s room q n
      pure (some v)
  | .list s, room, p, n => locate p do
    let (q, n) ← g.enter p n
    locate q do
      match n with
      | .sequence _ items =>
        let room ← deeper room
        items.zipIdx.mapM fun (n, i) => decodeNode g s room (.item q i) n
      | n => if isEmptyCollection n then pure [] else unwanted n .sequence
  | .table s, room, p, n => locate p do
    let (q, n) ← g.enter p n
    locate q do
      match n with
      | .mapping _ entries =>
        let room ← deeper room
        entries.foldlM (fun t (k, n) => do
          let name ← scalarText g q k .text
          let v ← decodeNode g s room (q.under k) n
          pure (t.insert name v)) .empty
      | n => if isEmptyCollection n then pure .empty else unwanted n .table
  | .record name _ fs, room, p, n => locate p do
    let (q, n) ← g.enter p n
    locate q do
      let slots ← match n with
        | .mapping _ entries => do
          let room ← deeper room
          entries.foldlM (fun slots (k, n) => do
            let name ← scalarText g q k .fieldName
            decodeField g fs room (q.under k) slots name n) fs.noSlots
        | n => if isEmptyCollection n then pure fs.noSlots else unwanted n (.record name)
      match fs.collect slots with
      | .ok vs => pure vs
      | .error key => mismatched (.missing key)
  | .either name a b, room, p, n => do
    let c ← gather g room p n
    match Content.fits a c with
    | some v => pure (.inl v)
    | none =>
      match Content.fits b c with
      | some v => pure (.inr v)
      | none => mismatched (.neither name)

/-- Reads the field of a name, unless it has been read before; other names are passed over. -/
def decodeField (g : Graph) : (fs : Fields) → Nat → Path → fs.Slots → String → Node →
    Decoder fs.Slots
  | .nil, _, _, _, _, _ => pure ()
  | .cons key _ s rest, room, p, (slot, slots), name, n =>
    if key = name then
      match slot with
      | some _ => mismatched (.repeated key)
      | none => do
        let v ← decodeNode g s room p n
        pure (some v, slots)
    else do
      let slots ← decodeField g rest room p slots name n
      pure (slot, slots)

end

/-- The value of a shape that a text writes. -/
def decode (s : Shape) (text : String) : Except Fault s.Value :=
  match (tokens? text).bind Graph.ofTokens? with
  | none => .error .malformed
  | some g => ((decodeNode g s maxDepth .root g.root).run 0).map Prod.fst

end SwaggerRoutes.Yaml
