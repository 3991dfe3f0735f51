/-
  Yaml/Node.lean --- the nodes of a YAML document.

  A node is composed from tokens by recursive descent.  An alias stands for a node under an anchor
  before it; since the anchor of a collection holds inside the collection already, aliases may form
  cycles, and so they are kept as they are.  An anchor gets the number of different names defined
  before it.  Where a name is defined again the next new name gets the same number, and the later of
  two definitions with one number holds for all aliases with that number.
-/
import SwaggerRoutes.Yaml.Tag
import SwaggerRoutes.Yaml.Token

set_option autoImplicit false

namespace SwaggerRoutes.Yaml

/-! ## Nodes -/

/-- A scalar of a document. -/
structure Scalar where
  text : String
  style : Style
  /-- The tag, if one is given. -/
  tag : Option Tag
  deriving DecidableEq, Repr, Inhabited

/-- A node of a document. -/
inductive Node where
  /-- The absence of any node, in a text without content. -/
  | void
  | scalar (s : Scalar)
  | sequence (tag : Option Tag) (items : List Node)
  | mapping (tag : Option Tag) (entries : List (Node × Node))
  /-- The node under the anchor with a number. -/
  | reference (number : Nat)
  deriving Inhabited, Repr

/-- The scalar that stands where a node is left out. -/
def Node.blank : Node := .scalar ⟨"", .plain, none⟩

mutual

/-- The number of scalars and aliases and of the starts and ends of collections. -/
def Node.size : Node → Nat
  | .void => 1
  | .scalar _ => 1
  | .reference _ => 1
  | .sequence _ items => 2 + itemsSize items
  | .mapping _ entries => 2 + entriesSize entries

/-- The size of the items of a sequence. -/
def itemsSize : List Node → Nat
  | [] => 0
  | n :: rest => n.size + itemsSize rest

/-- The size of the entries of a mapping. -/
def entriesSize : List (Node × Node) → Nat
  | [] => 0
  | (k, v) :: rest => k.size + v.size + entriesSize rest

end

/-- The nodes of a document: its root, and those to which aliases lead. -/
structure Graph where
  root : Node
  /-- The nodes by the numbers of their anchors. -/
  anchored : List (Nat × Node)
  deriving Inhabited

/-! ## Anchors -/

/-- The anchors met so far. -/
structure Anchors where
  /-- The number of each name. -/
  numbers : List (String × Nat)
  /-- For each definition, the latest first, its number and its place among all definitions. -/
  starts : List (Nat × Nat)
  /-- The nodes of the definitions that are complete, by place. -/
  nodes : List (Nat × Node)

namespace Anchors

/-- Defines a name, and returns the place of the definition. -/
def define (a : Anchors) (name : String) : Nat × Anchors :=
  let number := a.numbers.length
  let place := a.starts.length
  (place,
    { a with
      numbers := (name, number) :: a.numbers.filter fun e => e.1 != name
      starts := (number, place) :: a.starts })

/-- Completes the definition at a place. -/
def complete (a : Anchors) (place : Nat) (n : Node) : Anchors :=
  { a with nodes := (place, n) :: a.nodes }

/-- The nodes by number; of two with one number the later. -/
def table (a : Anchors) : List (Nat × Node) :=
  a.starts.filterMap fun (number, place) => (a.nodes.lookup place).map (number, ·)

end Anchors

/-! ## Composing -/

/-- What is left of the tokens, the handles of tags, and the anchors. -/
structure Reading where
  tokens : List Token
  handles : List (String × List UInt8)
  anchors : Anchors

/-- Composes something of tokens, or fails where they do not go together. -/
abbrev Composer := StateT Reading Option

/-- The next token. -/
def nextToken : Composer Token := do
  let r ← get
  match r.tokens with
  | t :: _ => pure t
  | [] => failure

/-- Passes over the next token. -/
def dropToken : Composer Unit :=
  modify fun r => { r with tokens := r.tokens.drop 1 }

/-- A node, or the blank one if the next token shows that none follows. -/
def unlessNext (stops : List Token) (node : Composer Node) : Composer Node := do
  if stops.contains (← nextToken) then pure .blank else node

/-- A tag with its handle expanded. -/
def expandTag (handle : String) (suffix : List UInt8) : Composer Tag := do
  if handle.isEmpty then pure ⟨suffix⟩
  else
    match (← get).handles.lookup handle with
    | some expansion => pure ⟨expansion ++ suffix⟩
    | none => failure

/-- Anchor and tag in front of a node, in either order. -/
def properties : Composer (Option String × Option Tag) := do
  let anchor? : Composer (Option String) := do
    match ← nextToken with
    | .anchor name => dropToken; pure (some name)
    | _ => pure none
  let tag? : Composer (Option (String × List UInt8)) := do
    match ← nextToken with
    | .tag handle suffix => dropToken; pure (some (handle, suffix))
    | _ => pure none
  let before ← anchor?
  let tag ← tag?
  let anchor ← match before, tag with
    | none, some _ => anchor?
    | _, _ => pure before
  match tag with
  | some (handle, suffix) => pure (anchor, some (← expandTag handle suffix))
  | none => pure (anchor, none)

/-- Composes a node under an anchor, if there is one. -/
def anchoring (name : Option String) (node : Composer Node) : Composer Node := do
  match name with
  | none => node
  | some name =>
    let place ← modifyGet fun r =>
      let (place, anchors) := r.anchors.define name
      (place, { r with anchors := anchors })
    let n ← node
    modify fun r => { r with anchors := r.anchors.complete place n }
    pure n

mutual

/-- A node. `block` allows block collections, and `indentless` a block sequence that is not
indented to the right of its key. `fuel` bounds the steps. -/
def composeNode (block indentless : Bool) : Nat → Composer Node
  | 0 => failure
  | fuel + 1 => do
    match ← nextToken with
    | .reference name =>
      dropToken
      match (← get).anchors.numbers.lookup name with
      | some number => pure (.reference number)
      | none => failure
    | _ =>
      let (anchor, tag) ← properties
      anchoring anchor do
        match ← nextToken with
        | .item =>
          if indentless then pure (.sequence tag (← composeIndentless fuel))
          else if anchor.isSome || tag.isSome then pure (.scalar ⟨"", .plain, tag⟩)
          else failure
        | .scalar text style =>
          dropToken
          pure (.scalar ⟨text, style, tag⟩)
        | .openSequence => dropToken; pure (.sequence tag (← composeFlowItems true fuel))
        | .openMapping => dropToken; pure (.mapping tag (← composeFlowEntries true fuel))
        | .blockSequence =>
          if block then do dropToken; pure (.sequence tag (← composeItems fuel))
          else if anchor.isSome || tag.isSome then pure (.scalar ⟨"", .plain, tag⟩)
          else failure
        | .blockMapping =>
          if block then do dropToken; pure (.mapping tag (← composeEntries fuel))
          else if anchor.isSome || tag.isSome then pure (.scalar ⟨"", .plain, tag⟩)
          else failure
        | _ =>
          if anchor.isSome || tag.isSome then pure (.scalar ⟨"", .plain, tag⟩)
          else failure

/-- The items of a block sequence, up to its end. -/
def composeItems : Nat → Composer (List Node)
  | 0 => failure
  | fuel + 1 => do
    match ← nextToken with
    | .item =>
      dropToken
      let n ← unlessNext [.item, .blockEnd] (composeNode true false fuel)
      pure (n :: (← composeItems fuel))
    | .blockEnd => dropToken; pure []
    | _ => failure

/-- The items of a block sequence that is not indented to the right of its key. -/
def composeIndentless : Nat → Composer (List Node)
  | 0 => failure
  | fuel + 1 => do
    match ← nextToken with
    | .item =>
      dropToken
      let n ← unlessNext [.item, .key, .value, .blockEnd] (composeNode true false fuel)
      pure (n :: (← composeIndentless fuel))
    | _ => pure []

/-- The entries of a block mapping, up to its end; each starts with a key. -/
def composeEntries : Nat → Composer (List (Node × Node))
  | 0 => failure
  | fuel + 1 => do
    match ← nextToken with
    | .key =>
      dropToken
      let k ← unlessNext [.key, .value, .blockEnd] (composeNode true true fuel)
      let v ← match ← nextToken with
        | .value =>
          dropToken
          unlessNext [.key, .value, .blockEnd] (composeNode true true fuel)
        | _ => pure .blank
      pure ((k, v) :: (← composeEntries fuel))
    | .blockEnd => dropToken; pure []
    | _ => failure

/-- The items of a sequence in brackets, up to the closing one.  An item may be a single entry,
which stands for a mapping; where its key is left out the token behind the question mark is passed
over. -/
def composeFlowItems (first : Bool) : Nat → Composer (List Node)
  | 0 => failure
  | fuel + 1 => do
    match ← nextToken with
    | .closeSequence => dropToken; pure []
    | t =>
      if !first then
        if t = .comma then dropToken else failure
      match ← nextToken with
      | .closeSequence => dropToken; pure []
      | .key =>
        dropToken
        let k ←
          if [Token.value, .comma, .closeSequence].contains (← nextToken) then do
            dropToken; pure .blank
          else composeNode false false fuel
        let v ← match ← nextToken with
          | .value =>
            dropToken
            unlessNext [.comma, .closeSequence] (composeNode false false fuel)
          | _ => pure .blank
        pure (.mapping none [(k, v)] :: (← composeFlowItems false fuel))
      | _ =>
        let n ← composeNode false false fuel
        pure (n :: (← composeFlowItems false fuel))

/-- The entries of a mapping in braces, up to the closing one. -/
def composeFlowEntries (first : Bool) : Nat → Composer (List (Node × Node))
  | 0 => failure
  | fuel + 1 => do
    match ← nextToken with
    | .closeMapping => dropToken; pure []
    | t =>
      if !first then
        if t = .comma then dropToken else failure
      match ← nextToken with
      | .closeMapping => dropToken; pure []
      | .key =>
        dropToken
        let k ← unlessNext [.value, .comma, .closeMapping] (composeNode false false fuel)
        let v ← match ← nextToken with
          | .value =>
            dropToken
            unlessNext [.comma, .closeMapping] (composeNode false false fuel)
          | _ => pure .blank
        pure ((k, v) :: (← composeFlowEntries false fuel))
      | _ =>
        let k ← composeNode false false fuel
        pure ((k, .blank) :: (← composeFlowEntries false fuel))

end

/-! ## Documents -/

/-- The handles that every document has, unless it defines them anew. -/
def defaultHandles : List (String × List UInt8) :=
  [("!", Text.utf8 "!"), ("!!", (Tag.standard "").octets)]

/-- The directives of a document: at most one version, which must be 1.1 or 1.2, and a handle at
most once. -/
def composeDirectives (versioned : Bool) (handles : List (String × List UInt8)) :
    List Token → Option (List (String × List UInt8) × List Token)
  | .version major minor :: rest =>
    if !versioned && major == 1 && (minor == 1 || minor == 2) then
      composeDirectives true handles rest
    else none
  | .handle name expansion :: rest =>
    if handles.any fun e => e.1 == name then none
    else composeDirectives versioned ((name, expansion) :: handles) rest
  | rest => some (handles, rest)

/-- Whether nothing but ends of documents follows. -/
def endsStream (ts : List Token) : Bool :=
  ts.dropWhile (· == .documentEnd) == [.done]

namespace Graph

/-- The single document that tokens form, as a graph. -/
def ofTokens? (ts : List Token) : Option Graph := do
  let fuel := 3 * ts.length + 10
  let (handles, rest) ← composeDirectives false [] ts
  let start (ts : List Token) : Reading := ⟨ts, handles ++ defaultHandles, ⟨[], [], []⟩⟩
  let finish (n : Node) (r : Reading) : Option Graph :=
    if endsStream r.tokens then some ⟨n, r.anchors.table⟩ else none
  match rest with
  | [.done] => if ts == [.done] then some ⟨.void, []⟩ else none
  | .documentStart :: rest =>
    let (n, r) ← (unlessNext [.documentStart, .documentEnd, .done]
      (composeNode true false fuel)).run (start rest)
    finish n r
  | rest =>
    if rest.length = ts.length then do
      let (n, r) ← (composeNode true false fuel).run (start rest)
      finish n r
    else none

end Graph

end SwaggerRoutes.Yaml
