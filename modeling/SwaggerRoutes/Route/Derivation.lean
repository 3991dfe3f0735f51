/-
  Route/Derivation.lean --- the rules of a description.

  Paths are taken in the order of the document, and the operations of a path in the order of their
  methods.  A blank path ends the derivation where it stands: the operations before it have been
  given their destinations, the ones after it have not.
-/
import SwaggerRoutes.Json.Printer
import SwaggerRoutes.Route.Definition
import SwaggerRoutes.Route.Destination
import SwaggerRoutes.Route.Run
import SwaggerRoutes.Swagger.Spec

set_option autoImplicit false

namespace SwaggerRoutes.Route

open Swagger

/-- Why a description has no rules. -/
inductive SpecFault where
  /-- It declares no paths, not even an empty set of them. -/
  | noPaths
  /-- One of its paths is empty or white space. -/
  | blankPath
  deriving DecidableEq, Repr

/-- The message for a fault. -/
def SpecFault.message : SpecFault → String
  | noPaths => "specification has no paths"
  | blankPath => "path template must not be empty"

/-! ## Parameters -/

/-- A value as text: a text stands for itself, every other value for its compact JSON. -/
def valueText : Json.Value → String
  | .text t => t
  | v => v.compactText

/-- The type of the items of an array; other parameters have none. -/
def itemTypeOf (p : Parameter) : Option String :=
  if p.dataType = some "array" then p.items.bind Items.itemType else none

/-- The parameter of a route that stands for one of a description. -/
def Param.ofParameter (p : Parameter) : Param where
  name := p.name
  location := p.location
  required := p.required
  description := p.description
  dataType := p.dataType
  dataFormat := p.format
  defaultValue := p.default.map valueText
  allowed := p.allowed.map valueText
  collectionFormat := p.collectionFormat
  arrayType := itemTypeOf p

/-- The parameters that are given in place. -/
def inlineParameters (es : List ParameterEntry) : List Parameter :=
  es.filterMap fun
    | .inline p => some p
    | .reference _ => none

/-- The targets of the parameters that are references. -/
def referenceTargets (es : List ParameterEntry) : List String :=
  es.filterMap fun
    | .inline _ => none
    | .reference t => some t

/-- The parameters of a path and of one of its operations together.  Of several with one name and
one location the last one counts, at the place of the first; references do not count. -/
def mergeParameters (shared own : List ParameterEntry) : List Param :=
  let ps := inlineParameters (shared ++ own)
  (Table.ofList (ps.map fun p => ((p.name, p.location), p))).values.map Param.ofParameter

/-! ## One operation -/

/-- What an operation is for: its summary, or else its description, unless they are blank. -/
def shownDescription (o : Operation) : Option String :=
  (o.summary.bind Text.present?).or (o.description.bind Text.present?)

/-- The rule of the operation at a place, given the parameters that its path shares. -/
def Rule.ofPlace (spec : Spec) (shared : List ParameterEntry) (p : Place) (destination : String) :
    Rule where
  method := p.method
  path := p.path
  id := p.id?
  description := shownDescription p.operation
  consumes := p.operation.consumes.getD spec.consumes
  produces := p.operation.produces.getD spec.produces
  params := mergeParameters shared p.operation.parameters
  destination := destination

/-- How far a derivation has come. -/
structure Progress (σ : Type) where
  /-- The rules so far. -/
  rules : Array Rule
  /-- The notices so far. -/
  notices : Array Notice
  /-- The ids of the operations so far. -/
  seen : List String
  /-- The state of the strategy. -/
  state : σ

namespace Progress

variable {σ : Type}

/-- A derivation that has not begun. -/
def start (s : σ) : Progress σ := ⟨#[], #[], [], s⟩

/-- The notice for an id that has been seen before. -/
def repeatedIds (seen : List String) (id : Option String) : List Notice :=
  match id with
  | none => []
  | some i => if i ∈ seen then [.repeatedId i] else []

/-- The notices for the operation at a place: that its id has been seen, where it goes, and which
references it and its path hold. -/
def visitNotices (seen : List String) (shared : List ParameterEntry) (p : Place)
    (destination : String) : List Notice :=
  repeatedIds seen p.id? ++ .routed p.method p.path destination ::
    (referenceTargets (shared ++ p.operation.parameters)).map .skippedReference

/-- The derivation after the operation at a place. -/
def visit (spec : Spec) (d : Strategy σ) (shared : List ParameterEntry) (g : Progress σ)
    (p : Place) : Progress σ :=
  let (destination, state) := d p g.state
  { rules := g.rules.push (.ofPlace spec shared p destination)
    notices := g.notices ++ visitNotices g.seen shared p destination
    seen := p.id?.toList ++ g.seen
    state := state }

/-- The derivation after all operations of a path. -/
def visitPath (spec : Spec) (d : Strategy σ) (g : Progress σ) (path : String) (item : PathItem) :
    Progress σ :=
  item.operations.foldl (fun g (m, o) => g.visit spec d item.parameters ⟨m, path, o⟩) g

/-- The derivation after all paths up to the first blank one, and whether there is one. -/
def visitPaths (spec : Spec) (d : Strategy σ) :
    Progress σ → List (String × PathItem) → Except SpecFault Unit × Progress σ
  | g, [] => (.ok (), g)
  | g, (path, item) :: rest =>
    if Text.isBlankText path then (.error .blankPath, g)
    else visitPaths spec d (g.visitPath spec d path item) rest

end Progress

/-! ## Whole descriptions -/

/-- The rules of a description: one for each operation, unless there are no paths or one is
blank. -/
def derive {σ : Type} (spec : Spec) (d : Strategy σ) (s : σ) : Run SpecFault σ (List Rule) :=
  match spec.paths with
  | none => ⟨.error .noPaths, [], s⟩
  | some paths =>
    let (end?, g) := Progress.visitPaths spec d (.start s) paths.entries
    ⟨end?.map fun _ => g.rules.toList, g.notices.toList, g.state⟩

/-- The definition of a description. -/
def define {σ : Type} (spec : Spec) (d : Strategy σ) (s : σ) : Run SpecFault σ Definition :=
  (derive spec d s).map (.ofRules spec.basePath)

end SwaggerRoutes.Route
