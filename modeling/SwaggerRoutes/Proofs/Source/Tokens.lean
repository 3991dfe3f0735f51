/-
  Proofs/Source/Tokens.lean --- the tokens that the source for rules is meant to have.

  `sourceTokens` says it field by field, without lines, levels, calls or escapes: each text of a
  layout and of its rules is one literal.  `statementTokens_eq` is the only statement here about how
  statements are built: call by call they have the tokens that are meant.
-/
import SwaggerRoutes.Naming.Identifier
import SwaggerRoutes.Proofs.Java.Lexeme
import SwaggerRoutes.Source.Builder

set_option autoImplicit false

namespace SwaggerRoutes.Source

open Java Route Swagger

/-! ## What is meant -/

/-- A constant of a type. -/
def constantTokens (type name : String) : List Token :=
  dottedNames [type, name]

/-- Arguments in parentheses. -/
def argumentTokens (arguments : List (List Token)) : List Token :=
  [.separator '('] ++ (arguments.intersperse [.separator ',']).flatten ++ [.separator ')']

/-- A call of a method, from the point on. -/
def callTokens (method : String) (arguments : List (List Token)) : List Token :=
  [.separator '.', .identifier method] ++ argumentTokens arguments

/-- A call with one text. -/
def textTokens (method text : String) : List Token :=
  callTokens method [[.text text]]

/-- A call with one text, unless that is missing or empty. -/
def shownTokens (method : String) (text : Option String) : List Token :=
  if text.getD "" = "" then [] else textTokens method (text.getD "")

/-- The collection formats for which there are constants. -/
def formatNames : List String := ["csv", "ssv", "tsv", "pipes", "multi"]

/-- The name of the constant for the collection format of a parameter. -/
def formatName? (p : Param) : Option String :=
  p.collectionFormat.filter (· ∈ formatNames)

/-- The calls for a parameter. -/
def paramTokens (p : Param) : List Token :=
  callTokens "param" [] ++
  textTokens "name" p.name ++
  callTokens "type" [constantTokens "RestParamType" p.location.name] ++
  callTokens "required" [[.reserved (if p.required then "true" else "false")]] ++
  shownTokens "description" p.description ++
  shownTokens "dataType" p.dataType ++
  shownTokens "dataFormat" p.dataFormat ++
  shownTokens "defaultValue" p.defaultValue ++
  (if p.allowed = [] then []
    else callTokens "allowableValues" (p.allowed.map fun value => [.text value])) ++
  (formatName? p).toList.flatMap (fun name =>
    callTokens "collectionFormat" [constantTokens "CollectionFormat" name]) ++
  shownTokens "arrayType" p.arrayType ++
  callTokens "endParam" []

/-- The statement for a rule under a base path. -/
def statementTokens (basePath : Option String) (r : Rule) : List Token :=
  [.identifier "rest"] ++
  argumentTokens (if basePath.getD "" = "" then [] else [[.text (basePath.getD "")]]) ++
  textTokens r.method.verb r.path ++
  shownTokens "id" r.id ++
  shownTokens "description" r.description ++
  shownTokens "consumes" (",".intercalate r.consumes) ++
  shownTokens "produces" (",".intercalate r.produces) ++
  r.params.flatMap paramTokens ++
  textTokens "to" r.destination ++
  [.separator ';']

/-- An import. -/
def importTokens (names : List String) : List Token :=
  [.reserved "import"] ++ dottedNames names ++ [.separator ';']

/-- The tokens up to the class and its opening brace. -/
def headerTokens (l : Layout) (rules : List Rule) : List Token :=
  [.reserved "package"] ++ dottedNames ((Naming.segments l.packageName).map String.ofList) ++
  [.separator ';'] ++
  importTokens ["javax", "annotation", "Generated"] ++
  importTokens ["org", "apache", "camel", "builder", "RouteBuilder"] ++
  (if ∃ r ∈ rules, ∃ p ∈ r.params, formatName? p ≠ none then
    importTokens ["org", "apache", "camel", "model", "rest", "CollectionFormat"] else []) ++
  (if ∃ r ∈ rules, r.params ≠ [] then
    importTokens ["org", "apache", "camel", "model", "rest", "RestParamType"] else []) ++
  [.separator '@', .identifier "Generated", .separator '(', .text "restdsl-java", .separator ')',
    .reserved "public", .reserved "final", .reserved "class", .identifier l.className,
    .reserved "extends", .identifier "RouteBuilder", .separator '\x7b']

/-- The tokens from the method on. -/
def methodTokens (l : Layout) (rules : List Rule) : List Token :=
  [.separator '@', .identifier "Override", .reserved "public", .reserved "void",
    .identifier "configure", .separator '(', .separator ')', .reserved "throws",
    .identifier "Exception", .separator '\x7b'] ++
  rules.flatMap (statementTokens l.basePath) ++
  [.separator '\x7d', .separator '\x7d']

/-- The tokens of the source for rules. -/
def sourceTokens (l : Layout) (rules : List Rule) : List Token :=
  headerTokens l rules ++ methodTokens l rules

/-! ## What is built -/

/-- The tokens of an argument. -/
def Argument.tokens : Argument → List Token
  | text s => [.text s]
  | flag b => [.reserved (if b then "true" else "false")]
  | kind l => constantTokens "RestParamType" l.name
  | format f => constantTokens "CollectionFormat" f.name

/-- The tokens of a call. -/
def Call.tokens (c : Call) : List Token :=
  callTokens c.method (c.arguments.map Argument.tokens)

/-- The tokens of a statement. -/
def Statement.tokens (s : Statement) : List Token :=
  [.identifier "rest"] ++ argumentTokens (s.base.toList.map fun b => [.text b]) ++
    s.calls.flatMap Call.tokens ++ s.last.tokens ++ [.separator ';']

theorem flatMap_tokens_ofText? (level : Nat) (method : String) (s : Option String) :
    (Call.ofText? level method s).flatMap Call.tokens = shownTokens method s := by
  cases s with
  | none => rfl
  | some s =>
      by_cases hs : s = ""
      · subst hs
        rfl
      · simp [Call.ofText?, shownTokens, hs, Call.tokens, Argument.tokens, textTokens]

/-- Joining no media types shows as little as joining them to an empty text. -/
theorem shownTokens_joinMediaTypes (method : String) (types : List String) :
    shownTokens method (joinMediaTypes types) = shownTokens method (",".intercalate types) := by
  cases types with
  | nil => simp [joinMediaTypes, shownTokens]
  | cons t ts => rfl

/-- The names of the constants are those for which there is a format. -/
theorem mem_formatNames_of_ofName? {s : String} {f : CollectionFormat}
    (h : CollectionFormat.ofName? s = some f) : s ∈ formatNames := by
  rw [← CollectionFormat.name_of_ofName? h]
  cases f <;> decide

theorem ofName?_ne_none {s : String} (h : s ∈ formatNames) : CollectionFormat.ofName? s ≠ none := by
  simp only [formatNames, List.mem_cons, List.not_mem_nil, or_false] at h
  rcases h with rfl | rfl | rfl | rfl | rfl <;> decide

theorem ofName?_eq_none_iff (s : String) : CollectionFormat.ofName? s = none ↔ s ∉ formatNames := by
  constructor
  · exact fun h hs => ofName?_ne_none hs h
  · intro h
    cases hf : CollectionFormat.ofName? s with
    | none => rfl
    | some f => exact absurd (mem_formatNames_of_ofName? hf) h

/-- A parameter has a constant for its collection format when its text names one. -/
theorem map_name_ofParam? (p : Param) :
    (CollectionFormat.ofParam? p).map CollectionFormat.name = formatName? p := by
  unfold CollectionFormat.ofParam? formatName?
  cases p.collectionFormat with
  | none => rfl
  | some s =>
      rw [Option.bind_some]
      cases h : CollectionFormat.ofName? s with
      | none =>
          have hs : s ∉ formatNames := (ofName?_eq_none_iff s).mp h
          simp [Option.filter, hs]
      | some f =>
          have hs : s ∈ formatNames := mem_formatNames_of_ofName? h
          simp [Option.filter, hs, CollectionFormat.name_of_ofName? h]

theorem flatMap_tokens_paramCalls (p : Param) :
    (paramCalls p).flatMap Call.tokens = paramTokens p := by
  have hformat : ((CollectionFormat.ofParam? p).toList.map fun f =>
      (⟨5, "collectionFormat", [.format f]⟩ : Call)).flatMap Call.tokens =
      (formatName? p).toList.flatMap fun name =>
        callTokens "collectionFormat" [constantTokens "CollectionFormat" name] := by
    rw [← map_name_ofParam?]
    cases CollectionFormat.ofParam? p <;> rfl
  have hallowed : (if p.allowed.isEmpty then [] else
      [(⟨5, "allowableValues", p.allowed.map .text⟩ : Call)]).flatMap Call.tokens =
      if p.allowed = [] then []
        else callTokens "allowableValues" (p.allowed.map fun value => [.text value]) := by
    cases p.allowed with
    | nil => rfl
    | cons v vs => simp [Call.tokens, Function.comp_def, Argument.tokens]
  simp only [paramCalls, List.flatMap_append, flatMap_tokens_ofText?, hformat, hallowed]
  rfl

theorem statementTokens_eq (basePath : Option String) (r : Rule) :
    (Statement.ofRule basePath r).tokens = statementTokens basePath r := by
  have hbase : (shownBase basePath).toList.map (fun b => [Token.text b]) =
      if basePath.getD "" = "" then [] else [[.text (basePath.getD "")]] := by
    cases basePath with
    | none => rfl
    | some b => by_cases hb : b = "" <;> simp [shownBase, Option.filter, hb]
  have hparams : (r.params.flatMap paramCalls).flatMap Call.tokens =
      r.params.flatMap paramTokens := by
    simp only [List.flatMap_assoc, flatMap_tokens_paramCalls]
  simp only [Statement.tokens, Statement.ofRule, List.flatMap_append, flatMap_tokens_ofText?,
    shownTokens_joinMediaTypes, hbase, hparams]
  simp [statementTokens, textTokens, Call.tokens, Argument.tokens]

end SwaggerRoutes.Source
