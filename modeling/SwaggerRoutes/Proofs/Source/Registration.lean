/-
  Proofs/Source/Registration.lean --- which verb of a definition a statement registers.

  A statement is read call by call: `groups` cuts its calls at those that begin a parameter, and
  `argumentsOf` collects what a method is given in such a group.  `Registers` then compares a
  statement with a verb, attribute by attribute.  It leaves collection formats alone, and says of
  each other attribute that its method is called exactly if there is something to show.
-/
import Mathlib.Data.List.Forall2
import SwaggerRoutes.Source.Builder

set_option autoImplicit false

namespace SwaggerRoutes.Source

open Route Swagger

/-! ## Reading calls -/

/-- What the calls of a method are given, call by call. -/
def argumentsOf (method : String) (cs : List Call) : List (List Argument) :=
  (cs.filter fun c => c.method = method).map Call.arguments

/-- The calls in front of the first parameter, and the calls for each parameter. -/
def groups : List Call → List Call × List (List Call)
  | [] => ([], [])
  | c :: cs =>
    if c.method = "param" then ([], (c :: (groups cs).1) :: (groups cs).2)
    else (c :: (groups cs).1, (groups cs).2)

/-- The method is called once, with the text, or it is not called and there is no text. -/
def Shows (method : String) (text : Option String) (cs : List Call) : Prop :=
  argumentsOf method cs = text.toList.map fun t => [.text t]

/-- A text, unless it is empty. -/
def nonEmpty (text : Option String) : Option String :=
  text.filter fun t => t ≠ ""

theorem argumentsOf_nil (method : String) : argumentsOf method [] = [] := rfl

theorem argumentsOf_cons (method : String) (c : Call) (cs : List Call) :
    argumentsOf method (c :: cs) =
      if c.method = method then c.arguments :: argumentsOf method cs
      else argumentsOf method cs := by
  by_cases hc : c.method = method <;> simp [argumentsOf, hc]

theorem argumentsOf_append (method : String) (cs ds : List Call) :
    argumentsOf method (cs ++ ds) = argumentsOf method cs ++ argumentsOf method ds := by
  simp [argumentsOf]

theorem nonEmpty_some {t : String} (h : t ≠ "") : nonEmpty (some t) = some t := by
  simp [nonEmpty, Option.filter, h]

theorem shownBase_eq_nonEmpty (basePath : Option String) :
    shownBase basePath = nonEmpty basePath := by
  cases basePath with
  | none => rfl
  | some p => by_cases hp : p = "" <;> simp [shownBase, nonEmpty, Option.filter, hp]

/-- A call with a text is made unless the text is missing or empty. -/
theorem argumentsOf_ofText? (method other : String) (level : Nat) (text : Option String) :
    argumentsOf method (Call.ofText? level other text) =
      if other = method then (nonEmpty text).toList.map fun t => [.text t] else [] := by
  cases text with
  | none => exact (ite_self _).symm
  | some t =>
      by_cases ht : t = ""
      · subst ht
        exact (ite_self _).symm
      · rw [nonEmpty_some ht, Call.ofText?, if_neg (by simpa using ht), argumentsOf_cons]
        rfl

/-- A text is shown in one place at most. -/
theorem methods_ofText?_sublist (level : Nat) (method : String) (text : Option String) :
    ((Call.ofText? level method text).map Call.method).Sublist [method] := by
  unfold Call.ofText?
  split
  · exact List.nil_sublist _
  · split
    · exact List.nil_sublist _
    · exact List.Sublist.refl _

/-! ## Parameters -/

/-- The methods that are called for a parameter after it is begun, in order. -/
def paramMethods : List String :=
  ["name", "type", "required", "description", "dataType", "dataFormat", "defaultValue",
    "allowableValues", "collectionFormat", "arrayType", "endParam"]

/-- The calls of a group register a parameter. -/
structure ShowsParam (p : Param) (cs : List Call) : Prop where
  ends : ∃ level, cs.getLast? = some ⟨level, "endParam", []⟩
  name : argumentsOf "name" cs = [[.text p.name]]
  location : argumentsOf "type" cs = [[.kind p.location]]
  required : argumentsOf "required" cs = [[.flag p.required]]
  description : Shows "description" (nonEmpty p.description) cs
  dataType : Shows "dataType" (nonEmpty p.dataType) cs
  dataFormat : Shows "dataFormat" (nonEmpty p.dataFormat) cs
  defaultValue : Shows "defaultValue" (nonEmpty p.defaultValue) cs
  /-- The values are given in one call, an empty one like any other. -/
  allowed : argumentsOf "allowableValues" cs =
    if p.allowed = [] then [] else [p.allowed.map .text]
  arrayType : Shows "arrayType" (nonEmpty p.arrayType) cs
  /-- Nothing else is called. -/
  methods : (cs.map Call.method).Sublist ("param" :: paramMethods)

theorem argumentsOf_allowed (method : String) (p : Param) :
    argumentsOf method (if p.allowed.isEmpty then [] else
      [⟨5, "allowableValues", p.allowed.map .text⟩]) =
      if "allowableValues" = method then (if p.allowed = [] then [] else [p.allowed.map .text])
      else [] := by
  cases p.allowed with
  | nil => exact (ite_self _).symm
  | cons v vs => exact argumentsOf_cons method ⟨5, "allowableValues", (v :: vs).map .text⟩ []

theorem argumentsOf_format (method : String) (p : Param) :
    argumentsOf method ((CollectionFormat.ofParam? p).toList.map fun f =>
      ⟨5, "collectionFormat", [.format f]⟩) =
      if "collectionFormat" = method then
        (CollectionFormat.ofParam? p).toList.map fun f => [.format f] else [] := by
  cases CollectionFormat.ofParam? p with
  | none => exact (ite_self _).symm
  | some f => exact argumentsOf_cons method ⟨5, "collectionFormat", [.format f]⟩ []

/-- The calls for a parameter are some of those there may be, in order. -/
theorem methods_paramCalls_sublist (p : Param) :
    ((paramCalls p).map Call.method).Sublist ("param" :: paramMethods) := by
  have hfirst : ([⟨4, "param", []⟩, ⟨5, "name", [.text p.name]⟩, ⟨5, "type", [.kind p.location]⟩,
      ⟨5, "required", [.flag p.required]⟩].map Call.method).Sublist
      ["param", "name", "type", "required"] := List.Sublist.refl _
  have htexts (method : String) (text : Option String) := methods_ofText?_sublist 5 method text
  have hallowed : ((if p.allowed.isEmpty then [] else
      [(⟨5, "allowableValues", p.allowed.map .text⟩ : Call)]).map Call.method).Sublist
      ["allowableValues"] := by
    split
    · exact List.nil_sublist _
    · exact List.Sublist.refl _
  have hformat : (((CollectionFormat.ofParam? p).toList.map fun f =>
      (⟨5, "collectionFormat", [.format f]⟩ : Call)).map Call.method).Sublist
      ["collectionFormat"] := by
    cases CollectionFormat.ofParam? p with
    | none => exact List.nil_sublist _
    | some f => exact List.Sublist.refl _
  have hlast : ([(⟨4, "endParam", []⟩ : Call)].map Call.method).Sublist ["endParam"] :=
    List.Sublist.refl _
  simp only [paramCalls, List.map_append]
  exact (((((((hfirst.append (htexts "description" p.description)).append
    (htexts "dataType" p.dataType)).append (htexts "dataFormat" p.dataFormat)).append
    (htexts "defaultValue" p.defaultValue)).append hallowed).append hformat).append
    (htexts "arrayType" p.arrayType)).append hlast

theorem showsParam_paramCalls (p : Param) : ShowsParam p (paramCalls p) := by
  constructor
  case ends => exact ⟨4, List.getLast?_concat⟩
  case methods => exact methods_paramCalls_sublist p
  all_goals
    simp only [Shows, paramCalls, argumentsOf_append, argumentsOf_cons, argumentsOf_nil,
      argumentsOf_ofText?, argumentsOf_allowed, argumentsOf_format, String.reduceEq, if_true,
      if_false, List.append_nil, List.nil_append]

/-! ## Groups -/

theorem groups_append {own : List Call} (h : ∀ c ∈ own, c.method ≠ "param") (cs : List Call) :
    groups (own ++ cs) = (own ++ (groups cs).1, (groups cs).2) := by
  induction own with
  | nil => rfl
  | cons c own ih =>
      have hc : c.method ≠ "param" := h c List.mem_cons_self
      have hown : ∀ d ∈ own, d.method ≠ "param" := fun d hd => h d (List.mem_cons_of_mem c hd)
      rw [List.cons_append, groups, if_neg hc, ih hown]
      rfl

/-- The calls for parameters are one group for each of them. -/
theorem groups_paramCalls (ps : List Param) :
    groups (ps.flatMap paramCalls) = ([], ps.map paramCalls) := by
  induction ps with
  | nil => rfl
  | cons p ps ih =>
      have hcalls : paramCalls p = ⟨4, "param", []⟩ :: (paramCalls p).tail := rfl
      have hinner : ∀ c ∈ (paramCalls p).tail, c.method ≠ "param" := by
        intro c hc hparam
        have hmethods := methods_paramCalls_sublist p
        rw [hcalls, List.map_cons, List.cons_sublist_cons] at hmethods
        have hmem : c.method ∈ paramMethods := hmethods.subset (List.mem_map_of_mem hc)
        rw [hparam] at hmem
        exact absurd hmem (by decide)
      rw [List.flatMap_cons, List.map_cons, hcalls, List.cons_append, groups, if_pos rfl,
        groups_append hinner, ih, List.append_nil]

/-! ## Statements -/

/-- The methods that a route calls for itself after its verb, in order. -/
def routeMethods : List String :=
  ["id", "description", "consumes", "produces"]

/-- A statement under a base path registers a verb: the base path, the verb, the texts of the route,
its parameters one by one, and at last its destination. -/
structure Registers (base : Option String) (v : Verb) (s : Statement) : Prop where
  base : s.base = base
  verb : argumentsOf v.method.verb (groups s.calls).1 = [[.text v.uri]]
  id : Shows "id" v.id (groups s.calls).1
  description : Shows "description" v.description (groups s.calls).1
  consumes : Shows "consumes" (nonEmpty v.consumes) (groups s.calls).1
  produces : Shows "produces" (nonEmpty v.produces) (groups s.calls).1
  /-- Nothing else is called for the route itself. -/
  methods : ((groups s.calls).1.map Call.method).Sublist (v.method.verb :: routeMethods)
  params : List.Forall₂ ShowsParam v.params (groups s.calls).2
  destination : s.last.method = "to" ∧ s.last.arguments = [.text v.destination]

/-- The calls that a route makes for itself. -/
def ownCalls (r : Rule) : List Call :=
  [⟨3, r.method.verb, [.text r.path]⟩] ++
  Call.ofText? 4 "id" r.id ++
  Call.ofText? 4 "description" r.description ++
  Call.ofText? 4 "consumes" (joinMediaTypes r.consumes) ++
  Call.ofText? 4 "produces" (joinMediaTypes r.produces)

theorem methods_ownCalls_sublist (r : Rule) :
    ((ownCalls r).map Call.method).Sublist (r.method.verb :: routeMethods) := by
  have htexts (method : String) (text : Option String) := methods_ofText?_sublist 4 method text
  simp only [ownCalls, List.map_append]
  exact ((((List.Sublist.refl [r.method.verb]).append (htexts "id" r.id)).append
    (htexts "description" r.description)).append
    (htexts "consumes" (joinMediaTypes r.consumes))).append
    (htexts "produces" (joinMediaTypes r.produces))

theorem verb_not_mem_routeMethods (m : Method) : m.verb ∉ "param" :: routeMethods := by
  cases m <;> decide

theorem groups_ofRule (basePath : Option String) (r : Rule) :
    groups (Statement.ofRule basePath r).calls = (ownCalls r, r.params.map paramCalls) := by
  have hown : ∀ c ∈ ownCalls r, c.method ≠ "param" := by
    intro c hc hparam
    have hmem := (methods_ownCalls_sublist r).subset (List.mem_map_of_mem hc)
    rw [hparam, List.mem_cons] at hmem
    rcases hmem with hverb | hmem
    · exact verb_not_mem_routeMethods r.method (hverb ▸ List.mem_cons_self)
    · exact absurd hmem (by decide)
  have hcalls : (Statement.ofRule basePath r).calls = ownCalls r ++ r.params.flatMap paramCalls :=
    rfl
  rw [hcalls, groups_append hown, groups_paramCalls, List.append_nil]

/-- The statement for a rule registers its verb, if the rule has no empty id or description. -/
theorem registers_ofRule (basePath : Option String) {r : Rule} (hid : r.id ≠ some "")
    (hdescription : r.description ≠ some "") :
    Registers (shownBase basePath) (.ofRule r) (.ofRule basePath r) := by
  have hne (text : Option String) (h : text ≠ some "") : nonEmpty text = text := by
    cases text with
    | none => rfl
    | some t => exact nonEmpty_some fun ht => h (ht ▸ rfl)
  have hverb : r.method.verb ∉ routeMethods := fun h =>
    verb_not_mem_routeMethods r.method (List.mem_cons_of_mem _ h)
  simp only [routeMethods, List.mem_cons, List.not_mem_nil, not_or, or_false] at hverb
  obtain ⟨hverbId, hverbDescription, hverbConsumes, hverbProduces⟩ := hverb
  constructor
  case base => rfl
  case destination => exact ⟨rfl, rfl⟩
  case params =>
    rw [groups_ofRule]
    exact List.forall₂_map_right_iff.mpr (List.forall₂_same.mpr fun p _ => showsParam_paramCalls p)
  case methods =>
    rw [groups_ofRule]
    exact methods_ownCalls_sublist r
  case verb =>
    rw [groups_ofRule]
    simp only [Verb.ofRule, ownCalls, argumentsOf_append, argumentsOf_cons, argumentsOf_nil,
      argumentsOf_ofText?, if_true, if_neg (Ne.symm hverbId), if_neg (Ne.symm hverbDescription),
      if_neg (Ne.symm hverbConsumes), if_neg (Ne.symm hverbProduces), List.append_nil]
  all_goals
    rw [groups_ofRule]
    simp only [Shows, Verb.ofRule, ownCalls, argumentsOf_append, argumentsOf_cons, argumentsOf_nil,
      argumentsOf_ofText?, hverbId, hverbDescription, hverbConsumes, hverbProduces,
      hne r.id hid, hne r.description hdescription, String.reduceEq, if_true, if_false,
      List.append_nil, List.nil_append]

end SwaggerRoutes.Source
