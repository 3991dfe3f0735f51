/-
  Proofs/Swagger/RoundTrip.lean --- a description that was loaded is loaded again from its own text.

  The models of a description and of its parts are one to one with the values of their shapes, and
  the shape of a description is regular.  So what holds of decoded values holds of loaded models.
  `IsLoadable` says of a model, without a look at any text, that some text may give it.  Of such
  models those are loaded again whose free values have integers for numbers.
-/
import SwaggerRoutes.Proofs.Document.Canonical
import SwaggerRoutes.Swagger.Load

set_option autoImplicit false

namespace SwaggerRoutes.Swagger

open Document

/-! ## Models and values -/

theorem Location.toValue_ofValue (i : Location.shape.Value) :
    (Location.ofValue i).toValue = i := by
  revert i
  exact (by decide : ∀ i : Fin 5, (Location.ofValue i).toValue = i)

theorem Items.toValue_ofValue (v : Items.shape.Value) : (Items.ofValue v).toValue = v := rfl

theorem map_map_of_inverse {α β : Type} {f : α → β} {g : β → α} (h : ∀ a, g (f a) = a) :
    (∀ o : Option α, (o.map f).map g = o) ∧ ∀ l : List α, (l.map f).map g = l := by
  constructor
  · intro o
    cases o with
    | none => rfl
    | some a => exact congrArg some (h a)
  · intro l
    rw [List.map_map]
    exact List.map_id'' (fun a => h a) l

theorem Parameter.toValue_ofValue (v : Parameter.shape.Value) :
    (Parameter.ofValue v).toValue = v := by
  obtain ⟨name, location, description, required, dataType, format, items, collectionFormat,
    default, allowed, schema, ⟨⟩⟩ := v
  have hitems := (map_map_of_inverse Items.toValue_ofValue).1 items
  unfold Parameter.ofValue Parameter.toValue
  dsimp only
  rw [Location.toValue_ofValue, hitems]

theorem ParameterEntry.toValue_ofValue (v : ParameterEntry.shape.Value) :
    (ParameterEntry.ofValue v).toValue = v := by
  cases v with
  | inl v => rfl
  | inr v => exact congrArg Sum.inr (Parameter.toValue_ofValue v)

theorem Operation.toValue_ofValue (v : Operation.shape.Value) :
    (Operation.ofValue v).toValue = v := by
  obtain ⟨operationId, summary, description, tags, consumes, produces, parameters, responses,
    deprecated, security, ⟨⟩⟩ := v
  have hparameters := (map_map_of_inverse ParameterEntry.toValue_ofValue).2 parameters
  unfold Operation.ofValue Operation.toValue
  dsimp only
  rw [hparameters]

theorem PathItem.toValue_ofValue (v : PathItem.shape.Value) : (PathItem.ofValue v).toValue = v := by
  obtain ⟨parameters, get, put, post, delete, patch, head, options, ⟨⟩⟩ := v
  have hparameters := (map_map_of_inverse ParameterEntry.toValue_ofValue).2 parameters
  have hoperation := (map_map_of_inverse Operation.toValue_ofValue).1
  unfold PathItem.ofValue PathItem.toValue
  dsimp only
  rw [hparameters, hoperation, hoperation, hoperation, hoperation, hoperation, hoperation,
    hoperation]

theorem Contact.toValue_ofValue (v : Contact.shape.Value) : (Contact.ofValue v).toValue = v := rfl

theorem License.toValue_ofValue (v : License.shape.Value) : (License.ofValue v).toValue = v := rfl

theorem Tag.toValue_ofValue (v : Tag.shape.Value) : (Tag.ofValue v).toValue = v := rfl

theorem Info.toValue_ofValue (v : Info.shape.Value) : (Info.ofValue v).toValue = v := by
  obtain ⟨title, description, version, termsOfService, contact, license, ⟨⟩⟩ := v
  have hcontact := (map_map_of_inverse Contact.toValue_ofValue).1 contact
  have hlicense := (map_map_of_inverse License.toValue_ofValue).1 license
  unfold Info.ofValue Info.toValue
  dsimp only
  rw [hcontact, hlicense]

theorem mapValues_mapValues_of_inverse {κ α β : Type} {f : α → β} {g : β → α}
    (h : ∀ a, g (f a) = a) (t : Table κ α) : (t.mapValues f).mapValues g = t := by
  refine Table.ext ?_
  change (t.entries.map fun e => (e.1, f e.2)).map (fun e => (e.1, g e.2)) = t.entries
  rw [List.map_map]
  exact List.map_id'' (fun e => congrArg (Prod.mk e.1) (h e.2)) t.entries

theorem Spec.toValue_ofValue (v : Spec.shape.Value) : (Spec.ofValue v).toValue = v := by
  obtain ⟨version, info, host, basePath, schemes, consumes, produces, paths, definitions, tags,
    ⟨⟩⟩ := v
  have hpaths : (paths.map (Table.mapValues PathItem.ofValue)).map
      (Table.mapValues PathItem.toValue) = paths :=
    (map_map_of_inverse (mapValues_mapValues_of_inverse PathItem.toValue_ofValue)).1 paths
  have htags := (map_map_of_inverse Tag.toValue_ofValue).2 tags
  unfold Spec.ofValue Spec.toValue
  dsimp only
  rw [Info.toValue_ofValue, hpaths, htags]

theorem Spec.ofValue_toValue (m : Spec) : ofValue m.toValue = m := by
  have hpaths : (m.paths.map (Table.mapValues PathItem.toValue)).map
      (Table.mapValues PathItem.ofValue) = m.paths :=
    (map_map_of_inverse (mapValues_mapValues_of_inverse PathItem.ofValue_toValue)).1 m.paths
  have htags := (map_map_of_inverse Tag.ofValue_toValue).2 m.tags
  unfold Spec.ofValue Spec.toValue
  dsimp only
  rw [Info.ofValue_toValue, hpaths, htags]

/-! ## Free values -/

/-- The free values of a parameter. -/
def Parameter.freeValues (p : Parameter) : List Json.Value :=
  p.default.toList ++ p.allowed ++ p.schema.toList

/-- The free values of an item of a parameter list; a reference has none. -/
def ParameterEntry.freeValues : ParameterEntry → List Json.Value
  | .reference _ => []
  | .inline p => p.freeValues

/-- The free values of an operation. -/
def Operation.freeValues (o : Operation) : List Json.Value :=
  o.parameters.flatMap ParameterEntry.freeValues ++ o.responses.values ++
    o.security.toList.flatten

/-- The free values of a path. -/
def PathItem.freeValues (p : PathItem) : List Json.Value :=
  p.parameters.flatMap ParameterEntry.freeValues ++
    p.operations.flatMap fun o => o.2.freeValues

/-- The free values of a description: the defaults, allowed values and schemas of parameters, the
responses and the security of operations, and the definitions. -/
def Spec.freeValues (s : Spec) : List Json.Value :=
  s.paths.toList.flatMap (fun t => t.values.flatMap PathItem.freeValues) ++ s.definitions.values

section

variable {key : String} {presence : Presence} {s : Shape} {rest : Fields}

/-- A field that holds no free values may be left out. -/
theorem freeValues_skip (v : s.Value) (vs : rest.Values) (h : s.holdsFree = false) :
    (Fields.cons key presence s rest).freeValues (v, vs) = rest.freeValues vs := by
  rw [Fields.freeValues, s.freeValues_eq_nil h v, List.nil_append]

theorem freeValues_option (o : Option Json.Value) :
    (Shape.optional .free).freeValues o = o.toList := by
  cases o <;> rfl

theorem freeValues_items (l : List Json.Value) : (Shape.list .free).freeValues l = l :=
  List.flatMap_singleton' l

theorem freeValues_entries (t : Table String Json.Value) :
    (Shape.table .free).freeValues t = t.values :=
  List.flatMap_singleton' t.values

/-- The free values of an option are those of its model. -/
theorem freeValues_map {α : Type} {f : α → s.Value} {g : α → List Json.Value}
    (h : ∀ a, s.freeValues (f a) = g a) (o : Option α) :
    (Shape.optional s).freeValues (o.map f) = o.toList.flatMap g := by
  cases o with
  | none => rfl
  | some a => exact (h a).trans (List.append_nil _).symm

/-- The free values of a list are those of its models. -/
theorem flatMap_freeValues {α : Type} {f : α → s.Value} {g : α → List Json.Value}
    (h : ∀ a, s.freeValues (f a) = g a) (l : List α) :
    (l.map f).flatMap s.freeValues = l.flatMap g := by
  rw [List.flatMap_map]
  exact congrArg (fun k => l.flatMap k) (funext h)

end

theorem Parameter.freeValues_toValue (p : Parameter) :
    Parameter.shape.freeValues p.toValue = p.freeValues := by
  iterate 8 refine (freeValues_skip _ _ rfl).trans ?_
  change (Shape.optional .free).freeValues p.default ++ ((Shape.list .free).freeValues p.allowed ++
    ((Shape.optional .free).freeValues p.schema ++ [])) = _
  rw [freeValues_option, freeValues_items, freeValues_option, List.append_nil,
    ← List.append_assoc]
  rfl

theorem ParameterEntry.freeValues_toValue (e : ParameterEntry) :
    ParameterEntry.shape.freeValues e.toValue = e.freeValues := by
  cases e with
  | reference target => rfl
  | inline p => exact p.freeValues_toValue

theorem Operation.freeValues_toValue (o : Operation) :
    Operation.shape.freeValues o.toValue = o.freeValues := by
  have hsecurity : (Shape.optional (.list .free)).freeValues o.security =
      o.security.toList.flatten := by
    cases o.security with
    | none => rfl
    | some l => exact (freeValues_items l).trans (List.append_nil l).symm
  iterate 6 refine (freeValues_skip _ _ rfl).trans ?_
  change (o.parameters.map ParameterEntry.toValue).flatMap ParameterEntry.shape.freeValues ++
    ((Shape.table .free).freeValues o.responses ++
      ((Shape.optional .flag).freeValues o.deprecated ++
        ((Shape.optional (.list .free)).freeValues o.security ++ []))) = _
  rw [flatMap_freeValues ParameterEntry.freeValues_toValue, freeValues_entries,
    Shape.freeValues_eq_nil (.optional .flag) rfl, hsecurity, List.nil_append, List.append_nil,
    ← List.append_assoc]
  rfl

theorem PathItem.freeValues_toValue (p : PathItem) :
    PathItem.shape.freeValues p.toValue = p.freeValues := by
  have hmethods : Method.all.map (fun m =>
      (Shape.optional Operation.shape).freeValues ((p.operation? m).map Operation.toValue)) =
      Method.all.map fun m => (p.operation? m).toList.flatMap Operation.freeValues :=
    List.map_congr_left fun m _ => freeValues_map Operation.freeValues_toValue (p.operation? m)
  have hoperations : p.operations.flatMap (fun o => o.2.freeValues) =
      Method.all.flatMap fun m => (p.operation? m).toList.flatMap Operation.freeValues := by
    have hdeclared (m : Method) : ((p.operation? m).map (m, ·)).toList.flatMap
        (fun o => o.2.freeValues) = (p.operation? m).toList.flatMap Operation.freeValues := by
      cases p.operation? m <;> rfl
    unfold operations
    rw [List.filterMap_eq_flatMap_toList, List.flatMap_assoc]
    exact congrArg (fun f => Method.all.flatMap f) (funext hdeclared)
  calc PathItem.shape.freeValues p.toValue
      = (p.parameters.map ParameterEntry.toValue).flatMap ParameterEntry.shape.freeValues ++
          (Method.all.map fun m => (Shape.optional Operation.shape).freeValues
            ((p.operation? m).map Operation.toValue)).flatten := rfl
    _ = p.freeValues := by
        rw [flatMap_freeValues ParameterEntry.freeValues_toValue, hmethods,
          ← List.flatMap_def, PathItem.freeValues, hoperations]

theorem Spec.freeValues_toValue (s : Spec) : shape.freeValues s.toValue = s.freeValues := by
  have htable (t : Table String PathItem) :
      (Shape.table PathItem.shape).freeValues (t.mapValues PathItem.toValue) =
        t.values.flatMap PathItem.freeValues := by
    have hvalues : (t.mapValues PathItem.toValue).values = t.values.map PathItem.toValue := by
      unfold Table.values Table.mapValues
      rw [List.map_map, List.map_map]
      rfl
    unfold Shape.freeValues
    rw [hvalues]
    exact flatMap_freeValues PathItem.freeValues_toValue t.values
  iterate 7 refine (freeValues_skip _ _ rfl).trans ?_
  change (Shape.optional (.table PathItem.shape)).freeValues
      (s.paths.map (Table.mapValues PathItem.toValue)) ++
    ((Shape.table .free).freeValues s.definitions ++
      ((Shape.list Tag.shape).freeValues (s.tags.map Tag.toValue) ++ [])) = _
  rw [freeValues_map htable, freeValues_entries, Shape.freeValues_eq_nil (.list Tag.shape) rfl,
    List.append_nil, List.append_nil]
  rfl

/-! ## Texts -/

namespace Spec

/-- A description is loaded from a text if the text is decoded to its value. -/
theorem load_json_eq_ok_iff {text : String} {m : Spec} :
    load .json text = .ok m ↔ Json.decode shape text = .ok m.toValue := by
  unfold load
  cases Json.decode shape text with
  | error f =>
      apply iff_of_false
      · exact fun h => nomatch h
      · exact fun h => nomatch h
  | ok v =>
      constructor
      · intro h
        obtain rfl := Except.ok.inj h
        rw [toValue_ofValue]
      · intro h
        obtain rfl := Except.ok.inj h
        exact congrArg Except.ok m.ofValue_toValue

/-- A description that a text may give: the objects in its free values are sorted, what is optional
is either missing or not null, and it is not too deep. -/
structure IsLoadable (m : Spec) : Prop where
  canonical : shape.IsCanonical m.toValue
  depth : m.toJson.depth ≤ Json.maxDepth

theorem isRegular_shape : shape.isRegular = true := by decide

theorem isLoadable_of_load {text : String} {m : Spec} (h : load .json text = .ok m) :
    m.IsLoadable := by
  have hheight : shape.height ≤ Json.maxDepth := by decide
  have hdecoded := isCanonical_of_decode isRegular_shape hheight (load_json_eq_ok_iff.mp h)
  exact ⟨hdecoded.1, hdecoded.2⟩

theorem isLoadable_of_freeValues {m : Spec}
    (h : ∀ j ∈ m.freeValues, j.IsCanonical ∧ j ≠ .null) (hdepth : m.toJson.depth ≤ Json.maxDepth) :
    m.IsLoadable := by
  rw [← freeValues_toValue] at h
  exact ⟨shape.isCanonical_of_freeValues isRegular_shape h, hdepth⟩

theorem IsLoadable.load_eq {m : Spec} (h : m.IsLoadable) (hm : ∀ j ∈ m.freeValues, j.IsIntegral) :
    load .json m.toJson.compactText = .ok m := by
  rw [← freeValues_toValue] at hm
  exact load_json_eq_ok_iff.mpr (decode_compactText isRegular_shape h.canonical h.depth hm)

/-- A description whose free values have integers for numbers is loaded again from the text that
prints it, if it was loaded at all; this needs no more than that it is loadable.  So printing what
was loaded changes the text no more, and descriptions that differ anywhere have different texts,
whether in what is absent and what is empty, in the order of paths, responses and definitions, or in
what is a parameter and what a reference. -/
theorem load_compactText {m : Spec} (hm : ∀ j ∈ m.freeValues, j.IsIntegral) :
    (∀ text, load .json text = .ok m → load .json m.toJson.compactText = .ok m) ∧
    (load .json m.toJson.compactText = .ok m ↔ m.IsLoadable) ∧
    (m.IsLoadable →
      (load .json m.toJson.compactText).map (fun m => m.toJson.compactText) =
        .ok m.toJson.compactText ∧
      ∀ m' : Spec, m'.IsLoadable → (∀ j ∈ m'.freeValues, j.IsIntegral) →
        m'.toJson.compactText = m.toJson.compactText → m' = m) := by
  refine ⟨fun text h => ?_, ⟨isLoadable_of_load, fun h => h.load_eq hm⟩, fun h => ⟨?_, ?_⟩⟩
  · exact (isLoadable_of_load h).load_eq hm
  · rw [h.load_eq hm]
    rfl
  · intro m' h' hm' htext
    have hsame := h'.load_eq hm'
    rw [htext, h.load_eq hm] at hsame
    exact (Except.ok.inj hsame).symm

/-- A path with an operation that reads nothing, has a reference and a parameter and an integer as a
default, and another that says nothing. -/
def terse : String :=
  "\x7b\"paths\":\x7b\"/a\":\x7b\"post\":\x7b\"consumes\":[],"
    ++ "\"parameters\":[\x7b\"$ref\":\"p\"\x7d,"
    ++ "\x7b\"name\":\"q\",\"in\":\"query\",\"default\":-1\x7d]\x7d,"
    ++ "\"get\":\x7b\x7d\x7d,\"/\":\x7b\x7d\x7d\x7d"

/-- The description of that text. -/
def terseSpec : Spec :=
  let q := { Parameter.named "q" .query with default := some (.number (.int (-1))) }
  let post := { Operation.blank with
    consumes := some [], parameters := [.reference "p", .inline q] }
  let a := { PathItem.blank with post := some post, get := some .blank }
  { blank with paths := some ((Table.empty.insert "/a" a).insert "/" .blank) }

theorem isIntegral_of_numbers {vs : List Json.Value}
    (h : vs.flatMap Json.Value.numbers = [.int (-1)]) : ∀ j ∈ vs, j.IsIntegral := by
  intro j hj n hn
  have hmem := List.mem_flatMap.mpr ⟨j, hj, hn⟩
  rw [h] at hmem
  obtain rfl := List.mem_singleton.mp hmem
  exact ⟨by decide, by decide⟩

theorem isLoadable_terseSpec : terseSpec.IsLoadable := by
  have hvalues : terseSpec.freeValues = [.number (.int (-1))] := rfl
  refine isLoadable_of_freeValues (fun j hj => ?_) (by decide)
  rw [hvalues] at hj
  obtain rfl := List.mem_singleton.mp hj
  exact ⟨trivial, by simp⟩

/-- A description with paths, of which there is none. -/
def pathless : Spec :=
  { blank with paths := some .empty }

theorem isLoadable_pathless : pathless.IsLoadable :=
  isLoadable_of_freeValues (fun _ hj => absurd hj List.not_mem_nil) (by decide)

/-- The lists that are empty, the operation and the path that say nothing, the reference and the
parameter are found again, and so are paths of which there is none. -/
theorem load_compactText_of_terse :
    load .json terse = .ok terseSpec ∧
      load .json terseSpec.toJson.compactText = .ok terseSpec ∧
      load .json pathless.toJson.compactText = .ok pathless ∧
      pathless.toJson.compactText ≠ blank.toJson.compactText := by
  have hintegral : ∀ j ∈ terseSpec.freeValues, j.IsIntegral := isIntegral_of_numbers rfl
  obtain ⟨-, hterse, -⟩ := load_compactText hintegral
  have hnothing : ∀ j ∈ pathless.freeValues, j.IsIntegral := fun _ hj =>
    absurd hj List.not_mem_nil
  obtain ⟨-, hpathless, -⟩ := load_compactText hnothing
  have hback := hterse.mpr isLoadable_terseSpec
  refine ⟨?_, hback, hpathless.mpr isLoadable_pathless, by decide⟩
  -- Descriptions cannot be compared, but their texts can.
  have hloaded : (load .json terse).toOption.map (fun m =>
      (m.toJson.compactText, m.freeValues.flatMap Json.Value.numbers)) =
        some (terseSpec.toJson.compactText, [.int (-1)]) := by
    decide +kernel
  cases hload : load .json terse with
  | error f =>
      rw [hload] at hloaded
      exact nomatch hloaded
  | ok m =>
      rw [hload] at hloaded
      obtain ⟨htext, hnumbers⟩ := Prod.mk.inj (Option.some.inj hloaded)
      have hsame := (load_compactText (isIntegral_of_numbers hnumbers)).1 terse hload
      rw [htext, hback] at hsame
      exact hsame.symm

end Spec

end SwaggerRoutes.Swagger
