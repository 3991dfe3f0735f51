/-
  Proofs/Swagger/Arrangement.lean --- how a document is arranged does not affect its routes.

  Only the order of paths and that of arrays matter.  The members of every other object may be put
  into another order, and extensions may be added to the objects for which the format has them.
-/
import SwaggerRoutes.Proofs.Document.Arrangement
import SwaggerRoutes.Proofs.Swagger.RoundTrip
import SwaggerRoutes.Route.Derivation

set_option autoImplicit false

namespace SwaggerRoutes.Swagger

open Document Json

/-! ## The layout of documents -/

/-- A place in a document. -/
inductive Region where
  | root
  | info
  | contact
  | license
  | tags
  | tag
  | paths
  | path
  | operation
  | parameters
  /-- The parameters that a document gives under names; only references speak of them. -/
  | shared
  | parameter
  | items
  | other
  deriving DecidableEq, Repr

namespace Region

/-- The members with a place of their own. -/
def members : Region → List (String × Region)
  | root => [("info", info), ("paths", paths), ("parameters", shared), ("tags", tags)]
  | info => [("contact", contact), ("license", license)]
  | path => ("parameters", parameters) :: Method.all.map fun m => (m.verb, operation)
  | operation => [("parameters", parameters)]
  | parameter => [("items", items)]
  | items => [("items", items)]
  | _ => []

/-- The place of the value under a key. -/
def member (r : Region) (key : Option String) : Region :=
  match r with
  | paths => path
  | shared => parameter
  | r => (key.bind fun k => valueOf? k r.members).getD other

/-- The names of the fields that a record at a place has. -/
def fields : Region → List String
  | root => Spec.shape.names
  | info => Info.shape.names
  | path => PathItem.shape.names
  | operation => Operation.shape.names
  | parameter => Parameter.shape.names
  | _ => []

/-- The place of an item.  An array in place of a record gives the fields in their order. -/
def item (r : Region) (i : Nat) : Region :=
  match r with
  | tags => tag
  | parameters => parameter
  | r => r.member r.fields[i]?

/-- Whether the format has extensions at a place. -/
def isOpen : Region → Bool
  | root | info | contact | license | tag | path | operation | parameter | items => true
  | tags | paths | parameters | shared | other => false

end Region

/-- The layout of documents.  The order of paths is that of their routes; no other object has an
order. -/
def layout : Layout Region where
  member := Region.member
  item := Region.item
  isOpen := Region.isOpen
  isOrdered r := r = .paths

theorem isPlain_other : layout.IsPlain .other where
  member := by
    intro key
    cases key <;> rfl
  item := fun _ => rfl
  closed := rfl

/-! ### The layout suits the shapes -/

section

variable {key : String} {presence : Presence} {s : Shape} {rest : Fields} {p : Region}
  {place : Nat → Region}

theorem suits_optional (hs : s.Suits layout p) : (Shape.optional s).Suits layout p := hs

/-- A field of a simple shape needs no place of its own. -/
theorem suit_simple (hs : s.isSimple = true) (hmember : layout.member p (some key) = .other)
    (hitem : place 0 = .other) (hrest : rest.Suit layout p fun i => place (i + 1)) :
    (Fields.cons key presence s rest).Suit layout p place := by
  refine ⟨?_, ?_, hrest⟩
  · rw [hmember]
    exact s.suits_of_isPlain hs isPlain_other
  · rw [hitem]
    exact s.suits_of_isPlain hs isPlain_other

/-- A field of another shape has its own place, also when it is given as an item. -/
theorem suit_own {q : Region} (hs : s.Suits layout q) (hmember : layout.member p (some key) = q)
    (hitem : place 0 = q) (hrest : rest.Suit layout p fun i => place (i + 1)) :
    (Fields.cons key presence s rest).Suit layout p place := by
  refine ⟨?_, ?_, hrest⟩
  · rw [hmember]
    exact hs
  · rw [hitem]
    exact hs

end

theorem suits_items : Items.shape.Suits layout .items := by
  refine ⟨⟨by decide, by decide⟩, ?_⟩
  iterate 2 refine suit_simple rfl rfl rfl ?_
  trivial

theorem suits_parameter : Parameter.shape.Suits layout .parameter := by
  refine ⟨⟨by decide, by decide⟩, ?_⟩
  iterate 6 refine suit_simple rfl rfl rfl ?_
  refine suit_own (suits_optional suits_items) rfl rfl ?_
  iterate 4 refine suit_simple rfl rfl rfl ?_
  trivial

theorem suits_parameterEntry : ParameterEntry.shape.Suits layout .parameter := by
  refine ⟨⟨⟨by decide, by decide⟩, ?_⟩, suits_parameter⟩
  exact suit_simple rfl rfl rfl trivial

theorem suits_parameters : (Shape.list ParameterEntry.shape).Suits layout .parameters :=
  fun _ => suits_parameterEntry

theorem suits_operation : Operation.shape.Suits layout .operation := by
  refine ⟨⟨by decide, by decide⟩, ?_⟩
  iterate 6 refine suit_simple rfl rfl rfl ?_
  refine suit_own suits_parameters rfl rfl ?_
  iterate 3 refine suit_simple rfl rfl rfl ?_
  trivial

theorem suits_path : PathItem.shape.Suits layout .path := by
  refine ⟨⟨by decide, by decide⟩, ?_⟩
  refine suit_own suits_parameters rfl rfl ?_
  iterate 7 refine suit_own (suits_optional suits_operation) rfl rfl ?_
  trivial

theorem suits_info : Info.shape.Suits layout .info := by
  have hcontact : Contact.shape.Suits layout .contact := by
    refine ⟨⟨by decide, by decide⟩, ?_⟩
    iterate 3 refine suit_simple rfl rfl rfl ?_
    trivial
  have hlicense : License.shape.Suits layout .license := by
    refine ⟨⟨by decide, by decide⟩, ?_⟩
    iterate 2 refine suit_simple rfl rfl rfl ?_
    trivial
  refine ⟨⟨by decide, by decide⟩, ?_⟩
  iterate 4 refine suit_simple rfl rfl rfl ?_
  refine suit_own (suits_optional hcontact) rfl rfl ?_
  refine suit_own (suits_optional hlicense) rfl rfl ?_
  trivial

theorem suits_tag : Tag.shape.Suits layout .tag := by
  refine ⟨⟨by decide, by decide⟩, ?_⟩
  iterate 2 refine suit_simple rfl rfl rfl ?_
  trivial

theorem suits_spec : Spec.shape.Suits layout .root := by
  have hpaths : (Shape.table PathItem.shape).Suits layout .paths :=
    ⟨rfl, .inr rfl, fun _ => suits_path⟩
  have htags : (Shape.list Tag.shape).Suits layout .tags := fun _ => suits_tag
  refine ⟨⟨by decide, by decide⟩, ?_⟩
  refine suit_simple rfl rfl rfl ?_
  refine suit_own suits_info rfl rfl ?_
  iterate 5 refine suit_simple rfl rfl rfl ?_
  refine suit_own (suits_optional hpaths) rfl rfl ?_
  refine suit_simple rfl rfl rfl ?_
  refine suit_own htags rfl rfl ?_
  trivial

/-! ## Outlines of models -/

/-- An operation without its responses. -/
def Operation.outline (o : Operation) : Operation :=
  { o with responses := .empty }

/-- A path without the responses of its operations. -/
def PathItem.outline (p : PathItem) : PathItem where
  parameters := p.parameters
  get := p.get.map Operation.outline
  put := p.put.map Operation.outline
  post := p.post.map Operation.outline
  delete := p.delete.map Operation.outline
  patch := p.patch.map Operation.outline
  head := p.head.map Operation.outline
  options := p.options.map Operation.outline

/-- A description without its definitions and the responses of its operations. -/
def Spec.outline (m : Spec) : Spec :=
  { m with
    paths := m.paths.map (Table.mapValues PathItem.outline)
    definitions := .empty }

theorem outline_text (v : Option String) : someText.outline v = v :=
  Shape.outline_eq someText rfl v

theorem outline_texts (v : List String) : texts.outline v = v :=
  Shape.outline_eq texts rfl v

theorem outline_parameters (es : List ParameterEntry) :
    (Shape.list ParameterEntry.shape).outline (es.map ParameterEntry.toValue) =
      es.map ParameterEntry.toValue :=
  Shape.outline_eq _ (by decide) _

theorem Operation.outline_toValue (o : Operation) :
    Operation.shape.outline o.toValue = o.outline.toValue := by
  have hflag : (Shape.optional .flag).outline o.deprecated = o.deprecated :=
    Shape.outline_eq _ rfl _
  have hsecurity : (Shape.optional (.list .free)).outline o.security = o.security :=
    Shape.outline_eq _ rfl _
  have hlists (v : Option (List String)) : (Shape.optional texts).outline v = v :=
    Shape.outline_eq (.optional texts) rfl v
  calc Operation.shape.outline o.toValue
      = (someText.outline o.operationId, someText.outline o.summary,
          someText.outline o.description, texts.outline o.tags,
          (Shape.optional texts).outline o.consumes, (Shape.optional texts).outline o.produces,
          (Shape.list ParameterEntry.shape).outline (o.parameters.map ParameterEntry.toValue),
          .empty, (Shape.optional .flag).outline o.deprecated,
          (Shape.optional (.list .free)).outline o.security, ()) := rfl
    _ = o.outline.toValue := by
        rw [outline_text, outline_text, outline_text, outline_texts, hlists, hlists,
          outline_parameters, hflag, hsecurity]
        rfl

theorem PathItem.outline_toValue (p : PathItem) :
    PathItem.shape.outline p.toValue = p.outline.toValue := by
  have hoperation (o : Option Operation) :
      (Shape.optional Operation.shape).outline (o.map Operation.toValue) =
        (o.map Operation.outline).map Operation.toValue := by
    cases o with
    | none => rfl
    | some o => exact congrArg some o.outline_toValue
  calc PathItem.shape.outline p.toValue
      = ((Shape.list ParameterEntry.shape).outline (p.parameters.map ParameterEntry.toValue),
          (Shape.optional Operation.shape).outline (p.get.map Operation.toValue),
          (Shape.optional Operation.shape).outline (p.put.map Operation.toValue),
          (Shape.optional Operation.shape).outline (p.post.map Operation.toValue),
          (Shape.optional Operation.shape).outline (p.delete.map Operation.toValue),
          (Shape.optional Operation.shape).outline (p.patch.map Operation.toValue),
          (Shape.optional Operation.shape).outline (p.head.map Operation.toValue),
          (Shape.optional Operation.shape).outline (p.options.map Operation.toValue), ()) := rfl
    _ = p.outline.toValue := by
        rw [outline_parameters, hoperation, hoperation, hoperation, hoperation, hoperation,
          hoperation, hoperation]
        rfl

theorem Spec.outline_toValue (m : Spec) : shape.outline m.toValue = m.outline.toValue := by
  have hinfo : Info.shape.outline m.info.toValue = m.info.toValue :=
    Shape.outline_eq _ (by decide) _
  have htags : (Shape.list Tag.shape).outline (m.tags.map Tag.toValue) = m.tags.map Tag.toValue :=
    Shape.outline_eq _ (by decide) _
  have htable (t : Table String PathItem) :
      (Shape.table PathItem.shape).outline (t.mapValues PathItem.toValue) =
        (t.mapValues PathItem.outline).mapValues PathItem.toValue := by
    refine Table.ext ?_
    change (t.entries.map fun e => (e.1, e.2.toValue)).map
        (fun e => (e.1, PathItem.shape.outline e.2)) =
      (t.entries.map fun e => (e.1, e.2.outline)).map fun e => (e.1, e.2.toValue)
    rw [List.map_map, List.map_map]
    exact List.map_congr_left fun e _ => congrArg (Prod.mk e.1) e.2.outline_toValue
  have hpaths : (Shape.optional (.table PathItem.shape)).outline
      (m.paths.map (Table.mapValues PathItem.toValue)) =
        (m.paths.map (Table.mapValues PathItem.outline)).map
          (Table.mapValues PathItem.toValue) := by
    cases m.paths with
    | none => rfl
    | some t => exact congrArg some (htable t)
  calc shape.outline m.toValue
      = (m.version, Info.shape.outline m.info.toValue, someText.outline m.host,
          someText.outline m.basePath, texts.outline m.schemes, texts.outline m.consumes,
          texts.outline m.produces,
          (Shape.optional (.table PathItem.shape)).outline
            (m.paths.map (Table.mapValues PathItem.toValue)),
          .empty, (Shape.list Tag.shape).outline (m.tags.map Tag.toValue), ()) := rfl
    _ = m.outline.toValue := by
        rw [hinfo, outline_text, outline_text, outline_texts, outline_texts, outline_texts, hpaths,
          htags]
        rfl

theorem PathItem.operations_outline (p : PathItem) :
    p.outline.operations = p.operations.map fun x => (x.1, x.2.outline) := by
  have hoperation (m : Method) :
      p.outline.operation? m = (p.operation? m).map Operation.outline := by
    cases m <;> rfl
  unfold operations
  rw [List.map_filterMap]
  refine congrArg (fun f => Method.all.filterMap f) (funext fun m => ?_)
  rw [hoperation, Option.map_map, Option.map_map]
  rfl

end SwaggerRoutes.Swagger

namespace SwaggerRoutes.Route

open Json Swagger

/-! ## Routes -/

/-- The default strategy gives the operations of an outline the rules of the description. -/
theorem visitPath_outline (spec : Spec) (g : Progress Namer) (path : String) (item : PathItem) :
    g.visitPath spec.outline Namer.direct path item.outline =
      g.visitPath spec Namer.direct path item := by
  unfold Progress.visitPath
  rw [item.operations_outline, List.foldl_map]
  rfl

theorem visitPaths_outline (spec : Spec) (g : Progress Namer) (entries : List (String × PathItem)) :
    Progress.visitPaths spec.outline Namer.direct g (entries.map fun e => (e.1, e.2.outline)) =
      Progress.visitPaths spec Namer.direct g entries := by
  induction entries generalizing g with
  | nil => rfl
  | cons e entries ih =>
      obtain ⟨path, item⟩ := e
      rw [List.map_cons, Progress.visitPaths, Progress.visitPaths, visitPath_outline, ih]

/-- No route depends on definitions or responses. -/
theorem derive_outline (spec : Spec) (n : Namer) :
    derive spec.outline Namer.direct n = derive spec Namer.direct n := by
  unfold derive
  have hpaths : spec.outline.paths = spec.paths.map (Table.mapValues PathItem.outline) := rfl
  rw [hpaths]
  cases spec.paths with
  | none => rfl
  | some paths =>
      have hvisit := visitPaths_outline spec (.start n) paths.entries
      change Run.mk _ _ _ = Run.mk _ _ _
      change Progress.visitPaths spec.outline Namer.direct (.start n)
        (paths.mapValues PathItem.outline).entries = _ at hvisit
      rw [hvisit]

/-- A document in which no key is given twice and one that is made of it by reordering the members
of objects other than that of the paths, and by adding extensions where the format has them, give
the same routes, or neither is a description. -/
theorem derive_eq_of_rearranged {a b : String} {t u : Tree} (ha : Tree.ofText a = (t, true))
    (hb : Tree.ofText b = (u, true)) (hdistinct : t.IsDistinct)
    (h : Rearranged layout maxDepth .root t u) :
    ((∃ m, Spec.load .json a = .ok m) ↔ ∃ n, Spec.load .json b = .ok n) ∧
      ∀ m n, Spec.load .json a = .ok m → Spec.load .json b = .ok n →
        derive m Namer.direct .fresh = derive n Namer.direct .fresh := by
  have hoption : (value? Spec.shape maxDepth t).map Spec.shape.outline =
      (value? Spec.shape maxDepth u).map Spec.shape.outline :=
    Spec.shape.keepsOutline maxDepth Region.root t u suits_spec hdistinct h
  have hload {text : String} {tree : Tree} (htext : Tree.ofText text = (tree, true)) (m : Spec) :
      Spec.load .json text = .ok m ↔ value? Spec.shape maxDepth tree = some m.toValue := by
    rw [Spec.load_json_eq_ok_iff, decode_eq_ok_iff, htext]
    exact and_iff_left rfl
  have hexists {text : String} {tree : Tree} (htext : Tree.ofText text = (tree, true)) :
      (∃ m, Spec.load .json text = .ok m) ↔ (value? Spec.shape maxDepth tree).isSome = true := by
    rw [Option.isSome_iff_exists]
    constructor
    · rintro ⟨m, hm⟩
      exact ⟨m.toValue, (hload htext m).mp hm⟩
    · rintro ⟨v, hv⟩
      exact ⟨.ofValue v, (hload htext _).mpr (by rw [Spec.toValue_ofValue, hv])⟩
  constructor
  · have hsome := congrArg Option.isSome hoption
    rw [Option.isSome_map, Option.isSome_map] at hsome
    rw [hexists ha, hexists hb, hsome]
  · intro m n hm hn
    rw [(hload ha m).mp hm, (hload hb n).mp hn] at hoption
    have hvalue : Spec.shape.outline m.toValue = Spec.shape.outline n.toValue :=
      Option.some.inj hoption
    rw [Spec.outline_toValue, Spec.outline_toValue] at hvalue
    have houtline : m.outline = n.outline := by
      rw [← m.outline.ofValue_toValue, hvalue, n.outline.ofValue_toValue]
    rw [← derive_outline m, houtline, derive_outline n]

/-- A path with two methods. -/
def listed : Json.Value :=
  .object [("paths", .object [("/", .object [("put", .object []), ("get", .object [])])])]

/-- The same in another order, with an extension. -/
def relisted : Json.Value :=
  .object [("paths", .object [("/", .object [("get", .object []), ("x-a", .array []),
    ("put", .object [])])])]

theorem rearranged_listed : Rearranged layout maxDepth .root listed.tree relisted.tree := by
  have hpath : Rearranged layout 125 .path
      (.object [(some "put", .object [] true), (some "get", .object [] true)] true)
      (.object [(some "get", .object [] true), (some "x-a", .array [] true),
        (some "put", .object [] true)] true) := by
    refine .of_members _ (.cons ⟨rfl, .refl _ _ _⟩ (.cons ⟨rfl, .refl _ _ _⟩ .nil))
      ⟨[(some "x-a", .array [] true)], ?_, .inr rfl, ?_⟩
    · intro m hm
      obtain rfl := List.mem_singleton.mp hm
      exact ⟨⟨"x-a", rfl, by decide⟩, rfl⟩
    · rw [if_neg (by decide)]
      exact (List.perm_append_comm : ([_, _] ++ [_]).Perm _)
  have hsingle {room : Nat} {r : Region} {t t' : Tree} (key : String)
      (h : Rearranged layout (room - 1) (layout.member r (some key)) t t') :
      Rearranged layout room r (.object [(some key, t)] true) (.object [(some key, t')] true) :=
    .of_members [(some key, t')] (.cons ⟨rfl, h⟩ .nil) (.refl _ _ _)
  exact hsingle "paths" (hsingle "/" hpath)

theorem derive_eq_of_listed :
    ∃ m n, Spec.load .json listed.compactText = .ok m ∧
      Spec.load .json relisted.compactText = .ok n ∧
      derive m Namer.direct .fresh = derive n Namer.direct .fresh := by
  have hintegral {v : Json.Value} (h : v.numbers = []) : v.IsIntegral := by
    intro n hn
    rw [h] at hn
    exact absurd hn List.not_mem_nil
  have hdistinct : listed.tree.IsDistinct := by
    simp [listed, Value.tree, memberTrees, Tree.IsDistinct, AllMembersDistinct]
  obtain ⟨hload, hsame⟩ := derive_eq_of_rearranged (ofText_compactText (hintegral rfl))
    (ofText_compactText (hintegral rfl)) hdistinct rearranged_listed
  have hsome : (Spec.load .json listed.compactText).toOption.isSome = true := by decide +kernel
  obtain ⟨m, hm⟩ := Option.isSome_iff_exists.mp hsome
  have hm := eq_ok_iff.mpr hm
  obtain ⟨n, hn⟩ := hload.mp ⟨m, hm⟩
  exact ⟨m, n, hm, hn, hsame m n hm hn⟩

end SwaggerRoutes.Route
