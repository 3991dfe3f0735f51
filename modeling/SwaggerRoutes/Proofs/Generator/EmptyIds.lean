/-
  Proofs/Generator/EmptyIds.lean --- ids that are there, and say nothing.

  An operation whose id is the empty text is taken for one without an id wherever ids are looked at:
  for its rule, for its destination and for the notice of repeated ids.  So such ids may as well be
  left out of a description.  An id of white space is an id like any other, and leaving it out
  changes the rules, as `derive_ne_of_white_id` shows.
-/
import SwaggerRoutes.Proofs.Generator.Session
import SwaggerRoutes.Proofs.Route.Sharing

set_option autoImplicit false

namespace SwaggerRoutes.Swagger

/-! ## Changing operations where they stand -/

/-- The path with its operations changed by a function, method by method. -/
def PathItem.mapOperations (f : Method → Operation → Operation) (p : PathItem) : PathItem where
  parameters := p.parameters
  get := p.get.map (f .get)
  put := p.put.map (f .put)
  post := p.post.map (f .post)
  delete := p.delete.map (f .delete)
  patch := p.patch.map (f .patch)
  head := p.head.map (f .head)
  options := p.options.map (f .options)

/-- Paths with their operations changed by a function that sees where they stand. -/
def mapEntries (f : String → Method → Operation → Operation) (es : List (String × PathItem)) :
    List (String × PathItem) :=
  es.map fun e => (e.1, e.2.mapOperations (f e.1))

theorem map_fst_mapEntries (f : String → Method → Operation → Operation)
    (es : List (String × PathItem)) : (mapEntries f es).map Prod.fst = es.map Prod.fst := by
  unfold mapEntries
  rw [List.map_map]
  rfl

/-- The same for a table of paths. -/
def mapPaths (f : String → Method → Operation → Operation) (t : Table String PathItem) :
    Table String PathItem :=
  ⟨mapEntries f t.entries, by rw [map_fst_mapEntries]; exact t.distinct⟩

/-- The description with its operations changed by a function that sees where they stand. -/
def Spec.mapOperations (f : String → Method → Operation → Operation) (m : Spec) : Spec :=
  { m with paths := m.paths.map (mapPaths f) }

theorem Spec.paths_mapOperations (f : String → Method → Operation → Operation) (m : Spec) :
    (m.mapOperations f).paths = m.paths.map (mapPaths f) := rfl

/-- The operation without its id. -/
def Operation.withoutId (o : Operation) : Operation :=
  { o with operationId := none }

/-- The description without the ids of the operations at chosen places. -/
def Spec.withoutIds (m : Spec) (chosen : String → Method → Bool) : Spec :=
  m.mapOperations fun path method o => if chosen path method then o.withoutId else o

end SwaggerRoutes.Swagger

namespace SwaggerRoutes.Route

open Swagger

/-! ## The operations of a description that is changed -/

/-- The site with its operation changed. -/
def Site.mapOperation (f : String → Method → Operation → Operation) (x : Site) : Site :=
  ⟨⟨x.place.method, x.place.path, f x.place.path x.place.method x.place.operation⟩, x.shared⟩

theorem sitesOf_mapOperations (f : String → Method → Operation → Operation) (path : String)
    (item : PathItem) :
    sitesOf path (item.mapOperations (f path)) = (sitesOf path item).map (.mapOperation f) := by
  have hslots : slots (item.mapOperations (f path)) =
      (slots item).map fun slot => (slot.1, slot.2.map (f path slot.1)) := rfl
  unfold sitesOf
  rw [hslots, List.filterMap_map, List.map_filterMap]
  refine congrArg (fun g => (slots item).filterMap g) (funext fun slot => ?_)
  rw [Function.comp_apply, Option.map_map, Option.map_map]
  rfl

theorem sites_mapEntries (f : String → Method → Operation → Operation)
    (es : List (String × PathItem)) :
    sites (mapEntries f es) = (sites es).map (.mapOperation f) := by
  unfold sites mapEntries
  rw [List.flatMap_map, List.map_flatMap]
  exact congrArg es.flatMap (funext fun e => sitesOf_mapOperations f e.1 e.2)

theorem declared_mapOperations (f : String → Method → Operation → Operation) (spec : Spec) :
    declared (spec.mapOperations f) = (declared spec).map (.mapOperation f) := by
  unfold declared
  rw [Spec.paths_mapOperations]
  cases spec.paths with
  | none => rfl
  | some paths => exact sites_mapEntries f paths.entries

theorem exists_blank_mapEntries_iff (f : String → Method → Operation → Operation)
    (es : List (String × PathItem)) :
    (∃ e ∈ mapEntries f es, Text.trim e.1 = "") ↔ ∃ e ∈ es, Text.trim e.1 = "" := by
  simp [mapEntries]

theorem mem_declared_of_mem_reached {spec : Spec} {x : Site} (h : x ∈ reached spec) :
    x ∈ declared spec := by
  unfold reached at h
  unfold declared
  cases hpaths : spec.paths with
  | none =>
      rw [hpaths] at h
      exact h
  | some paths =>
      rw [hpaths] at h
      obtain ⟨e, he, hx⟩ := List.mem_flatMap.mp h
      exact List.mem_flatMap.mpr ⟨e, (List.takeWhile_sublist _).subset he, hx⟩

variable {σ : Type}

theorem walk_map {spec spec' : Spec} {d : Strategy σ} {f : Site → Site} {xs : List Site}
    (h : ∀ x ∈ xs, ∀ g : Progress σ, g.visit spec' d (f x).shared (f x).place =
      g.visit spec d x.shared x.place) (g : Progress σ) :
    g.walk spec' d (xs.map f) = g.walk spec d xs := by
  induction xs generalizing g with
  | nil => rfl
  | cons x xs ih =>
      rw [List.map_cons, Progress.walk_cons, Progress.walk_cons, h x List.mem_cons_self,
        ih fun y hy => h y (List.mem_cons_of_mem x hy)]

/-- A change of operations that no visit notices leaves all of a derivation as it is. -/
theorem derive_mapOperations {spec : Spec} {d : Strategy σ}
    {f : String → Method → Operation → Operation}
    (h : ∀ x ∈ declared spec, ∀ g : Progress σ,
      g.visit (spec.mapOperations f) d x.shared (x.mapOperation f).place =
        g.visit spec d x.shared x.place) (s : σ) :
    derive (spec.mapOperations f) d s = derive spec d s := by
  have hreached : ∀ x ∈ reached spec, ∀ g : Progress σ,
      g.visit (spec.mapOperations f) d x.shared (x.mapOperation f).place =
        g.visit spec d x.shared x.place := fun x hx => h x (mem_declared_of_mem_reached hx)
  unfold reached at hreached
  unfold derive
  rw [Spec.paths_mapOperations]
  cases hpaths : spec.paths with
  | none => rfl
  | some paths =>
      rw [hpaths] at hreached
      have hbefore : (mapEntries f paths.entries).takeWhile (fun e => Text.trim e.1 ≠ "") =
          mapEntries f (paths.entries.takeWhile fun e => Text.trim e.1 ≠ "") := by
        unfold mapEntries
        rw [List.takeWhile_map]
        rfl
      have hentries : (mapPaths f paths).entries = mapEntries f paths.entries := rfl
      simp only [Option.map_some, Progress.visitPaths_eq, hentries, exists_blank_mapEntries_iff,
        hbefore, sites_mapEntries]
      rw [walk_map hreached]

/-! ## Empty ids -/

/-- Where an operation is chosen its id is empty, if it has one. -/
def OnlyEmptyIds (spec : Spec) (chosen : String → Method → Bool) : Prop :=
  ∀ x ∈ declared spec, chosen x.place.path x.place.method = true →
    ∀ i, x.place.operation.operationId = some i → i = ""

theorem id?_eq_none_iff (o : Operation) :
    o.id? = none ↔ ∀ i, o.operationId = some i → i = "" := by
  simp [Operation.id?, Option.filter_eq_none_iff]

/-- No visit notices that an empty id is left out. -/
theorem visit_withoutId (spec : Spec) (chosen : String → Method → Bool) (shared : List ParameterEntry)
    (g : Progress Namer) (method : Method) (path : String) {o : Operation} (h : o.id? = none) :
    g.visit (spec.withoutIds chosen) Namer.direct shared ⟨method, path, o.withoutId⟩ =
      g.visit spec Namer.direct shared ⟨method, path, o⟩ := by
  have hplace : (Place.mk method path o).id? = none := h
  have hbare : (Place.mk method path o.withoutId).id? = none := rfl
  have hdirect (n : Namer) : Namer.direct ⟨method, path, o.withoutId⟩ n =
      Namer.direct ⟨method, path, o⟩ n := by
    rw [Namer.direct_of_no_id n hplace, Namer.direct_of_no_id n hbare]
  have hrule (t : String) :
      Rule.ofPlace (spec.withoutIds chosen) shared ⟨method, path, o.withoutId⟩ t =
        Rule.ofPlace spec shared ⟨method, path, o⟩ t := by
    unfold Rule.ofPlace
    rw [hplace, hbare]
    rfl
  unfold Progress.visit Progress.visitNotices
  rw [hdirect, hplace, hbare]
  simp only [hrule]
  rfl

theorem derive_withoutIds {spec : Spec} {chosen : String → Method → Bool}
    (h : OnlyEmptyIds spec chosen) (n : Namer) :
    derive (spec.withoutIds chosen) Namer.direct n = derive spec Namer.direct n := by
  refine derive_mapOperations (fun x hx g => ?_) n
  unfold Site.mapOperation
  dsimp only
  split
  · next hchosen =>
    exact visit_withoutId spec chosen x.shared g _ _ ((id?_eq_none_iff _).mpr (h x hx hchosen))
  · rfl

theorem map_id_of_derive {spec : Spec} {d : Strategy σ} {s : σ} {rules : List Rule}
    (h : (derive spec d s).result = .ok rules) : rules.map Rule.id = ids spec := by
  obtain ⟨hpaths, hblank, -⟩ := (result_eq_ok_iff spec d s rules).mp h
  rw [result_derive_of_paths hpaths hblank] at h
  rw [← Except.ok.inj h, ids]
  exact map_id_rulesFor spec (by rw [length_consult, List.length_map])

/-- The rules show which ids are left out, unless these are empty. -/
theorem onlyEmptyIds_of_derive {spec : Spec} {chosen : String → Method → Bool}
    (hpaths : spec.paths ≠ none) (hblank : ¬ HasBlankPath spec) {d : Strategy σ} {s : σ}
    (h : (derive (spec.withoutIds chosen) d s).result = (derive spec d s).result) :
    OnlyEmptyIds spec chosen := by
  have hrules := result_derive_of_paths hpaths hblank d s
  have hids := (map_id_of_derive (h.trans hrules)).symm.trans (map_id_of_derive hrules)
  rw [ids, Spec.withoutIds, declared_mapOperations, List.map_map] at hids
  intro x hx hchosen
  have hid : (x.mapOperation _).place.id? = x.place.id? := List.map_inj_left.mp hids x hx
  unfold Site.mapOperation at hid
  dsimp only at hid
  rw [if_pos hchosen] at hid
  exact (id?_eq_none_iff _).mp hid.symm

end SwaggerRoutes.Route

namespace SwaggerRoutes.Generator

open Route Source Swagger

variable {σ : Type}

/-! ## Sources -/

/-- The generator for another description, with all else as it is. -/
def withSpec (g : Generator σ) (spec : Spec) : Generator σ :=
  { g with spec := spec }

/-- A source depends on the rules of its description, on the names made of it, and on its title and
its base path. -/
theorem render_withSpec {g : Generator σ} {spec : Spec}
    (hpackage : g.packageNameOf spec = g.packageName) (hclass : g.classNameOf spec = g.className)
    (htitle : spec.title? = g.spec.title?) (hbase : spec.basePath = g.spec.basePath)
    (hderive : Route.derive spec g.strategy g.state = Route.derive g.spec g.strategy g.state) :
    (g.withSpec spec).render = g.render := by
  have hlayout : (g.withSpec spec).layout = g.layout := by
    have hp : (g.withSpec spec).packageName = g.packageName := hpackage
    have hc : (g.withSpec spec).className = g.className := hclass
    unfold layout
    rw [hp, hc]
    unfold withSpec
    dsimp only
    rw [htitle, hbase]
  have hsource : (g.withSpec spec).source = g.source := by
    funext rules
    unfold source
    rw [hlayout]
  have hrules : (g.withSpec spec).derive = g.derive := by
    unfold Generator.derive
    exact congrArg (Run.mapError GenerateFault.spec) hderive
  unfold render
  rw [hsource, hrules]

/-- Leaving out ids that are empty changes nothing, whichever operations these belong to: not the
rules nor the notices that a derivation gives, not the count in which it leaves the namer, and not
the source, as long as it is to have the same names.  In turn, if the rules stay as they are, then
all ids that were left out are empty: one of white space counts like any other. -/
theorem derive_withoutIds_iff (spec : Spec) (chosen : String → Method → Bool) (n : Namer) :
    let bare := spec.withoutIds chosen
    (OnlyEmptyIds spec chosen →
      Route.derive bare Namer.direct n = Route.derive spec Namer.direct n ∧
      ((ofSpec bare).withState n).render = ((ofSpec spec).withState n).render ∧
      ∀ g : Generator Namer, g.spec = spec → g.strategy = Namer.direct →
        g.packageNameOf bare = g.packageName → g.classNameOf bare = g.className →
        (g.withSpec bare).render = g.render) ∧
    (spec.paths ≠ none → ¬ HasBlankPath spec →
      (Route.derive bare Namer.direct n).result = (Route.derive spec Namer.direct n).result →
      OnlyEmptyIds spec chosen) := by
  intro bare
  refine ⟨fun h => ?_, fun hpaths hblank hresult => onlyEmptyIds_of_derive hpaths hblank hresult⟩
  have hrender : ∀ g : Generator Namer, g.spec = spec → g.strategy = Namer.direct →
      g.packageNameOf bare = g.packageName → g.classNameOf bare = g.className →
      (g.withSpec bare).render = g.render := by
    rintro g rfl hstrategy hpackage hclass
    refine render_withSpec hpackage hclass rfl rfl ?_
    rw [hstrategy]
    exact derive_withoutIds h g.state
  exact ⟨derive_withoutIds h n, hrender ((ofSpec spec).withState n) rfl rfl rfl rfl, hrender⟩

/-- The first of two operations has an id that is empty. -/
theorem derive_withoutIds_iff_of_empty :
    let spec := twoPaths (some "") none
    let bare := spec.withoutIds fun path _ => path == "/a"
    OnlyEmptyIds spec (fun path _ => path == "/a") ∧
      Route.derive bare Namer.direct .fresh = Route.derive spec Namer.direct .fresh ∧
      (ofSpec bare).render = (ofSpec spec).render := by
  intro spec bare
  have hempty : OnlyEmptyIds spec fun path _ => path == "/a" := by
    have hall : ∀ x ∈ declared spec, x.place.id? = none := by decide
    exact fun x hx _ => (id?_eq_none_iff _).mp (hall x hx)
  obtain ⟨hderive, hrender, -⟩ :=
    (derive_withoutIds_iff spec (fun path _ => path == "/a") .fresh).1 hempty
  exact ⟨hempty, hderive, hrender⟩

/-- The first of two operations has an id of white space.  It counts, and without it the second one
is numbered differently. -/
theorem derive_ne_of_white_id :
    let spec := twoPaths (some " ") none
    let bare := spec.withoutIds fun path _ => path == "/a"
    (∀ x ∈ declared spec, x.place.path = "/a" →
      ∃ i, x.place.operation.operationId = some i ∧ Text.isBlankText i = true) ∧
    (∃ r t, (Route.derive spec Namer.direct .fresh).result = .ok [r, t] ∧ r.id = some " " ∧
      r.destination = "direct: " ∧ t.destination = "direct:rest1") ∧
    ∃ r t, (Route.derive bare Namer.direct .fresh).result = .ok [r, t] ∧ r.id = none ∧
      r.destination = "direct:rest1" ∧ t.destination = "direct:rest2" := by
  intro spec bare
  refine ⟨fun x hx hpath => ?_, ⟨_, _, rfl, rfl, by decide, by decide⟩,
    ⟨_, _, rfl, rfl, by decide, by decide⟩⟩
  have hall : ∀ x ∈ declared spec,
      x.place.path = "/a" → x.place.operation.operationId = some " " := by decide
  exact ⟨" ", hall x hx hpath, by decide⟩

end SwaggerRoutes.Generator
