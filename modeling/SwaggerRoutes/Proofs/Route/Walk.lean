/-
  Proofs/Route/Walk.lean --- what a derivation does, operation by operation.

  A derivation is a walk: it visits the declared operations one after another, up to the first blank
  path.  What it leaves behind is said field by field, each for any walk that has already begun: the
  rules by themselves, the state by `consult`, which calls the strategy once for each operation.
-/
import Mathlib.Data.List.TakeWhile
import SwaggerRoutes.Route.Derivation

set_option autoImplicit false

namespace SwaggerRoutes.Route

open Swagger

/-! ## Declared operations -/

/-- A declared operation: where it stands, and the parameters that its path shares. -/
structure Site where
  place : Place
  shared : List ParameterEntry

/-- What a path declares for each method, in the order in which operations are listed. -/
def slots (item : PathItem) : List (Method × Option Operation) :=
  [(.get, item.get), (.put, item.put), (.post, item.post), (.delete, item.delete),
    (.patch, item.patch), (.head, item.head), (.options, item.options)]

/-- The operations that a path declares. -/
def sitesOf (path : String) (item : PathItem) : List Site :=
  (slots item).filterMap fun slot =>
    slot.2.map fun o => ⟨⟨slot.1, path, o⟩, item.parameters⟩

/-- The operations that paths declare. -/
def sites (entries : List (String × PathItem)) : List Site :=
  entries.flatMap fun e => sitesOf e.1 e.2

/-- The operations that a description declares. -/
def declared (spec : Spec) : List Site :=
  match spec.paths with
  | none => []
  | some paths => sites paths.entries

/-- Some path of the description has nothing left when the white space around it is removed. -/
def HasBlankPath (spec : Spec) : Prop :=
  ∃ paths, spec.paths = some paths ∧ ∃ e ∈ paths.entries, Text.trim e.1 = ""

theorem operations_eq (item : PathItem) :
    item.operations = (slots item).filterMap fun slot => slot.2.map (slot.1, ·) := rfl

theorem sitesOf_eq (path : String) (item : PathItem) :
    sitesOf path item =
      item.operations.map fun x => ⟨⟨x.1, path, x.2⟩, item.parameters⟩ := by
  rw [operations_eq, List.map_filterMap, sitesOf]
  congr 1
  funext slot
  rw [Option.map_map]
  rfl

theorem trim_eq_empty_iff (s : String) : Text.trim s = "" ↔ Text.isBlankText s = true := by
  rw [Text.isBlankText_iff, ← String.toList_inj, Text.toList_trim, Text.trimChars]
  constructor
  · intro h
    have hinner : s.toList.dropWhile Text.isBlank = [] := by
      have hall := List.dropWhile_eq_nil_iff.mp (List.reverse_eq_nil_iff.mp h)
      cases hdrop : s.toList.dropWhile Text.isBlank with
      | nil => rfl
      | cons c cs =>
          have hblank : Text.isBlank c = true := hall c (by simp [hdrop])
          have hne : s.toList.dropWhile Text.isBlank ≠ [] := by simp [hdrop]
          have hnot := List.head_dropWhile_not Text.isBlank hne
          simp [hdrop, hblank] at hnot
    exact List.dropWhile_eq_nil_iff.mp hinner
  · intro h
    rw [List.dropWhile_eq_nil_iff.mpr h]
    rfl

/-! ## Destinations -/

variable {σ : Type}

/-- The destinations for places, one call of the strategy for each of them in order, and the state
in which the last call leaves the strategy. -/
def consult (d : Strategy σ) : σ → List Place → List String × σ
  | s, [] => ([], s)
  | s, p :: ps =>
    ((d p s).1 :: (consult d (d p s).2 ps).1, (consult d (d p s).2 ps).2)

theorem length_consult (d : Strategy σ) (s : σ) (ps : List Place) :
    (consult d s ps).1.length = ps.length := by
  induction ps generalizing s with
  | nil => rfl
  | cons p ps ih => exact congrArg (· + 1) (ih (d p s).2)

/-- The rules for operations with their destinations. -/
def rulesFor (spec : Spec) (sites : List Site) (destinations : List String) : List Rule :=
  List.zipWith (fun x t => Rule.ofPlace spec x.shared x.place t) sites destinations

/-! ## Walks -/

namespace Progress

variable (spec : Spec) (d : Strategy σ)

/-- The derivation after further operations. -/
def walk (g : Progress σ) (sites : List Site) : Progress σ :=
  sites.foldl (fun g x => g.visit spec d x.shared x.place) g

theorem walk_cons (g : Progress σ) (x : Site) (xs : List Site) :
    g.walk spec d (x :: xs) = (g.visit spec d x.shared x.place).walk spec d xs := rfl

theorem walk_append (g : Progress σ) (xs ys : List Site) :
    g.walk spec d (xs ++ ys) = (g.walk spec d xs).walk spec d ys :=
  List.foldl_append

theorem visitPath_eq (g : Progress σ) (path : String) (item : PathItem) :
    g.visitPath spec d path item = g.walk spec d (sitesOf path item) := by
  rw [sitesOf_eq, walk, List.foldl_map]
  rfl

/-- The operations of all paths before the first blank one are visited. -/
theorem visitPaths_eq (g : Progress σ) (entries : List (String × PathItem)) :
    visitPaths spec d g entries =
      (if ∃ e ∈ entries, Text.trim e.1 = "" then .error .blankPath else .ok (),
        g.walk spec d (sites (entries.takeWhile fun e => Text.trim e.1 ≠ ""))) := by
  induction entries generalizing g with
  | nil => rfl
  | cons e rest ih =>
      obtain ⟨path, item⟩ := e
      rw [visitPaths]
      by_cases hblank : Text.trim path = ""
      · rw [if_pos ((trim_eq_empty_iff path).mp hblank)]
        simp [hblank, sites, walk]
      · have hsome : (∃ e ∈ (path, item) :: rest, Text.trim e.1 = "") ↔
            ∃ e ∈ rest, Text.trim e.1 = "" := by simp [hblank]
        rw [if_neg fun h => hblank ((trim_eq_empty_iff path).mpr h), ih, visitPath_eq,
          ← walk_append, if_congr hsome rfl rfl]
        simp [hblank, sites]

theorem rules_walk (g : Progress σ) (xs : List Site) :
    (g.walk spec d xs).rules.toList =
      g.rules.toList ++ rulesFor spec xs (consult d g.state (xs.map Site.place)).1 := by
  induction xs generalizing g with
  | nil => simp [walk, rulesFor]
  | cons x xs ih =>
      have hvisit : (g.visit spec d x.shared x.place).rules.toList =
          g.rules.toList ++ [Rule.ofPlace spec x.shared x.place (d x.place g.state).1] :=
        Array.toList_push
      rw [walk_cons, ih, hvisit, List.append_assoc]
      rfl

theorem state_walk (g : Progress σ) (xs : List Site) :
    (g.walk spec d xs).state = (consult d g.state (xs.map Site.place)).2 := by
  induction xs generalizing g with
  | nil => rfl
  | cons x xs ih => exact ih (g.visit spec d x.shared x.place)

theorem mem_seen_walk (g : Progress σ) (xs : List Site) (i : String) :
    i ∈ (g.walk spec d xs).seen ↔ i ∈ g.seen ∨ ∃ x ∈ xs, x.place.id? = some i := by
  induction xs generalizing g with
  | nil => simp [walk]
  | cons x xs ih =>
      have hvisit : i ∈ (g.visit spec d x.shared x.place).seen ↔
          x.place.id? = some i ∨ i ∈ g.seen := by
        rw [← Option.mem_toList]
        exact List.mem_append
      have hcons : (∃ y ∈ x :: xs, y.place.id? = some i) ↔
          x.place.id? = some i ∨ ∃ y ∈ xs, y.place.id? = some i := by simp
      rw [walk_cons, ih, hvisit, hcons, or_assoc]
      exact or_left_comm

theorem notices_visit (g : Progress σ) (x : Site) :
    (g.visit spec d x.shared x.place).notices.toList =
      g.notices.toList ++
        visitNotices g.seen x.shared x.place (d x.place g.state).1 :=
  Array.toList_appendList

/-- Notices that have been given stay. -/
theorem mem_notices_walk (g : Progress σ) (xs : List Site) {n : Notice}
    (h : n ∈ g.notices.toList) : n ∈ (g.walk spec d xs).notices.toList := by
  induction xs generalizing g with
  | nil => exact h
  | cons x xs ih =>
      refine ih (g.visit spec d x.shared x.place) ?_
      rw [notices_visit]
      exact List.mem_append_left _ h

/-- Of two operations with one id the later one is given the notice that it repeats the id. -/
theorem repeatedId_mem_notices_walk (g : Progress σ) {xs : List Site} {i j : Nat} (hij : i < j)
    (hj : j < xs.length) {a : String} (hi : xs[i].place.id? = some a)
    (ha : xs[j].place.id? = some a) :
    .repeatedId a ∈ (g.walk spec d xs).notices.toList := by
  have hsplit : xs = xs.take j ++ xs[j] :: xs.drop (j + 1) := by
    rw [List.getElem_cons_drop, List.take_append_drop]
  have hmem : xs[i] ∈ xs.take j := List.mem_take_iff_getElem.mpr ⟨i, by omega, rfl⟩
  have hseen : a ∈ (g.walk spec d (xs.take j)).seen :=
    (mem_seen_walk spec d g (xs.take j) a).mpr (.inr ⟨xs[i], hmem, hi⟩)
  rw [hsplit, walk_append, walk_cons]
  refine mem_notices_walk spec d _ _ ?_
  rw [notices_visit]
  simp [visitNotices, repeatedIds, ha, hseen]

end Progress

/-! ## Whole descriptions -/

/-- The operations of the paths before the first blank one. -/
def reached (spec : Spec) : List Site :=
  match spec.paths with
  | none => []
  | some paths => sites (paths.entries.takeWhile fun e => Text.trim e.1 ≠ "")

theorem hasBlankPath_iff {spec : Spec} {paths : Table String PathItem}
    (h : spec.paths = some paths) :
    HasBlankPath spec ↔ ∃ e ∈ paths.entries, Text.trim e.1 = "" := by
  simp [HasBlankPath, h]

theorem reached_eq_declared {spec : Spec} (h : ¬ HasBlankPath spec) :
    reached spec = declared spec := by
  unfold reached declared
  cases hpaths : spec.paths with
  | none => rfl
  | some paths =>
      rw [hasBlankPath_iff hpaths] at h
      have hall : ∀ e ∈ paths.entries, decide (Text.trim e.1 ≠ "") = true := fun e he =>
        decide_eq_true fun hblank => h ⟨e, he, hblank⟩
      exact congrArg sites (List.takeWhile_eq_self_iff.mpr hall)

theorem result_derive_of_no_paths {spec : Spec} (h : spec.paths = none) (d : Strategy σ) (s : σ) :
    (derive spec d s).result = .error .noPaths := by
  simp [derive, h]

theorem result_derive_of_blank {spec : Spec} (h : HasBlankPath spec) (d : Strategy σ) (s : σ) :
    (derive spec d s).result = .error .blankPath := by
  obtain ⟨paths, hpaths, hsome⟩ := h
  simp only [derive, hpaths, Progress.visitPaths_eq, if_pos hsome]
  rfl

theorem result_derive_of_paths {spec : Spec} (h : spec.paths ≠ none) (h' : ¬ HasBlankPath spec)
    (d : Strategy σ) (s : σ) :
    (derive spec d s).result =
      .ok (rulesFor spec (declared spec) (consult d s ((declared spec).map Site.place)).1) := by
  obtain ⟨paths, hpaths⟩ := Option.ne_none_iff_exists'.mp h
  rw [← reached_eq_declared h']
  rw [hasBlankPath_iff hpaths] at h'
  simp only [derive, reached, hpaths, Progress.visitPaths_eq, if_neg h']
  exact congrArg Except.ok (Progress.rules_walk spec d (.start s) _)

/-- Also where there are no rules, the strategy has been called once for each operation that was
visited. -/
theorem state_derive (spec : Spec) (d : Strategy σ) (s : σ) :
    (derive spec d s).state = (consult d s ((reached spec).map Site.place)).2 := by
  unfold derive reached
  cases spec.paths with
  | none => rfl
  | some paths =>
      simp only [Progress.visitPaths_eq]
      exact Progress.state_walk spec d (.start s) _

theorem notices_derive (spec : Spec) (d : Strategy σ) (s : σ) :
    (derive spec d s).notices =
      ((Progress.start s).walk spec d (reached spec)).notices.toList := by
  unfold derive reached
  cases spec.paths with
  | none => rfl
  | some paths =>
      simp only [Progress.visitPaths_eq]

end SwaggerRoutes.Route
