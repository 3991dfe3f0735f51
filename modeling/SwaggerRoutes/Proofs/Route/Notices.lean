/-
  Proofs/Route/Notices.lean --- what a derivation reports, notice by notice.

  `IsLog` says what is reported of operations one after another, given those before them: that an id
  is repeated, where the operation goes, and which references are left out.  It knows the operations
  before and no set of ids, so it can be read off a description.  A derivation gives the log of the
  operations it reaches and nothing else (`isLog_walk`).  What it reports as repeated depends on
  the description alone, and makes up the difference between the ids and the distinct ids.
-/
import Mathlib.Data.Finset.Card
import SwaggerRoutes.Proofs.Route.Translation

set_option autoImplicit false

namespace SwaggerRoutes.Route

open Swagger

variable {σ : Type}

/-! ## Logs -/

/-- An operation has a non-empty id that an operation before it has as well. -/
def Repeats (before : List Site) (x : Site) (id : String) : Prop :=
  x.place.operation.operationId = some id ∧ id ≠ "" ∧
    ∃ y ∈ before, y.place.operation.operationId = some id

/-- What is reported of every operation: where it goes, and the references that its path and then
itself hold. -/
def visitLog (x : Site) (destination : String) : List Notice :=
  .routed x.place.method x.place.path destination ::
    (referenceTargets x.shared ++ referenceTargets x.place.operation.parameters).map
      .skippedReference

/-- The notices for an operation behind others. -/
inductive Reports (before : List Site) (x : Site) (destination : String) : List Notice → Prop where
  /-- No operation before has its id, or it has none. -/
  | first (h : ∀ id, ¬ Repeats before x id) : Reports before x destination (visitLog x destination)
  /-- It has the id of an operation before. -/
  | again {id : String} (h : Repeats before x id) :
    Reports before x destination (.repeatedId id :: visitLog x destination)

/-- The notices for operations with their destinations, one operation after another, behind
others. -/
inductive IsLog : List Site → List Site → List String → List Notice → Prop where
  | nil (before : List Site) : IsLog before [] [] []
  | cons {before xs : List Site} {x : Site} {destination : String} {destinations : List String}
      {first more : List Notice} (hfirst : Reports before x destination first)
      (hmore : IsLog (before ++ [x]) xs destinations more) :
    IsLog before (x :: xs) (destination :: destinations) (first ++ more)

theorem repeats_iff (before : List Site) (x : Site) (id : String) :
    Repeats before x id ↔ x.place.id? = some id ∧ ∃ y ∈ before, y.place.id? = some id := by
  simp only [Repeats, Place.id?, id?_eq_some_iff]
  constructor
  · rintro ⟨hx, hid, y, hy, hyid⟩
    exact ⟨⟨hx, hid⟩, y, hy, hyid, hid⟩
  · rintro ⟨⟨hx, hid⟩, y, hy, hyid, -⟩
    exact ⟨hx, hid, y, hy, hyid⟩

/-! ## The log of a walk -/

namespace Progress

variable (spec : Spec) (d : Strategy σ)

/-- The ids that a derivation has seen are those of certain operations. -/
def SeenAre (g : Progress σ) (before : List Site) : Prop :=
  ∀ id, id ∈ g.seen ↔ ∃ y ∈ before, y.place.id? = some id

theorem seenAre_visit {g : Progress σ} {before : List Site} (h : g.SeenAre before) (x : Site) :
    (g.visit spec d x.shared x.place).SeenAre (before ++ [x]) := by
  intro id
  have hvisit : id ∈ (g.visit spec d x.shared x.place).seen ↔
      id ∈ g.seen ∨ ∃ y ∈ [x], y.place.id? = some id := mem_seen_walk spec d g [x] id
  rw [hvisit, h id]
  simp only [List.mem_append, or_and_right, exists_or]

/-- One visit reports what is to be reported of its operation. -/
theorem reports_visit {g : Progress σ} {before : List Site} (h : g.SeenAre before) (x : Site)
    (destination : String) :
    Reports before x destination (visitNotices g.seen x.shared x.place destination) := by
  have hlog : visitNotices g.seen x.shared x.place destination =
      repeatedIds g.seen x.place.id? ++ visitLog x destination := by
    simp [visitNotices, visitLog, referenceTargets, List.filterMap_append]
  rw [hlog]
  cases hid : x.place.id? with
  | none =>
      refine .first fun id hrepeats => ?_
      rw [repeats_iff, hid] at hrepeats
      exact absurd hrepeats.1 (by simp)
  | some id =>
      by_cases hseen : id ∈ g.seen
      · rw [repeatedIds, if_pos hseen]
        exact .again ((repeats_iff before x id).mpr ⟨hid, (h id).mp hseen⟩)
      · rw [repeatedIds, if_neg hseen]
        refine .first fun other hrepeats => ?_
        obtain ⟨hother, hbefore⟩ := (repeats_iff before x other).mp hrepeats
        obtain rfl : id = other := Option.some.inj (hid.symm.trans hother)
        exact hseen ((h id).mpr hbefore)

/-- A walk adds to the notices the log of its operations. -/
theorem isLog_walk {g : Progress σ} {before : List Site} (h : g.SeenAre before) (xs : List Site) :
    ∃ log, (g.walk spec d xs).notices.toList = g.notices.toList ++ log ∧
      IsLog before xs (consult d g.state (xs.map Site.place)).1 log := by
  induction xs generalizing g before with
  | nil => exact ⟨[], (List.append_nil _).symm, .nil before⟩
  | cons x xs ih =>
      obtain ⟨more, hmore, hlog⟩ := ih (seenAre_visit spec d h x)
      refine ⟨_, ?_, .cons (reports_visit h x (d x.place g.state).1) hlog⟩
      rw [walk_cons, hmore, notices_visit, List.append_assoc]

end Progress

/-! ## Repeated ids -/

/-- The id that a notice says is repeated, if it says so. -/
def repeatedId? : Notice → Option String
  | .repeatedId id => some id
  | _ => none

/-- The ids that notices say are repeated. -/
def repeated (log : List Notice) : List String :=
  log.filterMap repeatedId?

/-- The ids of operations, those that have one. -/
def named (xs : List Site) : List String :=
  xs.filterMap fun x => x.place.id?

theorem mem_named {xs : List Site} {id : String} :
    id ∈ named xs ↔ ∃ x ∈ xs, x.place.id? = some id :=
  List.mem_filterMap

theorem repeated_append (log more : List Notice) :
    repeated (log ++ more) = repeated log ++ repeated more :=
  List.filterMap_append

theorem named_append (xs ys : List Site) : named (xs ++ ys) = named xs ++ named ys :=
  List.filterMap_append

theorem repeated_visitLog (x : Site) (destination : String) :
    repeated (visitLog x destination) = [] := by
  refine List.filterMap_eq_nil_iff.mpr fun n hn => ?_
  obtain rfl | hn := List.mem_cons.mp hn
  · rfl
  · obtain ⟨target, -, rfl⟩ := List.mem_map.mp hn
    rfl

/-- Which id an operation is reported to repeat does not depend on where it goes. -/
theorem repeated_of_reports {before : List Site} {x : Site} {destination : String}
    {log : List Notice} (h : Reports before x destination log) :
    repeated log = x.place.id?.toList.filter (· ∈ named before) := by
  cases h with
  | first hnone =>
      rw [repeated_visitLog]
      refine (List.filter_eq_nil_iff.mpr fun id hid hmem => ?_).symm
      refine hnone id ((repeats_iff before x id).mpr ⟨Option.mem_toList.mp hid, ?_⟩)
      exact mem_named.mp (of_decide_eq_true hmem)
  | @again id hrepeats =>
      obtain ⟨hid, hbefore⟩ := (repeats_iff before x id).mp hrepeats
      have hmem : id ∈ named before := mem_named.mpr hbefore
      have hlog := repeated_visitLog x destination
      rw [repeated] at hlog ⊢
      rw [List.filterMap_cons, repeatedId?, hlog, hid]
      simp [hmem]

/-- The ids that are reported do not depend on where the operations go. -/
theorem repeated_eq_of_isLog {before xs : List Site} {ts us : List String}
    {log other : List Notice} (h : IsLog before xs ts log) (h' : IsLog before xs us other) :
    repeated log = repeated other := by
  induction h generalizing us other with
  | nil before =>
      cases h'
      rfl
  | cons hfirst hmore ih =>
      cases h' with
      | cons hfirst' hmore' =>
          rw [repeated_append, repeated_append, repeated_of_reports hfirst,
            repeated_of_reports hfirst', ih hmore']

/-- An operation brings a new id or one that is reported. -/
theorem length_repeated_of_reports {before : List Site} {x : Site} {destination : String}
    {log : List Notice} (h : Reports before x destination log) :
    (repeated log).length + (named (before ++ [x])).toFinset.card =
      (named before).toFinset.card + (named [x]).length := by
  rw [repeated_of_reports h, named_append]
  cases hid : x.place.id? with
  | none => simp [named, hid]
  | some id =>
      have hx : named [x] = [id] := by simp [named, hid]
      rw [hx]
      by_cases hmem : id ∈ named before
      · simp [hmem, Nat.add_comm]
      · simp [hmem]

/-- The ids that are reported make up the difference between the ids and the distinct ids. -/
theorem length_repeated_of_isLog {before xs : List Site} {ts : List String} {log : List Notice}
    (h : IsLog before xs ts log) :
    (repeated log).length + (named (before ++ xs)).toFinset.card =
      (named before).toFinset.card + (named xs).length := by
  induction h with
  | nil before => simp [repeated, named]
  | @cons before xs x _ _ first more hfirst hmore ih =>
      have hstep := length_repeated_of_reports hfirst
      have hsplit : named (x :: xs) = named [x] ++ named xs := named_append [x] xs
      rw [List.append_assoc, List.singleton_append] at ih
      rw [repeated_append, hsplit, List.length_append, List.length_append]
      omega

/-! ## Whole descriptions -/

/-- Of the notices in a log those that an id is repeated are warnings, and no others. -/
theorem level_of_isLog {before xs : List Site} {ts : List String} {log : List Notice}
    (h : IsLog before xs ts log) {n : Notice} (hn : n ∈ log) :
    n.level = if (repeatedId? n).isSome then .warning else .debug := by
  have hvisit {x : Site} {destination : String} (hn : n ∈ visitLog x destination) :
      n.level = if (repeatedId? n).isSome then .warning else .debug := by
    obtain rfl | hn := List.mem_cons.mp hn
    · rfl
    · obtain ⟨target, -, rfl⟩ := List.mem_map.mp hn
      rfl
  induction h with
  | nil before => exact absurd hn List.not_mem_nil
  | cons hfirst hmore ih =>
      obtain hn | hn := List.mem_append.mp hn
      · cases hfirst with
        | first hnone => exact hvisit hn
        | again hrepeats =>
            obtain rfl | hn := List.mem_cons.mp hn
            · rfl
            · exact hvisit hn
      · exact ih hn

theorem isLog_reached (spec : Spec) (d : Strategy σ) (s : σ) :
    IsLog [] (reached spec) (consult d s ((reached spec).map Site.place)).1
      (derive spec d s).notices := by
  have hseen : (Progress.start s).SeenAre [] := fun id => by simp [Progress.start]
  obtain ⟨log, hlog, hwalk⟩ := Progress.isLog_walk spec d hseen (reached spec)
  rw [notices_derive, hlog]
  exact hwalk

/-- A derivation reports of the operations of the paths before the first blank one, in their order,
and of nothing else; only that an id is repeated is a warning.  Where it has rules these operations
are all that are declared, the rules tell what is reported of them, and the ids that are reported
as repeated are as many as there are more ids than distinct ids.  Which ids these are does not
depend on the strategy or on the state in which earlier derivations left it. -/
theorem isLog_derive (spec : Spec) (d : Strategy σ) (s : σ) :
    IsLog [] (reached spec) (consult d s ((reached spec).map Site.place)).1
      (derive spec d s).notices ∧
    (∀ n ∈ (derive spec d s).notices,
      n.level = if (repeatedId? n).isSome then .warning else .debug) ∧
    (∀ (m : Method) (path destination : String), (Notice.routed m path destination).message =
      m.name ++ " " ++ path ++ " -> " ++ destination) ∧
    (∀ rules, (derive spec d s).result = .ok rules →
      IsLog [] (declared spec) (rules.map Rule.destination) (derive spec d s).notices ∧
      List.Forall₂ (fun x r => r.method = x.place.method ∧ r.path = x.place.path) (declared spec)
        rules ∧
      (repeated (derive spec d s).notices).length + (named (declared spec)).toFinset.card =
        (named (declared spec)).length) ∧
    ∀ (τ : Type) (e : Strategy τ) (t : τ),
      repeated (derive spec e t).notices = repeated (derive spec d s).notices := by
  have hlog := isLog_reached spec d s
  refine ⟨hlog, fun n hn => level_of_isLog hlog hn, fun _ _ _ => rfl, fun rules hrules => ?_,
    fun τ e t => ?_⟩
  · obtain ⟨-, hblank, hdescribes, hdestinations⟩ := (result_eq_ok_iff spec d s rules).mp hrules
    rw [reached_eq_declared hblank, ← hdestinations] at hlog
    refine ⟨hlog, hdescribes.imp fun x r h => ⟨h.method, h.path⟩, ?_⟩
    have hlength := length_repeated_of_isLog hlog
    simpa [named] using hlength
  · exact repeated_eq_of_isLog (isLog_reached spec e t) hlog

/-- A namer that has given six numbers, an id on two operations of one path, and an empty id. -/
theorem isLog_derive_of_continued :
    let o (id : Option String) (own : List ParameterEntry) : Operation :=
      { Operation.blank with operationId := id, parameters := own }
    let item : PathItem := { PathItem.blank with
      parameters := [.reference "p"], get := some (o "a" []),
      put := some (o "a" [.reference "q"]) }
    let other : PathItem := { PathItem.blank with post := some (o "" []) }
    let spec : Spec :=
      { Spec.blank with paths := some ⟨[("/a", item), ("/b", other)], by simp⟩ }
    let run := derive spec Namer.direct ⟨6⟩
    ∃ rules, run.result = .ok rules ∧
      run.notices = [.routed .get "/a" "direct:a", .skippedReference "p", .repeatedId "a",
        .routed .put "/a" "direct:a", .skippedReference "p", .skippedReference "q",
        .routed .post "/b" "direct:rest7"] ∧
      IsLog [] (declared spec) (rules.map Rule.destination) run.notices ∧
      (repeated run.notices).length + (named (declared spec)).toFinset.card =
        (named (declared spec)).length := by
  intro o item other spec run
  obtain ⟨-, -, -, hrules, -⟩ := isLog_derive spec Namer.direct ⟨6⟩
  obtain ⟨hlog, -, hlength⟩ := hrules _ rfl
  exact ⟨_, rfl, by decide, hlog, hlength⟩

end SwaggerRoutes.Route
