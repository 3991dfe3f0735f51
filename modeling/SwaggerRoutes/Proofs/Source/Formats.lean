/-
  Proofs/Source/Formats.lean --- how often a collection format without a constant is reported.

  `ReportsOnce` says that notices go through parameters one by one: a notice for each that asks for
  a format without a constant, and none for any other.  Making a source goes through all parameters
  so, and then once more through those in front of the first whose format has a constant.  So what
  is reported of a parameter depends on the parameters before it, and the notices are one for each
  only where that second part holds nothing to report.
-/
import Mathlib.Data.List.TakeWhile
import SwaggerRoutes.Proofs.Source.Tokens
import SwaggerRoutes.Source.Builder

set_option autoImplicit false

namespace SwaggerRoutes.Source

open Route

/-! ## Reports -/

/-- A parameter asks for a format that has no constant. -/
def AsksUnknown (p : Param) (format : String) : Prop :=
  p.collectionFormat = some format ∧ format ∉ formatNames

/-- A parameter asks for a format that has one. -/
def AsksKnown (p : Param) : Prop :=
  ∃ format ∈ formatNames, p.collectionFormat = some format

/-- The notices report each parameter that asks for a format without a constant, in order, each of
them once, and no other parameter. -/
inductive ReportsOnce : List Param → List Notice → Prop where
  | nil : ReportsOnce [] []
  | unknown {p : Param} {format : String} {ps : List Param} {ns : List Notice}
      (h : AsksUnknown p format) (hmore : ReportsOnce ps ns) :
    ReportsOnce (p :: ps) (.unknownCollectionFormat p.name format :: ns)
  | other {p : Param} {ps : List Param} {ns : List Notice}
      (h : ∀ format, ¬ AsksUnknown p format) (hmore : ReportsOnce ps ns) :
    ReportsOnce (p :: ps) ns

theorem isNone_ofParam?_iff (p : Param) :
    (CollectionFormat.ofParam? p).isNone = true ↔ ¬ AsksKnown p := by
  unfold CollectionFormat.ofParam? AsksKnown
  cases p.collectionFormat with
  | none => simp
  | some s => simp [ofName?_eq_none_iff]

theorem unknownFormat?_eq_some_iff (p : Param) (n : Notice) :
    unknownFormat? p = some n ↔
      ∃ format, AsksUnknown p format ∧ n = .unknownCollectionFormat p.name format := by
  unfold unknownFormat? AsksUnknown
  cases p.collectionFormat with
  | none => simp
  | some s =>
      dsimp only
      cases hs : CollectionFormat.ofName? s with
      | none =>
          constructor
          · intro h
            exact ⟨s, ⟨rfl, (ofName?_eq_none_iff s).mp hs⟩, (Option.some.inj h).symm⟩
          · rintro ⟨format, ⟨hformat, -⟩, rfl⟩
            obtain rfl := Option.some.inj hformat
            rfl
      | some f => simp [mem_formatNames_of_ofName? hs]

theorem unknownFormat?_eq_none_iff (p : Param) :
    unknownFormat? p = none ↔ ∀ format, ¬ AsksUnknown p format := by
  rw [Option.eq_none_iff_forall_ne_some]
  constructor
  · intro h format hasks
    exact h _ ((unknownFormat?_eq_some_iff p _).mpr ⟨format, hasks, rfl⟩)
  · intro h n hn
    obtain ⟨format, hasks, -⟩ := (unknownFormat?_eq_some_iff p n).mp hn
    exact h format hasks

/-- There is only one way to report each parameter once. -/
theorem reportsOnce_iff (ps : List Param) (ns : List Notice) :
    ReportsOnce ps ns ↔ ns = ps.filterMap unknownFormat? := by
  constructor
  · intro h
    induction h with
    | nil => rfl
    | unknown h hmore ih =>
        rw [List.filterMap_cons_some ((unknownFormat?_eq_some_iff _ _).mpr ⟨_, h, rfl⟩), ih]
    | other h hmore ih =>
        rw [List.filterMap_cons_none ((unknownFormat?_eq_none_iff _).mpr h), ih]
  · rintro rfl
    induction ps with
    | nil => exact .nil
    | cons p ps ih =>
        cases hp : unknownFormat? p with
        | none =>
            rw [List.filterMap_cons_none hp]
            exact .other ((unknownFormat?_eq_none_iff p).mp hp) ih
        | some n =>
            rw [List.filterMap_cons_some hp]
            obtain ⟨format, h, rfl⟩ := (unknownFormat?_eq_some_iff p n).mp hp
            exact .unknown h ih

/-! ## Sources -/

/-- The parameters in front of the first one whose format has a constant. -/
def beforeKnown (ps : List Param) : List Param :=
  ps.takeWhile fun p => (CollectionFormat.ofParam? p).isNone

theorem exists_eq_beforeKnown_append (ps : List Param) :
    ∃ rest, ps = beforeKnown ps ++ rest ∧ (∀ p ∈ beforeKnown ps, ¬ AsksKnown p) ∧
      ∀ p, rest.head? = some p → AsksKnown p := by
  refine ⟨_, List.takeWhile_append_dropWhile.symm, fun p hp => ?_, fun p hp => ?_⟩
  · have hnone := List.mem_takeWhile_imp (p := fun q => (CollectionFormat.ofParam? q).isNone) hp
    exact (isNone_ofParam?_iff p).mp hnone
  · have hsome := List.head?_dropWhile_not (fun p => (CollectionFormat.ofParam? p).isNone) ps
    rw [hp] at hsome
    by_contra hknown
    exact absurd hsome (by simp [(isNone_ofParam?_iff p).mpr hknown])

/-- The notices of two passes, the second of which goes through some of the parameters again, report
each parameter once if the second pass has nothing to report. -/
theorem reportsOnce_append_iff (ps qs : List Param) :
    ReportsOnce ps (ps.filterMap unknownFormat? ++ qs.filterMap unknownFormat?) ↔
      ∀ q ∈ qs, ∀ format, ¬ AsksUnknown q format := by
  rw [reportsOnce_iff, List.append_right_eq_self, List.filterMap_eq_nil_iff]
  simp only [unknownFormat?_eq_none_iff]

/-- Making a source reports each parameter with a format without a constant once, and then once more
each one in front of the first parameter whose format has a constant.  So the notices report each
of them once exactly if there is none in front of that one. -/
theorem emitNotices_eq_append (rules : List Rule) :
    ∃ before rest first again,
      rules.flatMap Rule.params = before ++ rest ∧ (∀ p ∈ before, ¬ AsksKnown p) ∧
      (∀ p, rest.head? = some p → AsksKnown p) ∧
      emitNotices rules = first ++ again ∧ ReportsOnce (rules.flatMap Rule.params) first ∧
      ReportsOnce before again ∧
      (ReportsOnce (rules.flatMap Rule.params) (emitNotices rules) ↔
        ∀ p ∈ before, ∀ format, ¬ AsksUnknown p format) := by
  obtain ⟨rest, hrest, hbefore, hhead⟩ := exists_eq_beforeKnown_append (rules.flatMap Rule.params)
  exact ⟨_, rest, _, _, hrest, hbefore, hhead, rfl, (reportsOnce_iff _ _).mpr rfl,
    (reportsOnce_iff _ _).mpr rfl, reportsOnce_append_iff _ _⟩

/-- One parameter with a format that has no constant, and two notices. -/
theorem not_reportsOnce_of_unknown :
    let p : Param := { (default : Param) with name := "q", collectionFormat := some "bogus" }
    let r : Rule := { (default : Rule) with path := "/a", params := [p] }
    emitNotices [r] =
        [.unknownCollectionFormat "q" "bogus", .unknownCollectionFormat "q" "bogus"] ∧
      ¬ ReportsOnce ([r].flatMap Rule.params) (emitNotices [r]) := by
  intro p r
  have hnotices : emitNotices [r] =
      [.unknownCollectionFormat "q" "bogus", .unknownCollectionFormat "q" "bogus"] := by decide
  refine ⟨hnotices, fun h => ?_⟩
  rw [reportsOnce_iff, hnotices] at h
  exact absurd h (by decide)

end SwaggerRoutes.Source
