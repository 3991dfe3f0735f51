/-
  Proofs/Route/Translation.lean --- the rules of a description, said without a walk.

  `Rule.Describes` says of a rule, field by field, what the operation declares from which it comes.
  Together with the destinations of `consult` that leaves no choice: a list of rules is the result
  of a derivation exactly when its rules describe the declared operations one by one.
-/
import Mathlib.Data.List.Forall2
import SwaggerRoutes.Proofs.Route.Walk

set_option autoImplicit false

namespace SwaggerRoutes.Route

open Swagger

/-! ## What a rule says -/

/-- The text that is declared, if it is not blank. -/
def IsShown (declared : Option String) (text : String) : Prop :=
  declared = some text ∧ Text.trim text ≠ ""

/-- The value that is declared, or else the one that is shared. -/
def IsOwnOr (own : Option (List String)) (shared value : List String) : Prop :=
  (∀ types, own = some types → value = types) ∧ (own = none → value = shared)

/-- The rule says of a declared operation what the description says of it. -/
structure Rule.Describes (spec : Spec) (x : Site) (r : Rule) : Prop where
  method : r.method = x.place.method
  path : r.path = x.place.path
  /-- The id is that of the operation, unless it is empty. -/
  id : ∀ i, r.id = some i ↔ x.place.operation.operationId = some i ∧ i ≠ ""
  /-- The description is the summary or, if there is nothing in that, the description. -/
  description : ∀ t, r.description = some t ↔
    IsShown x.place.operation.summary t ∨
      (∀ u, ¬ IsShown x.place.operation.summary u) ∧ IsShown x.place.operation.description t
  consumes : IsOwnOr x.place.operation.consumes spec.consumes r.consumes
  produces : IsOwnOr x.place.operation.produces spec.produces r.produces
  params : r.params = mergeParameters x.shared x.place.operation.parameters

theorem id?_eq_some_iff (o : Operation) (i : String) :
    o.id? = some i ↔ o.operationId = some i ∧ i ≠ "" := by
  simp [Operation.id?, Option.filter_eq_some_iff]

theorem bind_present?_eq_some_iff (t : Option String) (u : String) :
    t.bind Text.present? = some u ↔ IsShown t u := by
  rw [IsShown, Option.bind_eq_some_iff, ne_eq, trim_eq_empty_iff]
  constructor
  · rintro ⟨v, hv, hu⟩
    unfold Text.present? at hu
    split at hu
    · exact absurd hu (by simp)
    · next hblank =>
      obtain rfl := Option.some.inj hu
      exact ⟨hv, hblank⟩
  · rintro ⟨hv, hblank⟩
    exact ⟨u, hv, if_neg hblank⟩

theorem shownDescription_eq_some_iff (o : Operation) (t : String) :
    shownDescription o = some t ↔
      IsShown o.summary t ∨ (∀ u, ¬ IsShown o.summary u) ∧ IsShown o.description t := by
  simp only [shownDescription, Option.or_eq_some_iff, bind_present?_eq_some_iff,
    Option.eq_none_iff_forall_ne_some, ne_eq]

theorem eq_getD_iff (own : Option (List String)) (shared value : List String) :
    value = own.getD shared ↔ IsOwnOr own shared value := by
  cases own <;> simp [IsOwnOr]

/-- A rule describes an operation exactly when it is the rule of that operation, but for its
destination. -/
theorem describes_iff (spec : Spec) (x : Site) (r : Rule) :
    r.Describes spec x ↔ r = .ofPlace spec x.shared x.place r.destination := by
  obtain ⟨method, path, id, description, consumes, produces, params, destination⟩ := r
  simp only [Rule.ofPlace, Rule.mk.injEq, and_true]
  constructor
  · intro h
    refine ⟨h.method, h.path, ?_, ?_, ?_, ?_, h.params⟩
    · refine Option.ext fun i => ?_
      exact (h.id i).trans (id?_eq_some_iff x.place.operation i).symm
    · refine Option.ext fun t => ?_
      exact (h.description t).trans (shownDescription_eq_some_iff x.place.operation t).symm
    · exact (eq_getD_iff _ _ _).mpr h.consumes
    · exact (eq_getD_iff _ _ _).mpr h.produces
  · rintro ⟨hmethod, hpath, hid, hdescription, hconsumes, hproduces, hparams⟩
    refine ⟨hmethod, hpath, ?_, ?_, ?_, ?_, hparams⟩
    · intro i
      rw [hid]
      exact id?_eq_some_iff x.place.operation i
    · intro t
      rw [hdescription]
      exact shownDescription_eq_some_iff x.place.operation t
    · exact (eq_getD_iff _ _ _).mp hconsumes
    · exact (eq_getD_iff _ _ _).mp hproduces

/-! ## All rules -/

/-- The rules for operations with destinations are those that describe the operations and have the
destinations. -/
theorem eq_rulesFor_iff (spec : Spec) {xs : List Site} {ts : List String}
    (h : ts.length = xs.length) (rules : List Rule) :
    rules = rulesFor spec xs ts ↔
      List.Forall₂ (fun x r => r.Describes spec x) xs rules ∧
        rules.map Rule.destination = ts := by
  induction xs generalizing ts rules with
  | nil =>
      obtain rfl := List.eq_nil_of_length_eq_zero h
      cases rules <;> simp [rulesFor]
  | cons x xs ih =>
      cases ts with
      | nil => exact absurd h (by simp)
      | cons t ts =>
          have hlength : ts.length = xs.length := Nat.succ.inj h
          cases rules with
          | nil => simp [rulesFor]
          | cons r rules =>
              have hhead : r = .ofPlace spec x.shared x.place t ↔
                  r.Describes spec x ∧ r.destination = t := by
                rw [describes_iff]
                constructor
                · rintro rfl
                  exact ⟨rfl, rfl⟩
                · rintro ⟨hr, rfl⟩
                  exact hr
              rw [List.forall₂_cons, List.map_cons, List.cons.injEq, and_and_and_comm, ← hhead,
                ← ih hlength, ← List.cons.injEq]
              rfl

theorem exists_error_iff {σ : Type} (spec : Spec) (d : Strategy σ) (s : σ) :
    (∃ f, (derive spec d s).result = .error f) ↔ spec.paths = none ∨ HasBlankPath spec := by
  constructor
  · rintro ⟨f, hf⟩
    refine or_iff_not_imp_left.mpr fun hpaths => Classical.not_not.mp fun hblank => ?_
    rw [result_derive_of_paths hpaths hblank] at hf
    exact absurd hf (by simp)
  · rintro (hpaths | hblank)
    · exact ⟨_, result_derive_of_no_paths hpaths d s⟩
    · exact ⟨_, result_derive_of_blank hblank d s⟩

theorem result_eq_ok_iff {σ : Type} (spec : Spec) (d : Strategy σ) (s : σ) (rules : List Rule) :
    (derive spec d s).result = .ok rules ↔
      spec.paths ≠ none ∧ ¬ HasBlankPath spec ∧
        List.Forall₂ (fun x r => r.Describes spec x) (declared spec) rules ∧
        rules.map Rule.destination = (consult d s ((declared spec).map Site.place)).1 := by
  have hlength := length_consult d s ((declared spec).map Site.place)
  rw [List.length_map] at hlength
  rw [← eq_rulesFor_iff spec hlength]
  constructor
  · intro h
    have hnone : ¬ (spec.paths = none ∨ HasBlankPath spec) := by
      rw [← exists_error_iff spec d s, h]
      rintro ⟨f, hf⟩
      exact absurd hf (by simp)
    obtain ⟨hpaths, hblank⟩ := not_or.mp hnone
    rw [result_derive_of_paths hpaths hblank, Except.ok.injEq] at h
    exact ⟨hpaths, hblank, h.symm⟩
  · rintro ⟨hpaths, hblank, rfl⟩
    exact result_derive_of_paths hpaths hblank d s

/-- A description has no rules exactly when it has no paths or one of them is blank, wherever that
one stands.  Otherwise a list is the result exactly when it has one rule for each declared
operation, in the order of the paths and methods, each of them describes its operation, and their
destinations are those of one call of the strategy for each operation in that order.  In either case
the calls are those for the operations of the paths before the first blank one. -/
theorem derive_iff {σ : Type} (spec : Spec) (d : Strategy σ) (s : σ) :
    ((∃ f, (derive spec d s).result = .error f) ↔ spec.paths = none ∨ HasBlankPath spec) ∧
    (∀ rules, (derive spec d s).result = .ok rules ↔
      spec.paths ≠ none ∧ ¬ HasBlankPath spec ∧
        List.Forall₂ (fun x r => r.Describes spec x) (declared spec) rules ∧
        rules.map Rule.destination = (consult d s ((declared spec).map Site.place)).1) ∧
    (derive spec d s).state = (consult d s ((reached spec).map Site.place)).2 :=
  ⟨exists_error_iff spec d s, result_eq_ok_iff spec d s, state_derive spec d s⟩

end SwaggerRoutes.Route
