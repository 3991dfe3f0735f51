/-
  Proofs/Generator/Names.lean --- no name stands in the way of a source.

  A generator that is set up step by step has valid names after each step: those made out of its
  description are valid, and others are refused when they are asked for.  So a source fails to be
  made only where the description has no rules.
-/
import SwaggerRoutes.Proofs.Generator.Agreement
import SwaggerRoutes.Proofs.Naming.Derived

set_option autoImplicit false

namespace SwaggerRoutes.Generator

open Naming Route Swagger

/-! ## Setting up -/

/-- The generators for a description that are set up from the first one, without functions of one's
own for names, by steps that all succeed. -/
inductive Configured (spec : Spec) : (σ : Type) → Generator σ → Prop where
  | ofSpec : Configured spec Namer (.ofSpec spec)
  | withClassName {σ : Type} {g g' : Generator σ} {name : String} :
      Configured spec σ g → g.withClassName name = .ok g' → Configured spec σ g'
  | withPackageName {σ : Type} {g g' : Generator σ} {name : String} :
      Configured spec σ g → g.withPackageName name = .ok g' → Configured spec σ g'
  | withIndent {σ : Type} {g : Generator σ} (indent : String) :
      Configured spec σ g → Configured spec σ (g.withIndent indent)
  | withStrategy {σ τ : Type} {g : Generator σ} (d : Strategy τ) (s : τ) :
      Configured spec σ g → Configured spec τ (g.withStrategy d s)
  /-- Outputs may have been made in between. -/
  | withState {σ : Type} {g : Generator σ} (s : σ) :
      Configured spec σ g → Configured spec σ (g.withState s)

theorem withClassName_eq_ok_iff {σ : Type} (g g' : Generator σ) (name : String) :
    g.withClassName name = .ok g' ↔
      isIdentifier name = true ∧ g' = g.withClassNameOf fun _ => name := by
  unfold withClassName
  split
  · next h => simp [h, eq_comm]
  · next h => simp [h]

theorem withPackageName_eq_ok_iff {σ : Type} (g g' : Generator σ) (name : String) :
    g.withPackageName name = .ok g' ↔
      isQualifiedName name = true ∧ g' = g.withPackageNameOf fun _ => name := by
  unfold withPackageName
  split
  · next h => simp [h, eq_comm]
  · next h => simp [h]

/-- Every step of setting up leaves valid names behind. -/
theorem Configured.valid {spec : Spec} {σ : Type} {g : Generator σ} (h : Configured spec σ g) :
    g.spec = spec ∧ isQualifiedName g.packageName = true ∧ isIdentifier g.className = true := by
  induction h with
  | ofSpec => exact ⟨rfl, isQualifiedName_packageName spec, (isIdentifier_className spec).1⟩
  | withClassName _ hname ih =>
      obtain ⟨hvalid, rfl⟩ := (withClassName_eq_ok_iff _ _ _).mp hname
      exact ⟨ih.1, ih.2.1, hvalid⟩
  | withPackageName _ hname ih =>
      obtain ⟨hvalid, rfl⟩ := (withPackageName_eq_ok_iff _ _ _).mp hname
      exact ⟨ih.1, hvalid, ih.2.2⟩
  | withIndent _ _ ih => exact ih
  | withStrategy _ _ _ ih => exact ih
  | withState _ _ ih => exact ih

/-! ## Sources -/

/-- With valid names a generator makes a source of whatever rules there are. -/
theorem exists_source_of_valid {σ : Type} {g : Generator σ}
    (hp : isQualifiedName g.packageName = true) (hc : isIdentifier g.className = true)
    (rules : List Rule) : ∃ text, (g.source rules).1 = .ok text := by
  obtain ⟨l, hl⟩ : ∃ l, g.layout = .ok l := ⟨_, (layout_eq_ok_iff g _).mpr ⟨hp, hc, rfl⟩⟩
  rw [source, hl]
  exact ⟨_, rfl⟩

/-- The names that are made out of a description are valid, whatever its title and its host are.  A
generator with such names, or with others that it was given and did not refuse, never fails for a
name: it makes a source exactly if the description has rules. -/
theorem render_of_configured :
    (∀ spec : Spec, isIdentifier (Naming.className spec) = true ∧
      classSuffix.toList <:+ (Naming.className spec).toList ∧
      isQualifiedName (Naming.packageName spec) = true) ∧
    ∀ (spec : Spec) (σ : Type) (g : Generator σ), Configured spec σ g →
      (∀ f, g.render.result ≠ .error (.names f)) ∧
      ((∃ text, g.render.result = .ok text) ↔
        ∃ rules, (Route.derive spec g.strategy g.state).result = .ok rules) := by
  refine ⟨fun spec => ?_, fun spec σ g hg => ?_⟩
  · obtain ⟨hname, hsuffix⟩ := isIdentifier_className spec
    exact ⟨hname, hsuffix, isQualifiedName_packageName spec⟩
  · obtain ⟨rfl, hp, hc⟩ := hg.valid
    rw [render_eq]
    cases (Route.derive g.spec g.strategy g.state).result with
    | error f => simp [sourceOf]
    | ok rules =>
        obtain ⟨text, htext⟩ := exists_source_of_valid (g := g.plain) hp hc rules
        simp [sourceOf, htext]

/-- A title that starts with a digit once it is cut down, labels of a host that are reserved or
become so, an odd indentation and another strategy. -/
theorem render_of_configured_of_odd_names :
    let spec : Spec :=
      { Spec.blank with
        info := { Info.blank with title := some "_3d \u2028 Класс" }
        host := some " NEW.1x._.ß..class :80"
        paths := some .empty }
    let g := ((Generator.ofSpec spec).withIndent "//").withStrategy (.fixed "seda:q") ()
    Configured spec Unit g ∧
      isIdentifier (Naming.className spec) = true ∧
      classSuffix.toList <:+ (Naming.className spec).toList ∧
      isQualifiedName (Naming.packageName spec) = true ∧
      (∀ f, g.render.result ≠ .error (.names f)) ∧
      ((∃ text, g.render.result = .ok text) ↔
        ∃ rules, (Route.derive spec g.strategy g.state).result = .ok rules) := by
  intro spec g
  have hg : Configured spec Unit g :=
    .withStrategy (.fixed "seda:q") () (.withIndent "//" .ofSpec)
  obtain ⟨hnames, hrender⟩ := render_of_configured
  obtain ⟨hname, hsuffix, hpackage⟩ := hnames spec
  exact ⟨hg, hname, hsuffix, hpackage, hrender spec Unit g hg⟩

end SwaggerRoutes.Generator
