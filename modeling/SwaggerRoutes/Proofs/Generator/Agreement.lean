/-
  Proofs/Generator/Agreement.lean --- the definition and the source of one configuration.

  Both come from the same rules.  The statements in the source are read as they stand in its text,
  and statement by statement they register the verbs of the definition.  What a definition holds as
  an empty text is not called for in the source: that is the only difference, and
  `empty_default_in_definition_only` shows it.
-/
import SwaggerRoutes.Proofs.Generator.Session
import SwaggerRoutes.Proofs.Source.Lines
import SwaggerRoutes.Proofs.Source.Registration

set_option autoImplicit false

namespace SwaggerRoutes.Generator

open Java Route Source Swagger

variable {σ : Type}

/-! ## Results -/

theorem define_eq_ok_iff (g : Generator σ) (d : Definition) :
    g.define.result = .ok d ↔
      ∃ rules, (Route.derive g.spec g.strategy g.state).result = .ok rules ∧
        d = .ofRules g.spec.basePath rules := by
  unfold Generator.define Route.define Run.mapError Run.map
  cases (Route.derive g.spec g.strategy g.state).result with
  | error f => simp [Except.map, Except.mapError]
  | ok rules => simp [Except.map, Except.mapError, eq_comm]

theorem render_eq_ok_iff (g : Generator σ) (text : String) :
    g.render.result = .ok text ↔
      ∃ rules l, (Route.derive g.spec g.strategy g.state).result = .ok rules ∧
        g.layout = .ok l ∧ text = emit l rules := by
  rw [render_eq]
  cases (Route.derive g.spec g.strategy g.state).result with
  | error f => simp [sourceOf]
  | ok rules =>
      have hlayout : g.plain.layout = g.layout := rfl
      unfold sourceOf source
      rw [hlayout]
      cases g.layout with
      | error f => simp
      | ok l => simp [eq_comm]

/-- A layout has names that are valid, and all else from the generator. -/
theorem layout_eq_ok_iff (g : Generator σ) (l : Layout) :
    g.layout = .ok l ↔
      Naming.isQualifiedName g.packageName = true ∧ Naming.isIdentifier g.className = true ∧
        l = ⟨g.packageName, g.className, g.spec.title?.getD g.className, g.spec.basePath,
          g.indent⟩ := by
  unfold layout
  cases Naming.isQualifiedName g.packageName with
  | false => simp
  | true => cases Naming.isIdentifier g.className <;> simp [eq_comm]

/-- No rule of a description has an empty id or description. -/
theorem ne_empty_of_derive {spec : Spec} {d : Strategy σ} {s : σ} {rules : List Rule}
    (h : (Route.derive spec d s).result = .ok rules) {r : Rule} (hr : r ∈ rules) :
    r.id ≠ some "" ∧ r.description ≠ some "" := by
  obtain ⟨-, -, hrules, -⟩ := (result_eq_ok_iff spec d s rules).mp h
  obtain ⟨i, hi, rfl⟩ := List.getElem_of_mem hr
  have hx := hrules.get (hrules.length_eq ▸ hi) hi
  constructor
  · intro hid
    exact ((hx.id "").mp hid).2 rfl
  · intro hdescription
    have hblank : Text.trim "" = "" := (trim_eq_empty_iff "").mpr rfl
    rcases (hx.description "").mp hdescription with ⟨-, hne⟩ | ⟨-, -, hne⟩
    · exact hne hblank
    · exact hne hblank

/-- Where both the definition and the source of a generator are made, the definition is one block,
and its verbs are registered by the statements of the source, one by one and in order, under the
base path of the block.  The statements are those that stand in the text, and with white indentation
they are what is read as the body of its method. -/
theorem registers_of_define_of_render (g : Generator σ) {d : Definition} {text : String}
    (hd : g.define.result = .ok d) (ht : g.render.result = .ok text) :
    ∃ (b : Block) (l : Layout) (rules : List Rule) (ss : List Statement),
      d.rests = [b] ∧ b.path = nonEmpty g.spec.basePath ∧
      List.Forall₂ (Registers b.path) b.verbs ss ∧
      g.layout = .ok l ∧
      text = renderLines g.indent
        (openingLines l rules ++ statementLines ss ++ closingLines) ∧
      ((∀ c ∈ g.indent.toList, isWhite c = true) → ∃ ls front, read text = some ls ∧
        tokens ls = front ++ methodHead ++ ss.flatMap Statement.tokens ++
          [.separator '\x7d', .separator '\x7d']) := by
  obtain ⟨rules, hrules, rfl⟩ := (define_eq_ok_iff g d).mp hd
  obtain ⟨rules', l, hrules', hl, rfl⟩ := (render_eq_ok_iff g text).mp ht
  obtain rfl : rules = rules' := Except.ok.inj (hrules.symm.trans hrules')
  obtain ⟨hp, hc, hlayout⟩ := (layout_eq_ok_iff g l).mp hl
  have hbase : l.basePath = g.spec.basePath := by rw [hlayout]
  have hindentEq : l.indent = g.indent := by rw [hlayout]
  refine ⟨⟨shownBase g.spec.basePath, rules.map Verb.ofRule⟩, l, rules,
    rules.map (.ofRule g.spec.basePath), rfl, shownBase_eq_nonEmpty g.spec.basePath, ?_, hl, ?_, ?_⟩
  · rw [List.forall₂_map_left_iff, List.forall₂_map_right_iff, List.forall₂_same]
    intro r hr
    obtain ⟨hid, hdescription⟩ := ne_empty_of_derive hrules hr
    exact registers_ofRule g.spec.basePath hid hdescription
  · rw [emit, sourceLines_eq, hbase, hindentEq]
  · intro hindent
    rw [← hindentEq] at hindent
    have hp' : Naming.isQualifiedName l.packageName = true := by rw [hlayout]; exact hp
    have hc' : Naming.isIdentifier l.className = true := by rw [hlayout]; exact hc
    rw [← hbase]
    exact exists_read_emit hp' hc' hindent rules

/-- A description with texts that are there and empty: the base path, a media type, and the default
of a parameter. -/
def emptyTexts : Spec :=
  let q : Parameter := { Parameter.named "q" .query with default := some (.text "") }
  let o : Operation := { Operation.blank with consumes := some [""], parameters := [.inline q] }
  { Spec.blank with
    basePath := some "", paths := some ⟨[("/a", { PathItem.blank with get := some o })], by simp⟩ }

/-- The parameter that routes have for it. -/
def emptyTextsParam : Param :=
  ⟨"q", .query, false, none, none, none, some "", [], none, none⟩

/-- The rule that it has. -/
def emptyTextsRule : Rule :=
  ⟨.get, "/a", none, none, [""], [], [emptyTextsParam], "direct:rest1"⟩

/-- The layout of its source. -/
def emptyTextsLayout : Layout :=
  ⟨"rest.dsl.generated", "RestDslRoutes", "RestDslRoutes", some "", "    "⟩

theorem define_emptyTexts : (ofSpec emptyTexts).define.result =
    .ok ⟨[⟨none, [.ofRule emptyTextsRule]⟩]⟩ := rfl

theorem render_emptyTexts :
    (ofSpec emptyTexts).render.result = .ok (emit emptyTextsLayout [emptyTextsRule]) := rfl

/-- Empty texts: two verbs that agree. -/
theorem registers_of_empty_texts :
    ∃ d text, (ofSpec emptyTexts).define.result = .ok d ∧
      (ofSpec emptyTexts).render.result = .ok text ∧
      ∃ (b : Block) (l : Layout) (rules : List Rule) (ss : List Statement),
        d.rests = [b] ∧ b.path = nonEmpty emptyTexts.basePath ∧
        List.Forall₂ (Registers b.path) b.verbs ss ∧
        (ofSpec emptyTexts).layout = .ok l ∧
        text = renderLines defaultIndent
          (openingLines l rules ++ statementLines ss ++ closingLines) ∧
        ((∀ c ∈ defaultIndent.toList, isWhite c = true) → ∃ ls front, read text = some ls ∧
          tokens ls = front ++ methodHead ++ ss.flatMap Statement.tokens ++
            [.separator '\x7d', .separator '\x7d']) :=
  ⟨_, _, define_emptyTexts, render_emptyTexts,
    registers_of_define_of_render _ define_emptyTexts render_emptyTexts⟩

/-- The default that is an empty text is in the definition, but the statement makes no call for
it. -/
theorem empty_default_in_definition_only :
    ∃ (v : Verb) (p : Param) (s : Statement),
      (ofSpec emptyTexts).define.result = .ok ⟨[⟨none, [v]⟩]⟩ ∧ v.params = [p] ∧
      (ofSpec emptyTexts).render.result = .ok (renderLines defaultIndent
        (openingLines emptyTextsLayout [emptyTextsRule] ++ s.lines ++ closingLines)) ∧
      ¬ (p.defaultValue.isSome = true ↔ ∃ c ∈ s.calls, c.method = "defaultValue") := by
  refine ⟨.ofRule emptyTextsRule, emptyTextsParam, .ofRule (some "") emptyTextsRule,
    define_emptyTexts, rfl, ?_, ?_⟩
  · rw [render_emptyTexts, emit, sourceLines_eq]
    rfl
  · have hpresent : emptyTextsParam.defaultValue.isSome = true := rfl
    have hcalls : ∀ c ∈ (Statement.ofRule (some "") emptyTextsRule).calls,
        c.method ≠ "defaultValue" := by decide
    intro hiff
    obtain ⟨c, hc, hmethod⟩ := hiff.mp hpresent
    exact hcalls c hc hmethod

end SwaggerRoutes.Generator
