/-
  Proofs/Source/Lines.lean --- the lines of a source and how far they are indented.

  What a text of a layout or of a rule says never ends a line: literals and comments write line ends
  in another way, and names have none.  So the lines of a source are the lines that it is made of.
  `levels` says how far each is indented, and all that it is told of a rule is its `RuleFrame`:
  which of the calls that may be left out are made.
-/
import SwaggerRoutes.Proofs.Naming.Identifiers
import SwaggerRoutes.Proofs.Source.Lexical

set_option autoImplicit false

namespace SwaggerRoutes.Source

open Java Route Swagger

/-! ## The parts of a source -/

/-- The lines of a source in front of its statements. -/
def openingLines (l : Layout) (rules : List Rule) : List Line :=
  [⟨0, "package " ++ l.packageName ++ ";"⟩, ⟨0, ""⟩] ++ importLines rules ++
  [⟨0, ""⟩, ⟨0, "@Generated(" ++ literal generatorName ++ ")"⟩,
    ⟨0, "public final class " ++ l.className ++ " extends RouteBuilder \x7b"⟩, ⟨0, ""⟩,
    ⟨1, "/**"⟩, ⟨1, " * Defines Apache Camel routes for REST " ++ comment l.title ++ "."⟩,
    ⟨1, " */"⟩, ⟨1, "@Override"⟩, ⟨1, "public void configure() throws Exception \x7b"⟩]

/-- The lines of a source behind its statements. -/
def closingLines : List Line :=
  [⟨1, "\x7d"⟩, ⟨0, "\x7d"⟩]

theorem sourceLines_eq (l : Layout) (rules : List Rule) :
    sourceLines l rules =
      openingLines l rules ++ statementLines (rules.map (.ofRule l.basePath)) ++ closingLines := by
  simp [sourceLines, openingLines, closingLines]

/-- Between each two statements there is one empty line. -/
theorem statementLines_eq (ss : List Statement) :
    statementLines ss = [⟨0, ""⟩].intercalate (ss.map Statement.lines) := by
  induction ss with
  | nil => rfl
  | cons s ss ih =>
      cases ss with
      | nil => exact List.intercalate_singleton.symm
      | cons t ss =>
          rw [statementLines, ih, List.map_cons, List.map_cons, List.map_cons,
            List.intercalate_cons_cons, List.append_assoc]
          rfl

theorem map_intercalate {α β : Type} (f : α → β) (sep : List α) (xs : List (List α)) :
    (sep.intercalate xs).map f = (sep.map f).intercalate (xs.map (List.map f)) := by
  induction xs with
  | nil => rfl
  | cons x xs ih =>
      cases xs with
      | nil => simp
      | cons y xs =>
          rw [List.intercalate_cons_cons, List.map_append, List.map_append, ih]
          exact List.intercalate_cons_cons.symm

theorem forall_mem_intercalate {α : Type} {P : α → Prop} {sep : List α} {xs : List (List α)}
    (hsep : ∀ a ∈ sep, P a) (h : ∀ x ∈ xs, ∀ a ∈ x, P a) : ∀ a ∈ sep.intercalate xs, P a := by
  induction xs with
  | nil => simp
  | cons x xs ih =>
      have hx : ∀ a ∈ x, P a := h x List.mem_cons_self
      cases xs with
      | nil => rwa [List.intercalate_singleton]
      | cons y xs =>
          simp only [List.intercalate_cons_cons, List.forall_mem_append]
          exact ⟨⟨hx, hsep⟩, ih fun z hz => h z (List.mem_cons_of_mem x hz)⟩

/-! ## Frames -/

/-- Which of the calls for a parameter that may be left out are made. -/
structure ParamFrame where
  description : Bool
  dataType : Bool
  dataFormat : Bool
  defaultValue : Bool
  allowed : Bool
  format : Bool
  arrayType : Bool
  deriving DecidableEq, Repr

/-- Which of the calls for a route that may be left out are made. -/
structure RuleFrame where
  id : Bool
  description : Bool
  consumes : Bool
  produces : Bool
  params : List ParamFrame
  deriving DecidableEq, Repr

/-- The level of a call, if it is made. -/
def levelIf (made : Bool) (level : Nat) : List Nat :=
  if made then [level] else []

/-- Whether there is a text to show. -/
def isShown (text : Option String) : Bool :=
  text.getD "" != ""

namespace ParamFrame

/-- The frame of a parameter. -/
def ofParam (p : Param) : ParamFrame where
  description := isShown p.description
  dataType := isShown p.dataType
  dataFormat := isShown p.dataFormat
  defaultValue := isShown p.defaultValue
  allowed := !p.allowed.isEmpty
  format := (formatName? p).isSome
  arrayType := isShown p.arrayType

/-- The levels of the calls for a parameter. -/
def levels (f : ParamFrame) : List Nat :=
  [4, 5, 5, 5] ++ levelIf f.description 5 ++ levelIf f.dataType 5 ++ levelIf f.dataFormat 5 ++
  levelIf f.defaultValue 5 ++ levelIf f.allowed 5 ++ levelIf f.format 5 ++ levelIf f.arrayType 5 ++
  [4]

end ParamFrame

namespace RuleFrame

/-- The frame of a rule. -/
def ofRule (r : Rule) : RuleFrame where
  id := isShown r.id
  description := isShown r.description
  consumes := isShown (joinMediaTypes r.consumes)
  produces := isShown (joinMediaTypes r.produces)
  params := r.params.map .ofParam

/-- The levels of the lines of a statement. -/
def levels (f : RuleFrame) : List Nat :=
  [2, 3] ++ levelIf f.id 4 ++ levelIf f.description 4 ++ levelIf f.consumes 4 ++
  levelIf f.produces 4 ++ f.params.flatMap ParamFrame.levels ++ [4]

end RuleFrame

/-- The levels of the lines of a source. -/
def levels (fs : List RuleFrame) : List Nat :=
  [0, 0, 0, 0] ++
  levelIf (fs.any fun f => f.params.any ParamFrame.format) 0 ++
  levelIf (fs.any fun f => !f.params.isEmpty) 0 ++
  [0, 0, 0, 0, 1, 1, 1, 1, 1] ++
  [0].intercalate (fs.map RuleFrame.levels) ++
  [1, 0]

/-! ## Levels -/

theorem map_level_ofText? (level : Nat) (method : String) (text : Option String) :
    (Call.ofText? level method text).map Call.level =
      levelIf (isShown text) level := by
  cases text with
  | none => rfl
  | some s =>
      by_cases hs : s = ""
      · subst hs
        rfl
      · have hshown : isShown (some s) = true := by simpa [isShown] using hs
        rw [hshown]
        simp [Call.ofText?, levelIf, hs]

theorem map_level_paramCalls (p : Param) :
    (paramCalls p).map Call.level = (ParamFrame.ofParam p).levels := by
  have hallowed : (if p.allowed.isEmpty then [] else
      [(⟨5, "allowableValues", p.allowed.map .text⟩ : Call)]).map Call.level =
      levelIf (!p.allowed.isEmpty) 5 := by
    cases p.allowed <;> rfl
  have hformat : ((CollectionFormat.ofParam? p).toList.map fun f =>
      (⟨5, "collectionFormat", [.format f]⟩ : Call)).map Call.level =
      levelIf (formatName? p).isSome 5 := by
    rw [← map_name_ofParam?]
    cases CollectionFormat.ofParam? p <;> rfl
  simp only [paramCalls, List.map_append, map_level_ofText?, hallowed, hformat]
  rfl

theorem map_level_lines (basePath : Option String) (r : Rule) :
    (Statement.ofRule basePath r).lines.map Line.level = (RuleFrame.ofRule r).levels := by
  have hparams : (r.params.flatMap paramCalls).map Call.level =
      (r.params.map ParamFrame.ofParam).flatMap ParamFrame.levels := by
    simp only [List.map_flatMap, List.flatMap_map, map_level_paramCalls]
  have hline : Line.level ∘ Call.line = Call.level := rfl
  simp only [Statement.lines, Statement.ofRule, List.map_cons, List.map_append, List.map_map,
    hline, map_level_ofText?, hparams]
  rfl

/-- How far the lines of a source are indented depends on the frames of its rules only. -/
theorem map_level_sourceLines (l : Layout) (rules : List Rule) :
    (sourceLines l rules).map Line.level = levels (rules.map .ofRule) := by
  have hstatements : (statementLines (rules.map (.ofRule l.basePath))).map Line.level =
      [0].intercalate ((rules.map .ofRule).map RuleFrame.levels) := by
    have hlines : ((rules.map (Statement.ofRule l.basePath)).map Statement.lines).map
        (List.map Line.level) = (rules.map RuleFrame.ofRule).map RuleFrame.levels := by
      simp only [List.map_map, Function.comp_def, map_level_lines]
    rw [statementLines_eq, map_intercalate, hlines]
    rfl
  have hformats : usesFormats rules = (rules.map RuleFrame.ofRule).any fun f =>
      f.params.any ParamFrame.format := by
    have hname (p : Param) : (formatName? p).isSome = (CollectionFormat.ofParam? p).isSome := by
      rw [← map_name_ofParam?, Option.isSome_map]
    simp only [usesFormats, List.any_flatMap, List.any_map, Function.comp_def, RuleFrame.ofRule,
      ParamFrame.ofParam, hname]
  have hparams : usesParams rules = (rules.map RuleFrame.ofRule).any fun f =>
      !f.params.isEmpty := by
    simp only [usesParams, List.any_map, Function.comp_def, RuleFrame.ofRule, List.isEmpty_map]
  have himports : (importLines rules).map Line.level =
      [0, 0] ++ levelIf (usesFormats rules) 0 ++ levelIf (usesParams rules) 0 := by
    unfold importLines
    cases usesFormats rules <;> cases usesParams rules <;> rfl
  rw [sourceLines_eq, List.map_append, List.map_append, hstatements, openingLines, List.map_append,
    List.map_append, himports, levels, ← hformats, ← hparams]
  simp only [List.append_assoc]
  rfl

theorem le_of_mem_levels (fs : List RuleFrame) : ∀ n ∈ levels fs, n ≤ 5 := by
  have hcalls (made : Bool) (n : Nat) (hn : n ≤ 5) : ∀ m ∈ levelIf made n, m ≤ 5 := by
    cases made <;> simp [levelIf, hn]
  have hparam (f : ParamFrame) : ∀ n ∈ f.levels, n ≤ 5 := by
    simp only [ParamFrame.levels, List.forall_mem_append]
    exact ⟨⟨⟨⟨⟨⟨⟨⟨by decide, hcalls _ 5 (by decide)⟩, hcalls _ 5 (by decide)⟩,
      hcalls _ 5 (by decide)⟩, hcalls _ 5 (by decide)⟩, hcalls _ 5 (by decide)⟩,
      hcalls _ 5 (by decide)⟩, hcalls _ 5 (by decide)⟩, by decide⟩
  have hrule (f : RuleFrame) : ∀ n ∈ f.levels, n ≤ 5 := by
    have hparams : ∀ n ∈ f.params.flatMap ParamFrame.levels, n ≤ 5 := by
      intro n hn
      obtain ⟨p, -, hp⟩ := List.mem_flatMap.mp hn
      exact hparam p n hp
    simp only [RuleFrame.levels, List.forall_mem_append]
    exact ⟨⟨⟨⟨⟨⟨by decide, hcalls _ 4 (by decide)⟩, hcalls _ 4 (by decide)⟩,
      hcalls _ 4 (by decide)⟩, hcalls _ 4 (by decide)⟩, hparams⟩, by decide⟩
  have hstatements : ∀ n ∈ [0].intercalate (fs.map RuleFrame.levels), n ≤ 5 := by
    refine forall_mem_intercalate (by decide) fun ns hns => ?_
    obtain ⟨f, -, rfl⟩ := List.mem_map.mp hns
    exact hrule f
  simp only [levels, List.forall_mem_append]
  exact ⟨⟨⟨⟨⟨by decide, hcalls _ 0 (by decide)⟩, hcalls _ 0 (by decide)⟩, by decide⟩, hstatements⟩,
    by decide⟩

/-! ## Texts on one line -/

/-- A text in which no line ends. -/
structure IsOneLine (s : String) : Prop where
  lineFeed : '\n' ∉ s.toList
  carriageReturn : '\r' ∉ s.toList

instance (s : String) : Decidable (IsOneLine s) :=
  decidable_of_iff ('\n' ∉ s.toList ∧ '\r' ∉ s.toList) ⟨fun h => ⟨h.1, h.2⟩, fun h => ⟨h.1, h.2⟩⟩

theorem IsOneLine.append {s t : String} (hs : IsOneLine s) (ht : IsOneLine t) :
    IsOneLine (s ++ t) := by
  constructor <;> rw [String.toList_append, List.mem_append, not_or]
  · exact ⟨hs.lineFeed, ht.lineFeed⟩
  · exact ⟨hs.carriageReturn, ht.carriageReturn⟩

theorem isOneLine_literal (s : String) : IsOneLine (literal s) := by
  have hquote : IsOneLine "\"" := by decide
  refine (hquote.append ⟨?_, ?_⟩).append hquote <;> rw [String.toList_ofList]
  · exact not_mem_escapeLiteral_of_line_end (.inl rfl) s.toList
  · exact not_mem_escapeLiteral_of_line_end (.inr rfl) s.toList

theorem isOneLine_comment (s : String) : IsOneLine (comment s) := by
  constructor <;> rw [comment, String.toList_ofList]
  · exact not_mem_escapeComment_of_line_end (.inl rfl) s.toList
  · exact not_mem_escapeComment_of_line_end (.inr rfl) s.toList

theorem isOneLine_of_isQualifiedName {name : String} (h : Naming.isQualifiedName name = true) :
    IsOneLine name :=
  ⟨Naming.not_mem_of_isQualifiedName h (by decide) (by decide),
    Naming.not_mem_of_isQualifiedName h (by decide) (by decide)⟩

theorem isOneLine_of_isName {name : String} (h : isName name = true) : IsOneLine name :=
  ⟨not_mem_of_isWord (isWord_of_isName h) (by decide),
    not_mem_of_isWord (isWord_of_isName h) (by decide)⟩

theorem isOneLine_intercalate {sep : String} (hsep : IsOneLine sep) {ss : List String}
    (h : ∀ s ∈ ss, IsOneLine s) : IsOneLine (sep.intercalate ss) := by
  induction ss with
  | nil => exact (by decide : IsOneLine "")
  | cons s ss ih =>
      have hs : IsOneLine s := h s List.mem_cons_self
      cases ss with
      | nil => simpa using hs
      | cons t ss =>
          rw [String.intercalate_cons_cons]
          exact (hs.append hsep).append (ih fun u hu => h u (List.mem_cons_of_mem s hu))

theorem isOneLine_argument (a : Argument) : IsOneLine a.render := by
  cases a with
  | text s => exact isOneLine_literal s
  | flag b => cases b <;> decide
  | kind l => cases l <;> decide
  | format f => cases f <;> decide

theorem isOneLine_renderArguments (as : List Argument) : IsOneLine (renderArguments as) := by
  have hopen : IsOneLine "(" := by decide
  have harguments : IsOneLine (", ".intercalate (as.map Argument.render)) := by
    refine isOneLine_intercalate (by decide) fun s hs => ?_
    obtain ⟨a, -, rfl⟩ := List.mem_map.mp hs
    exact isOneLine_argument a
  exact (hopen.append harguments).append (by decide)

theorem isOneLine_call {c : Call} (hc : isName c.method = true) : IsOneLine c.render := by
  have hpoint : IsOneLine "." := by decide
  exact (hpoint.append (isOneLine_of_isName hc)).append (isOneLine_renderArguments c.arguments)

theorem isOneLine_lines (basePath : Option String) (r : Rule) :
    ∀ k ∈ (Statement.ofRule basePath r).lines, IsOneLine k.body := by
  have hrest : IsOneLine "rest" := by decide
  have hto : isName (Statement.ofRule basePath r).last.method = true :=
    (by decide : isName "to" = true)
  have hlast := isOneLine_call hto
  simp only [Statement.lines, List.forall_mem_append, List.forall_mem_cons, List.not_mem_nil,
    false_imp_iff, implies_true, and_true]
  refine ⟨⟨hrest.append (isOneLine_renderArguments _), fun k hk => ?_⟩, hlast.append (by decide)⟩
  obtain ⟨c, hc, rfl⟩ := List.mem_map.mp hk
  exact isOneLine_call (isName_of_mem_calls basePath r c hc)

theorem isOneLine_importLines (rules : List Rule) : ∀ k ∈ importLines rules, IsOneLine k.body := by
  unfold importLines
  cases usesFormats rules <;> cases usesParams rules <;> decide

/-- With names that are valid a source is made of lines on which nothing ends them. -/
theorem isOneLine_sourceLines {l : Layout} (hp : Naming.isQualifiedName l.packageName = true)
    (hc : Naming.isIdentifier l.className = true) (rules : List Rule) :
    ∀ k ∈ sourceLines l rules, IsOneLine k.body := by
  have hpackage : IsOneLine ("package " ++ l.packageName ++ ";") := by
    have hfirst : IsOneLine "package " := by decide
    exact (hfirst.append (isOneLine_of_isQualifiedName hp)).append (by decide)
  have hclass : IsOneLine
      ("public final class " ++ l.className ++ " extends RouteBuilder \x7b") := by
    have hfirst : IsOneLine "public final class " := by decide
    have hname := isOneLine_of_isQualifiedName (Naming.isQualifiedName_of_isIdentifier hc)
    exact (hfirst.append hname).append (by decide)
  have htitle : IsOneLine
      (" * Defines Apache Camel routes for REST " ++ comment l.title ++ ".") := by
    have hfirst : IsOneLine " * Defines Apache Camel routes for REST " := by decide
    exact (hfirst.append (isOneLine_comment l.title)).append (by decide)
  have hopening : ∀ k ∈ openingLines l rules, IsOneLine k.body := by
    simp only [openingLines, List.forall_mem_append, List.forall_mem_cons, List.not_mem_nil,
      false_imp_iff, implies_true, and_true]
    exact ⟨⟨⟨hpackage, by decide⟩, isOneLine_importLines rules⟩, by decide, by decide, hclass,
      by decide, by decide, htitle, by decide, by decide, by decide⟩
  have hstatements : ∀ k ∈ statementLines (rules.map (.ofRule l.basePath)), IsOneLine k.body := by
    rw [statementLines_eq]
    refine forall_mem_intercalate (by decide) fun lines hlines => ?_
    obtain ⟨s, hs, rfl⟩ := List.mem_map.mp hlines
    obtain ⟨r, -, rfl⟩ := List.mem_map.mp hs
    exact isOneLine_lines l.basePath r
  rw [sourceLines_eq]
  simp only [List.forall_mem_append]
  exact ⟨⟨hopening, hstatements⟩, by decide⟩

/-! ## The lines of a text -/

/-- The characters of a line with an indentation, without the line feed that ends it. -/
def Line.chars (indent : List Char) (k : Line) : List Char :=
  (List.replicate k.level indent).flatten ++ k.body.toList

theorem toList_render (indent : String) (k : Line) :
    (k.render indent).toList = k.chars indent.toList ++ ['\n'] := by
  simp [Line.render, Line.chars, String.toList_join, List.flatMap_replicate]

/-- Lines on which none ends are the lines of their text. -/
theorem pieces_renderLines {indent : String} (hindent : '\n' ∉ indent.toList) {lines : List Line}
    (h : ∀ k ∈ lines, '\n' ∉ k.body.toList) :
    Text.pieces '\n' (renderLines indent lines).toList =
      lines.map (Line.chars indent.toList) ++ [[]] := by
  rw [toList_renderLines]
  induction lines with
  | nil => rfl
  | cons k lines ih =>
      have hk : '\n' ∉ k.chars indent.toList := by
        rw [Line.chars, List.mem_append, not_or]
        refine ⟨fun hmem => ?_, h k List.mem_cons_self⟩
        obtain ⟨cs, hcs, hmem⟩ := List.mem_flatten.mp hmem
        exact hindent (List.eq_of_mem_replicate hcs ▸ hmem)
      have hrest := ih fun j hj => h j (List.mem_cons_of_mem k hj)
      rw [List.flatMap_cons, toList_render, List.append_assoc, List.singleton_append,
        Text.pieces_append_cons, Text.pieces_of_not_mem hk, hrest]
      rfl

/-- A source ends its last line. -/
theorem exists_emit_eq_append (l : Layout) (rules : List Rule) :
    ∃ front, (emit l rules).toList = front ++ ['\n'] := by
  have hlast : sourceLines l rules = openingLines l rules ++
      statementLines (rules.map (.ofRule l.basePath)) ++ [⟨1, "\x7d"⟩] ++ [⟨0, "\x7d"⟩] := by
    rw [sourceLines_eq, List.append_assoc _ _ [_], closingLines]
    rfl
  rw [emit, hlast, toList_renderLines, List.flatMap_append, List.flatMap_singleton, toList_render,
    ← List.append_assoc]
  exact ⟨_, rfl⟩

theorem carriageReturn_not_mem_renderLines {indent : String} (hindent : '\r' ∉ indent.toList)
    {lines : List Line} (h : ∀ k ∈ lines, '\r' ∉ k.body.toList) :
    '\r' ∉ (renderLines indent lines).toList := by
  rw [toList_renderLines, List.mem_flatMap]
  rintro ⟨k, hk, hmem⟩
  simp only [toList_render, Line.chars, List.mem_append, List.mem_flatten] at hmem
  rcases hmem with (⟨cs, hcs, hmem⟩ | hmem) | hmem
  · exact hindent (List.eq_of_mem_replicate hcs ▸ hmem)
  · exact h k hk hmem
  · exact absurd hmem (by decide)

/-- Every line of a statement shows something. -/
theorem body_ne_empty_of_mem_lines (s : Statement) : ∀ k ∈ s.lines, k.body ≠ "" := by
  have hne {a b : String} (ha : a ≠ "") : a ++ b ≠ "" := fun h =>
    ha (String.append_eq_empty_iff.mp h).1
  have hcall (c : Call) : c.render ≠ "" := hne (hne (by decide))
  simp only [Statement.lines, List.forall_mem_append, List.forall_mem_cons, List.not_mem_nil,
    false_imp_iff, implies_true, and_true]
  refine ⟨⟨hne (by decide), fun k hk => ?_⟩, hne (hcall _)⟩
  obtain ⟨c, -, rfl⟩ := List.mem_map.mp hk
  exact hcall c

/-- The lines of the source for rules, whatever it is indented with.  They depend on the indentation
only by being indented, to five levels at most, and no line end is in them that is not theirs.  How
many there are and at which levels is the same for all rules with the same frames.  Statements stand
between the head of the method and its end, with one empty line between each two. -/
theorem lines_emit (l : Layout) (rules : List Rule)
    (hp : Naming.isQualifiedName l.packageName = true)
    (hc : Naming.isIdentifier l.className = true) :
    ∃ lines : List Line,
      (∀ indent : String, '\n' ∉ indent.toList →
        Text.pieces '\n' (emit { l with indent := indent } rules).toList =
            lines.map (Line.chars indent.toList) ++ [[]] ∧
          (∃ front, (emit { l with indent := indent } rules).toList = front ++ ['\n']) ∧
          ('\r' ∉ indent.toList → '\r' ∉ (emit { l with indent := indent } rules).toList)) ∧
      (∀ k ∈ lines, k.level ≤ 5 ∧ IsOneLine k.body) ∧
      lines.map Line.level = levels (rules.map .ofRule) ∧
      ∃ (opening closing : List Line) (statements : List (List Line)),
        lines = opening ++ [⟨0, ""⟩].intercalate statements ++ closing ∧
        statements = rules.map (fun r => (Statement.ofRule l.basePath r).lines) ∧
        (∀ s ∈ statements, s ≠ [] ∧ ∀ k ∈ s, k.body ≠ "") ∧
        opening.getLast? = some ⟨1, "public void configure() throws Exception \x7b"⟩ ∧
        closing = [⟨1, "\x7d"⟩, ⟨0, "\x7d"⟩] := by
  have hlines := isOneLine_sourceLines hp hc rules
  refine ⟨sourceLines l rules, fun indent hindent => ⟨?_, ?_, fun hreturn => ?_⟩, fun k hk => ?_,
    map_level_sourceLines l rules, openingLines l rules, closingLines, _, ?_, rfl, ?_, ?_, rfl⟩
  · exact pieces_renderLines hindent fun k hk => (hlines k hk).lineFeed
  · exact exists_emit_eq_append _ rules
  · exact carriageReturn_not_mem_renderLines hreturn fun k hk => (hlines k hk).carriageReturn
  · have hlevel : k.level ∈ levels (rules.map .ofRule) := by
      rw [← map_level_sourceLines l rules]
      exact List.mem_map_of_mem hk
    exact ⟨le_of_mem_levels _ _ hlevel, hlines k hk⟩
  · rw [sourceLines_eq, statementLines_eq, List.map_map]
    rfl
  · intro s hs
    obtain ⟨r, -, rfl⟩ := List.mem_map.mp hs
    exact ⟨List.cons_ne_nil _ _, body_ne_empty_of_mem_lines _⟩
  · rw [openingLines, List.getLast?_append]
    rfl

/-- Line ends in all texts, one parameter with a constant and one with texts that are empty. -/
theorem lines_emit_of_line_ends :
    let l : Layout := ⟨"a.b", "C", "*/\r\nx", some "/v\n", " \t"⟩
    let p : Param :=
      ⟨"\r", .query, true, some "\n", none, none, some "", ["", "\n"], some "csv", none⟩
    let q : Param := ⟨"", .body, false, some "", some "", none, none, [], some "\n", some "\r"⟩
    let r : Rule := ⟨.get, "\n", some "\r", none, [""], ["\n"], [p, q], "\r\n"⟩
    let s : Rule := ⟨.head, "", none, none, [], [], [], ""⟩
    Naming.isQualifiedName l.packageName = true ∧ Naming.isIdentifier l.className = true ∧
      ∃ lines : List Line,
        (∀ indent : String, '\n' ∉ indent.toList →
          Text.pieces '\n' (emit { l with indent := indent } [r, s]).toList =
            lines.map (Line.chars indent.toList) ++ [[]]) ∧
        (∀ k ∈ lines, k.level ≤ 5 ∧ IsOneLine k.body) ∧
        lines.map Line.level =
          [0, 0, 0, 0, 0, 0, 0, 0, 0, 0, 1, 1, 1, 1, 1,
            2, 3, 4, 4, 4, 5, 5, 5, 5, 5, 5, 4, 4, 5, 5, 5, 5, 4, 4, 0, 2, 3, 4, 1, 0] := by
  intro l p q r s
  have hp : Naming.isQualifiedName l.packageName = true := by decide
  have hc : Naming.isIdentifier l.className = true := by decide
  obtain ⟨lines, htext, hlines, hlevels, -⟩ := lines_emit l [r, s] hp hc
  exact ⟨hp, hc, lines, fun indent hindent => (htext indent hindent).1, hlines,
    hlevels.trans (by decide)⟩

end SwaggerRoutes.Source
