/-
  Proofs/Generator/Placement.lean --- where sources are written, and what they declare there.

  The names of a generator come from functions of any kind, but nothing is written for names that
  are not valid.  Valid ones are a path of plain names that goes down from a directory, however that
  is written, and the source declares its package and its class by the same names.
-/
import SwaggerRoutes.Proofs.Files.Writing
import SwaggerRoutes.Proofs.Generator.Agreement

set_option autoImplicit false

namespace SwaggerRoutes.Source

open Java Route

/-! ## Declarations -/

/-- A source declares a class in a package: its first line names the package, and the first class
that is read in it has the name. -/
structure Declares (text : String) (package : List String) (name : String) : Prop where
  firstLine : (Text.pieces '\n' text.toList).head? =
    some ("package " ++ ".".intercalate package ++ ";").toList
  header : ∃ (head rest : String) (ls : List Lexeme) (between : List Token),
    text = head ++ rest ∧ read head = some ls ∧ .reserved "class" ∉ between ∧
    tokens ls = [.reserved "package"] ++ dottedNames package ++ [.separator ';'] ++ between ++
      [.reserved "class", .identifier name, .reserved "extends", .identifier "RouteBuilder",
        .separator '\x7b']

/-- The lines of a source up to the opening of its class. -/
def headerLines (l : Layout) (rules : List Rule) : List Line :=
  [⟨0, "package " ++ l.packageName ++ ";"⟩, ⟨0, ""⟩] ++ importLines rules ++
  [⟨0, ""⟩, ⟨0, "@Generated(" ++ literal generatorName ++ ")"⟩,
    ⟨0, "public final class " ++ l.className ++ " extends RouteBuilder \x7b"⟩, ⟨0, ""⟩]

theorem level_headerLines (l : Layout) (rules : List Rule) :
    ∀ x ∈ headerLines l rules, x.level = 0 := by
  unfold headerLines importLines
  cases usesFormats rules <;> cases usesParams rules <;> simp

theorem renderLines_append (indent : String) (xs ys : List Line) :
    renderLines indent (xs ++ ys) = renderLines indent xs ++ renderLines indent ys := by
  simp [renderLines]

/-- Lines that are not indented do not depend on the indentation. -/
theorem renderLines_of_level_eq_zero {lines : List Line} (h : ∀ x ∈ lines, x.level = 0)
    (indent other : String) : renderLines indent lines = renderLines other lines := by
  unfold renderLines
  refine congrArg String.join (List.map_congr_left fun x hx => ?_)
  rw [Line.render, Line.render, h x hx]
  rfl

theorem exists_emit_eq (l : Layout) (rules : List Rule) :
    ∃ rest, emit l rules = renderLines "" (headerLines l rules) ++ rest := by
  refine ⟨renderLines l.indent ([⟨1, "/**"⟩,
    ⟨1, " * Defines Apache Camel routes for REST " ++ comment l.title ++ "."⟩, ⟨1, " */"⟩,
    ⟨1, "@Override"⟩, ⟨1, "public void configure() throws Exception \x7b"⟩] ++
    statementLines (rules.map (.ofRule l.basePath)) ++ closingLines), ?_⟩
  rw [renderLines_of_level_eq_zero (level_headerLines l rules) "" l.indent,
    ← renderLines_append, emit, sourceLines_eq]
  simp [openingLines, headerLines]

/-- A source declares its class, in its package, whatever else is in its layout. -/
theorem declares_emit {l : Layout} (hp : Naming.isQualifiedName l.packageName = true)
    (hc : Naming.isIdentifier l.className = true) (rules : List Rule) :
    Declares (emit l rules) ((Naming.segments l.packageName).map String.ofList) l.className := by
  obtain ⟨rest, hrest⟩ := exists_emit_eq l rules
  have hname := Naming.intercalate_segments l.packageName
  constructor
  · have hchars : (emit l rules).toList =
        ("package " ++ l.packageName ++ ";").toList ++ '\n' ::
          (renderLines "" (headerLines l rules).tail ++ rest).toList := by
      rw [hrest]
      simp [headerLines, renderLines, Line.render]
    have hline : '\n' ∉ ("package " ++ l.packageName ++ ";").toList := by
      have hpackage := Naming.not_mem_of_isQualifiedName hp (c := '\n') (by decide) (by decide)
      simpa using hpackage
    rw [hname, hchars, Text.pieces_append_cons, Text.pieces_of_not_mem hline]
    rfl
  · have hreads := reads_header (l := { l with indent := "" }) hp hc (by simp) rules
    refine ⟨renderLines "" (headerLines l rules), rest, _,
      importTokens ["javax", "annotation", "Generated"] ++
      importTokens ["org", "apache", "camel", "builder", "RouteBuilder"] ++
      (if ∃ r ∈ rules, ∃ p ∈ r.params, formatName? p ≠ none then
        importTokens ["org", "apache", "camel", "model", "rest", "CollectionFormat"] else []) ++
      (if ∃ r ∈ rules, r.params ≠ [] then
        importTokens ["org", "apache", "camel", "model", "rest", "RestParamType"] else []) ++
      [.separator '@', .identifier "Generated", .separator '(', .text "restdsl-java",
        .separator ')', .reserved "public", .reserved "final"], hrest, hreads.read_eq, ?_, ?_⟩
    · simp only [List.mem_append, not_or]
      refine ⟨⟨⟨⟨by decide, by decide⟩, ?_⟩, ?_⟩, by decide⟩ <;> split <;> decide
    · rw [tokens_map_token]
      simp [headerTokens]

end SwaggerRoutes.Source

namespace SwaggerRoutes.Generator

open Files Naming Route Source Tree

variable {σ : Type}

/-! ## Sources in a tree -/

/-- Only the source is written, and only if there is one. -/
theorem tree_toDirectory (g : Generator σ) (here : Address) (dir : String) (t : Tree) :
    (g.toDirectory (Tree.store here) dir t).2 = t ∨
      ∃ text, g.render.result = .ok text ∧ (g.toDirectory (Tree.store here) dir t).2 =
        (writeFile (Tree.store here) (g.pathUnder dir) text t).2 := by
  unfold toDirectory Run.andThenM
  cases g.render.result with
  | error e => exact .inl rfl
  | ok text =>
      refine .inr ⟨text, rfl, ?_⟩
      refine (state_bind (fun r t => rfl) t).trans (state_bind (fun r t => ?_) t)
      cases r <;> rfl

/-- A generator whose source is made has valid names, and its source declares what they name. -/
theorem declares_of_render {g : Generator σ} {text : String} (h : g.render.result = .ok text) :
    isQualifiedName g.packageName = true ∧ isIdentifier g.className = true ∧
      Declares text ((segments g.packageName).map String.ofList) g.className := by
  obtain ⟨rules, l, -, hl, rfl⟩ := (render_eq_ok_iff g text).mp h
  obtain ⟨hp, hc, hlayout⟩ := (layout_eq_ok_iff g l).mp hl
  have hpackage : l.packageName = g.packageName := by rw [hlayout]
  have hclass : l.className = g.className := by rw [hlayout]
  refine ⟨hp, hc, ?_⟩
  rw [← hpackage] at hp ⊢
  rw [← hclass] at hc ⊢
  exact declares_emit hp hc rules

theorem isQualifiedName_qualifiedName {g : Generator σ} (hp : isQualifiedName g.packageName = true)
    (hc : isIdentifier g.className = true) : isQualifiedName g.qualifiedName = true :=
  (isQualifiedName_qualify_iff _ _).mpr ⟨hp, isQualifiedName_of_isIdentifier hc⟩

/-- A source is never missing for want of a file. -/
theorem render_ne_files (g : Generator σ) (e : Fault) : g.render.result ≠ .error (.files e) := by
  rw [render_eq]
  cases (Route.derive g.spec g.strategy g.state).result with
  | error f => simp [sourceOf]
  | ok rules =>
      unfold sourceOf source
      cases g.plain.layout <;> simp

/-- What a build directory makes of a source: its file is made, and then written to. -/
theorem result_toFiler {W : Type} {g : Generator σ} {text : String}
    (htext : g.render.result = .ok text) (s : Store (StateM W)) (b : BuildDirectory) (w : W) :
    (g.toFiler (BuildDirectory.filer s) b w).1.1.result =
      match (b.createSource s g.qualifiedName w).1.1 with
      | .error e => .error (.files e)
      | .ok path =>
        ((s.sink path).deliver text (b.createSource s g.qualifiedName w).2).1.mapError .files := by
  unfold toFiler Run.andThenM
  rw [htext]
  simp only [run_bind_bind]
  rw [run_openSource]
  generalize b.createSource s g.qualifiedName w = made
  obtain ⟨⟨opened, b'⟩, w'⟩ := made
  cases opened with
  | error e => rfl
  | ok path =>
      simp only [run_bind_bind]
      rw [deliver_lifted, run_lift]
      generalize (s.sink path).deliver text w' = delivered
      obtain ⟨r, w''⟩ := delivered
      cases r <;> rfl

/-- The filer of a build directory never refuses a source for its name. -/
theorem toFiler_ne_notQualified (g : Generator σ) (here : Address) (b : BuildDirectory) (t : Tree)
    (name : String) : (g.toFiler (BuildDirectory.filer (Tree.store here)) b t).1.1.result ≠
      .error (.files (.notQualified name)) := by
  have hne : ∀ e, IsStoreFault e → GenerateFault.files e ≠ .files (.notQualified name) :=
    fun e he h => he.ne_notQualified name (GenerateFault.files.inj h)
  cases htext : g.render.result with
  | error e =>
      have hresult : (g.toFiler (BuildDirectory.filer (Tree.store here)) b t).1.1.result =
          .error e := by
        unfold toFiler Run.andThenM
        rw [htext]
        rfl
      rw [hresult]
      intro h
      obtain rfl := Except.error.inj h
      exact g.render_ne_files _ htext
  | ok text =>
      obtain ⟨hp, hc, -⟩ := declares_of_render htext
      have hqualified := isQualifiedName_qualifiedName hp hc
      rw [result_toFiler htext]
      rcases createSource_cases (Tree.store here) b g.qualifiedName t with
        ⟨f, hf, heq⟩ | ⟨-, f, hf, heq⟩ | ⟨-, -, heq⟩
      · rw [heq]
        rcases (b.refusal?_eq_some_iff _ f).mp hf with ⟨hinvalid, -⟩ | ⟨-, -, rfl⟩
        · rw [hqualified] at hinvalid
          exact absurd hinvalid (by decide)
        · simp
      · rw [heq]
        have hfault := (careful_make here (b.sourcePath g.qualifiedName)).fault t f hf
        intro h
        exact hne f hfault (Except.error.inj h)
      · rw [heq]
        dsimp only
        intro h
        have hfault := (careful_deliver here (b.sourcePath g.qualifiedName) text).fault
          ((Tree.store here).make (b.sourcePath g.qualifiedName) t).2
        generalize (((Tree.store here).sink (b.sourcePath g.qualifiedName)).deliver text _).1 = r
          at h hfault
        cases r with
        | error e => exact hne e (hfault e rfl) (Except.error.inj h)
        | ok u => exact nomatch h

/-- Whatever functions name the class and the package, writing under a directory changes nothing
unless both names are valid, and then no more than a file takes that is below the directory, at the
parts of the package and the name of the class, which are also what the source declares.  A build
directory changes nothing for a name that is not qualified, and otherwise no more than the file of
the name takes, below its root.  It never refuses the name of a source. -/
theorem written_below_root (here : Address) :
    (∀ (σ : Type) (g : Generator σ) (dir : String) (t : Tree),
      let t' := (g.toDirectory (Tree.store here) dir t).2
      t' ≠ t → isQualifiedName g.packageName = true ∧ isIdentifier g.className = true ∧
        ∃ (package : List String) (text : String),
          (∀ s ∈ package, isIdentifier s = true) ∧ ".".intercalate package = g.packageName ∧
          GoesDown dir (g.pathUnder dir) (package ++ [g.className ++ ".java"]) ∧
          WritesOnly here (g.pathUnder dir) t t' ∧
          g.render.result = .ok text ∧ Declares text package g.className) ∧
    (∀ (b : BuildDirectory) (name : String) (t : Tree),
      (isQualifiedName name = false →
        b.createSource (Tree.store here) name t = ((.error (.notQualified name), b), t)) ∧
      (isQualifiedName name = true →
        GoesDown b.root (b.sourcePath name) (sourceNames name) ∧
        WritesOnly here (b.sourcePath name) t (b.createSource (Tree.store here) name t).2)) ∧
    ∀ (σ : Type) (g : Generator σ) (b : BuildDirectory) (t : Tree) (name : String),
      (g.toFiler (BuildDirectory.filer (Tree.store here)) b t).1.1.result ≠
        .error (.files (.notQualified name)) := by
  refine ⟨fun σ g dir t => ?_, fun b name t => ?_, fun σ g b t name =>
    toFiler_ne_notQualified g here b t name⟩
  · intro t' hchanged
    rcases tree_toDirectory g here dir t with hsame | ⟨text, htext, hwritten⟩
    · exact absurd hsame hchanged
    · obtain ⟨hp, hc, hdeclares⟩ := declares_of_render htext
      have hdown := goesDown_sourcePath dir (isQualifiedName_qualifiedName hp hc)
      rw [qualifiedName, sourceNames_qualify _ hc] at hdown
      refine ⟨hp, hc, _, text, isIdentifier_of_mem_segments hp, intercalate_segments _, hdown, ?_,
        htext, hdeclares⟩
      have hwrites := (careful_writeFile here (g.pathUnder dir) text).leaves t
      rwa [← hwritten] at hwrites
  · constructor
    · intro hname
      have hrefusal := (b.refusal?_eq_some_iff name _).mpr (.inl ⟨hname, rfl⟩)
      rw [createSource_eq, hrefusal]
      rfl
    · intro hname
      exact ⟨goesDown_sourcePath b.root hname, b.writesOnly_createSource here name t⟩

/-- A generator with names of its own and no routes. -/
def plainNames : Generator Namer :=
  ((ofSpec { Swagger.Spec.blank with paths := some .empty }).withPackageNameOf fun _ => "a.b")
    |>.withClassNameOf fun _ => "C"

theorem toDirectory_plainNames_ne :
    (plainNames.toDirectory (Tree.store []) "out" .empty).2 ≠ .empty := by
  intro h
  have hthere : (plainNames.toDirectory (Tree.store []) "out" .empty).2.at? ["out"] =
      some .directory := rfl
  rw [h] at hthere
  exact absurd hthere (by decide)

/-- A class in a tree that holds nothing, and a name with an empty part beside one without. -/
theorem written_below_root_of_empty_tree :
    let t' := (plainNames.toDirectory (Tree.store []) "out" .empty).2
    let b := BuildDirectory.rootedAt "out"
    (isQualifiedName plainNames.packageName = true ∧ isIdentifier plainNames.className = true ∧
      ∃ (package : List String) (text : String),
        (∀ s ∈ package, isIdentifier s = true) ∧
        ".".intercalate package = plainNames.packageName ∧
        GoesDown "out" (plainNames.pathUnder "out") (package ++ [plainNames.className ++ ".java"]) ∧
        WritesOnly [] (plainNames.pathUnder "out") .empty t' ∧
        plainNames.render.result = .ok text ∧ Declares text package plainNames.className) ∧
    b.createSource (Tree.store []) "a..C" .empty = ((.error (.notQualified "a..C"), b), .empty) ∧
    GoesDown "out" (b.sourcePath "a.C") (sourceNames "a.C") ∧
    WritesOnly [] (b.sourcePath "a.C") .empty (b.createSource (Tree.store []) "a.C" .empty).2 := by
  intro t' b
  obtain ⟨hdirectory, hbuild, -⟩ := written_below_root []
  exact ⟨hdirectory _ plainNames "out" .empty toDirectory_plainNames_ne,
    (hbuild b "a..C" .empty).1 (by decide), (hbuild b "a.C" .empty).2 (by decide)⟩

end SwaggerRoutes.Generator
