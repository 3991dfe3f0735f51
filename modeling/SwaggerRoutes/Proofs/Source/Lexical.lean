/-
  Proofs/Source/Lexical.lean --- whatever texts stand in a source, it is read as it is meant.

  Arguments, calls, lines and statements are read one after another, each by the rules for its
  parts, and the title is read as part of the one comment.  No text of a layout or of a rule ends
  the literal or the comment in which it stands, begins another, or is taken for the number of a
  character.
-/
import SwaggerRoutes.Proofs.Java.Reads
import SwaggerRoutes.Proofs.Source.Tokens

set_option autoImplicit false

namespace SwaggerRoutes.Source

open Java Route Swagger

/-! ## Names -/

theorem isLetter_of_isIdentifierStart {c : Char} (h : Naming.isIdentifierStart c = true) :
    isLetter c = true := by
  have halpha : c.isAlpha = (decide (c.val ≥ 'A'.val ∧ c.val ≤ 'Z'.val) ||
      (c.val ≥ 'a'.val && c.val ≤ 'z'.val)) := rfl
  simp only [Naming.isIdentifierStart, halpha, Bool.or_eq_true, Bool.and_eq_true,
    decide_eq_true_eq, beq_iff_eq] at h
  simp only [isLetter, Bool.or_eq_true, Bool.and_eq_true, decide_eq_true_eq, beq_iff_eq]
  rcases h with ((h | h) | h) | h
  · exact .inl (.inl (.inr h))
  · exact .inl (.inl (.inl h))
  · exact .inl (.inr h)
  · exact .inr h

theorem isLetterOrDigit_of_isIdentifierPart {c : Char} (h : Naming.isIdentifierPart c = true) :
    isLetterOrDigit c = true := by
  have hdigit : c.isDigit = (c.val ≥ '0'.val && c.val ≤ '9'.val) := rfl
  simp only [Naming.isIdentifierPart, hdigit, Bool.or_eq_true, Bool.and_eq_true,
    decide_eq_true_eq] at h
  simp only [isLetterOrDigit, Bool.or_eq_true, Bool.and_eq_true, decide_eq_true_eq]
  rcases h with h | h
  · exact .inl (isLetter_of_isIdentifierStart h)
  · exact .inr h

/-- An identifier is a name for every reader of Java. -/
theorem isName_of_isIdentifierChars {cs : List Char} (h : Naming.isIdentifierChars cs = true) :
    isName (String.ofList cs) = true := by
  simp only [Naming.isIdentifierChars, Bool.and_eq_true, Bool.not_eq_true', Naming.isReserved,
    List.contains_eq_mem, decide_eq_false_iff_not] at h
  obtain ⟨hfree, hform⟩ := h
  have hsubset : ∀ w ∈ reservedWords, w ∈ Naming.reservedWords := by decide
  have hreserved : String.ofList cs ∉ reservedWords := fun hmem => hfree (hsubset _ hmem)
  cases cs with
  | nil => exact absurd hform (by decide)
  | cons c cs =>
      simp only [Bool.and_eq_true, List.all_eq_true] at hform
      have hletter : isLetter c = true := isLetter_of_isIdentifierStart hform.1
      have hrest : ∀ d ∈ cs, isLetterOrDigit d = true := fun d hd =>
        isLetterOrDigit_of_isIdentifierPart (hform.2 d hd)
      simp only [isName, String.toList_ofList, isWord, hletter, Bool.true_and, Bool.and_eq_true,
        List.all_eq_true, Bool.not_eq_true', List.contains_eq_mem, decide_eq_false_iff_not]
      exact ⟨hrest, hreserved⟩

/-! ## Arguments and calls -/

variable {cs : List Char} {ls : List Lexeme}

theorem reads_constant (type name : String) (ht : isName type = true) (hn : isName name = true)
    {d : Char} (hd : isLetterOrDigit d = false) (h : Reads (d :: cs) ls) :
    Reads ((type ++ "." ++ name).toList ++ d :: cs)
      ((constantTokens type name).map .token ++ ls) := by
  have hnames : ∀ s ∈ [type, name], isName s = true := by simp [ht, hn]
  have hchars : (type ++ "." ++ name).toList = Text.join '.' ([type, name].map String.toList) := by
    simp [Text.join]
  rw [hchars]
  exact Reads.dotted (by simp) hnames hd h

/-- An argument ends at a character that is no quote and belongs to no word. -/
theorem reads_argument (a : Argument) {d : Char} (hd : isLetterOrDigit d = false) (hq : d ≠ '"')
    (h : Reads (d :: cs) ls) :
    Reads (a.render.toList ++ d :: cs) (a.tokens.map .token ++ ls) := by
  cases a with
  | text s => exact Reads.text s hq h
  | flag b =>
      cases b with
      | false => exact Reads.word (w := "false".toList) (by decide) hd h
      | true => exact Reads.word (w := "true".toList) (by decide) hd h
  | kind l => exact reads_constant "RestParamType" l.name (by decide) (by cases l <;> decide) hd h
  | format f =>
      exact reads_constant "CollectionFormat" f.name (by decide) (by cases f <;> decide) hd h

/-- Arguments in parentheses, from the first parenthesis to the last. -/
theorem reads_renderArguments (as : List Argument) (h : Reads cs ls) :
    Reads ((renderArguments as).toList ++ cs)
      ((argumentTokens (as.map Argument.tokens)).map .token ++ ls) := by
  have hclose : Reads (')' :: cs) (.token (.separator ')') :: ls) := Reads.separator (by decide) h
  have hinner : Reads ((", ".intercalate (as.map Argument.render)).toList ++ ')' :: cs)
      (((as.map Argument.tokens).intersperse [Token.separator ',']).flatten.map .token ++
        .token (.separator ')') :: ls) := by
    induction as with
    | nil => exact hclose
    | cons a as ih =>
        cases as with
        | nil => simpa using reads_argument a (by decide) (by decide) hclose
        | cons b as =>
            have hblank : Reads [' '] [] := Reads.white (by decide)
            have hcomma := Reads.separator (c := ',') (by decide) (hblank.append ih)
            simpa [String.intercalate_cons_cons] using
              reads_argument a (by decide) (by decide) hcomma
  have hopen := Reads.separator (c := '(') (by decide) hinner
  simpa [renderArguments, argumentTokens] using hopen

theorem reads_call {c : Call} (hc : isName c.method = true) (h : Reads cs ls) :
    Reads (c.render.toList ++ cs) (c.tokens.map .token ++ ls) := by
  have harguments := reads_renderArguments c.arguments h
  have hopen : (renderArguments c.arguments).toList ++ cs =
      '(' :: ((", ".intercalate (c.arguments.map Argument.render)).toList ++ ')' :: cs) := by
    simp [renderArguments]
  rw [hopen] at harguments
  have hname := Reads.name hc (by decide) harguments
  have hpoint := Reads.point (isWord_of_isName hc) hname
  simpa [Call.render, Call.tokens, callTokens, renderArguments] using hpoint

/-! ## Lines -/

variable {indent : String}

theorem newline : Reads ['\n'] [] := Reads.white (by decide)

theorem toList_renderLines (indent : String) (lines : List Line) :
    (renderLines indent lines).toList = lines.flatMap fun l => (l.render indent).toList := by
  simp [renderLines, String.toList_join, List.flatMap_map]

/-- Indentation of any depth is white. -/
theorem white_indentation (hindent : ∀ c ∈ indent.toList, isWhite c = true) (n : Nat) :
    ∀ c ∈ (String.join (List.replicate n indent)).toList, isWhite c = true := by
  intro c hc
  rw [String.toList_join] at hc
  obtain ⟨s, hs, hcs⟩ := List.mem_flatMap.mp hc
  rw [List.eq_of_mem_replicate hs] at hcs
  exact hindent c hcs

/-- What stands on a line is read alike with any indentation. -/
theorem reads_line (hindent : ∀ c ∈ indent.toList, isWhite c = true) {l : Line}
    (h : Reads (l.body.toList ++ ['\n']) ls) : Reads (l.render indent).toList ls := by
  have hwhite := Reads.white (List.all_eq_true.mpr (white_indentation hindent l.level))
  simpa [Line.render] using hwhite.append h

theorem reads_no_lines (indent : String) : Reads (renderLines indent []).toList [] := by
  rw [toList_renderLines]
  exact Reads.nil

theorem reads_lines_append {lines more : List Line} {ks : List Lexeme}
    (h : Reads (renderLines indent lines).toList ls)
    (h' : Reads (renderLines indent more).toList ks) :
    Reads (renderLines indent (lines ++ more)).toList (ls ++ ks) := by
  rw [toList_renderLines] at h h' ⊢
  rw [List.flatMap_append]
  exact h.append h'

theorem reads_lines_cons (hindent : ∀ c ∈ indent.toList, isWhite c = true) {l : Line}
    {more : List Line} {ks : List Lexeme} (h : Reads (l.body.toList ++ ['\n']) ls)
    (h' : Reads (renderLines indent more).toList ks) :
    Reads (renderLines indent (l :: more)).toList (ls ++ ks) := by
  rw [toList_renderLines] at h' ⊢
  rw [List.flatMap_cons]
  exact (reads_line hindent h).append h'

/-- An empty line holds nothing. -/
theorem reads_empty_line (hindent : ∀ c ∈ indent.toList, isWhite c = true) {more : List Line}
    {ks : List Lexeme} (h : Reads (renderLines indent more).toList ks) :
    Reads (renderLines indent (⟨0, ""⟩ :: more)).toList ks :=
  reads_lines_cons hindent (l := ⟨0, ""⟩) newline h

/-- Lines of calls whose methods are names are read call by call. -/
theorem reads_calls (hindent : ∀ c ∈ indent.toList, isWhite c = true) {calls : List Call}
    (hcalls : ∀ c ∈ calls, isName c.method = true) :
    Reads (renderLines indent (calls.map Call.line)).toList
      ((calls.flatMap Call.tokens).map .token) := by
  rw [toList_renderLines, List.flatMap_map, List.map_flatMap]
  refine Reads.flatMap fun c hc => reads_line hindent ?_
  simpa [Call.line] using reads_call (hcalls c hc) newline

/-! ## Statements -/

theorem isName_of_mem_ofText? {level : Nat} {method : String} (hm : isName method = true)
    (s : Option String) : ∀ c ∈ Call.ofText? level method s, isName c.method = true := by
  intro c hc
  unfold Call.ofText? at hc
  split at hc
  · exact absurd hc (by simp)
  · split at hc
    · exact absurd hc (by simp)
    · rw [List.mem_singleton.mp hc]
      exact hm

theorem isName_of_mem_paramCalls (p : Param) :
    ∀ c ∈ paramCalls p, isName c.method = true := by
  have hfirst : ∀ c ∈ ([⟨4, "param", []⟩, ⟨5, "name", [.text p.name]⟩,
      ⟨5, "type", [.kind p.location]⟩, ⟨5, "required", [.flag p.required]⟩] : List Call),
      isName c.method = true := by
    simp only [List.forall_mem_cons, List.not_mem_nil, false_imp_iff, implies_true, and_true]
    decide
  have hallowed : ∀ c ∈ (if p.allowed.isEmpty then [] else
      [(⟨5, "allowableValues", p.allowed.map .text⟩ : Call)]), isName c.method = true := by
    split
    · simp
    · rw [List.forall_mem_singleton]
      exact (by decide : isName "allowableValues" = true)
  have hformat : ∀ c ∈ (CollectionFormat.ofParam? p).toList.map fun f =>
      (⟨5, "collectionFormat", [.format f]⟩ : Call), isName c.method = true := by
    intro c hc
    obtain ⟨f, -, rfl⟩ := List.mem_map.mp hc
    exact (by decide : isName "collectionFormat" = true)
  have hlast : ∀ c ∈ [(⟨4, "endParam", []⟩ : Call)], isName c.method = true := by decide
  simp only [paramCalls, List.forall_mem_append]
  exact ⟨⟨⟨⟨⟨⟨⟨⟨hfirst, isName_of_mem_ofText? (by decide) p.description⟩,
    isName_of_mem_ofText? (by decide) p.dataType⟩, isName_of_mem_ofText? (by decide) p.dataFormat⟩,
    isName_of_mem_ofText? (by decide) p.defaultValue⟩, hallowed⟩, hformat⟩,
    isName_of_mem_ofText? (by decide) p.arrayType⟩, hlast⟩

theorem isName_of_mem_calls (basePath : Option String) (r : Rule) :
    ∀ c ∈ (Statement.ofRule basePath r).calls, isName c.method = true := by
  have hverb : ∀ c ∈ [(⟨3, r.method.verb, [.text r.path]⟩ : Call)], isName c.method = true := by
    rw [List.forall_mem_singleton]
    change isName r.method.verb = true
    cases r.method <;> decide
  have hparams : ∀ c ∈ r.params.flatMap paramCalls, isName c.method = true := by
    intro c hc
    obtain ⟨p, -, hp⟩ := List.mem_flatMap.mp hc
    exact isName_of_mem_paramCalls p c hp
  simp only [Statement.ofRule, List.forall_mem_append]
  exact ⟨⟨⟨⟨⟨hverb, isName_of_mem_ofText? (by decide) r.id⟩,
    isName_of_mem_ofText? (by decide) r.description⟩,
    isName_of_mem_ofText? (by decide) (joinMediaTypes r.consumes)⟩,
    isName_of_mem_ofText? (by decide) (joinMediaTypes r.produces)⟩, hparams⟩

/-- The lines of a statement are read as the statement that is meant for its rule. -/
theorem reads_statement (hindent : ∀ c ∈ indent.toList, isWhite c = true)
    (basePath : Option String) (r : Rule) :
    Reads (renderLines indent (Statement.ofRule basePath r).lines).toList
      ((statementTokens basePath r).map .token) := by
  rw [← statementTokens_eq]
  generalize hs : Statement.ofRule basePath r = s
  have hcalls : ∀ c ∈ s.calls, isName c.method = true := hs ▸ isName_of_mem_calls basePath r
  have hlast : isName s.last.method = true := by
    rw [← hs]
    exact (by decide : isName "to" = true)
  have hrest := reads_renderArguments (s.base.toList.map .text) newline
  have hopen := Reads.name (s := "rest") (by decide) (d := '(') (by decide)
    (by simpa [renderArguments] using hrest)
  have hend := reads_call hlast (Reads.separator (c := ';') (by decide) newline)
  have hlines := reads_lines_cons hindent
    (l := ⟨2, "rest" ++ renderArguments (s.base.toList.map .text)⟩)
    (by simpa [renderArguments] using hopen)
    (reads_lines_append (reads_calls hindent hcalls)
      (reads_lines_cons hindent (l := ⟨s.last.level, s.last.render ++ ";"⟩)
        (by simpa using hend) (reads_no_lines indent)))
  simpa [Statement.lines, Statement.tokens, Function.comp_def, Argument.tokens] using hlines

/-- Statements are read one after another; the lines between them hold nothing. -/
theorem reads_statements (hindent : ∀ c ∈ indent.toList, isWhite c = true)
    (basePath : Option String) (rules : List Rule) :
    Reads (renderLines indent (statementLines (rules.map (.ofRule basePath)))).toList
      ((rules.flatMap (statementTokens basePath)).map .token) := by
  induction rules with
  | nil => exact Reads.nil
  | cons r rules ih =>
      cases rules with
      | nil => simpa [statementLines] using reads_statement hindent basePath r
      | cons t rules =>
          simpa [statementLines] using
            reads_lines_append (reads_statement hindent basePath r) (reads_empty_line hindent ih)

/-! ## The comment -/

/-- A slash at the front of an escaped text was at the front of the text. -/
theorem head_escapeComment (cs : List Char) :
    (escapeComment cs).head? = some '/' → cs.head? = some '/' := by
  fun_cases escapeComment cs with
  | case1 => exact id
  | case2 | case3 | case4 | case5 => exact fun h => absurd h (by simp)
  | case6 => exact id

/-- An escaped text holds no end mark. -/
theorem hasNoEnd_escapeComment (cs : List Char) : HasNoEnd (escapeComment cs) := by
  have hblank : HasNoEnd [' '] := by decide
  fun_induction escapeComment cs with
  | case1 => exact List.IsChain.nil
  | case2 cs ih => exact HasNoEnd.append_of_last (by decide) ih (by decide)
  | case3 cs ih => exact HasNoEnd.append_of_last (by decide) ih (by decide)
  | case4 cs ih => exact hblank.append_of_last ih (by decide)
  | case5 cs ih => exact hblank.append_of_last ih (by decide)
  | case6 c cs hend _ _ _ ih =>
      refine List.isChain_cons.mpr ⟨?_, ih⟩
      rintro y hy ⟨rfl, rfl⟩
      have hhead : cs.head? = some '/' := head_escapeComment cs hy
      cases cs with
      | nil => exact absurd hhead (by simp)
      | cons d cs =>
          rw [List.head?_cons, Option.some.injEq] at hhead
          exact hend cs rfl (by rw [hhead])

/-- No backslash is left in an escaped text. -/
theorem backslash_not_mem_escapeComment (cs : List Char) : '\\' ∉ escapeComment cs := by
  fun_induction escapeComment cs with
  | case1 => simp
  | case2 cs ih => simp [ih]
  | case3 cs ih => simp [ih]
  | case4 cs ih => simp [ih]
  | case5 cs ih => simp [ih]
  | case6 c cs _ hslash _ _ ih =>
      rw [List.mem_cons, not_or]
      exact ⟨fun h => hslash h.symm, ih⟩

/-- What stands between the marks of the comment of a source. -/
def commentText (l : Layout) : String :=
  "*\n" ++ l.indent ++ " * Defines Apache Camel routes for REST " ++ comment l.title ++ ".\n" ++
    l.indent ++ " "

theorem hasNoEnd_commentText {l : Layout} (hindent : ∀ c ∈ l.indent.toList, isWhite c = true) :
    HasNoEnd (commentText l).toList := by
  have hstar : '*' ∉ l.indent.toList := fun h => absurd (hindent _ h) (by decide)
  have hlast : l.indent.toList.getLast? ≠ some '*' := fun h => hstar (List.mem_of_getLast? h)
  have hclose : HasNoEnd (l.indent.toList ++ [' ']) :=
    (hasNoEnd_of_not_mem hstar).append_of_last (by decide) hlast
  have hpoint : HasNoEnd (".\n".toList ++ (l.indent.toList ++ [' '])) :=
    HasNoEnd.append_of_last (by decide) hclose (by decide)
  have htitle : HasNoEnd (escapeComment l.title.toList ++
      (".\n".toList ++ (l.indent.toList ++ [' ']))) :=
    (hasNoEnd_escapeComment _).append_of_head hpoint (by simp)
  have hsentence : HasNoEnd (" * Defines Apache Camel routes for REST ".toList ++
      (escapeComment l.title.toList ++ (".\n".toList ++ (l.indent.toList ++ [' '])))) :=
    HasNoEnd.append_of_last (by decide) htitle (by decide)
  have hindented := (hasNoEnd_of_not_mem hstar).append_of_last hsentence hlast
  have hstart : HasNoEnd "*\n".toList := by decide
  simpa [commentText, comment] using hstart.append_of_last hindented (by decide)

theorem backslash_not_mem_commentText {l : Layout}
    (hindent : ∀ c ∈ l.indent.toList, isWhite c = true) : '\\' ∉ (commentText l).toList := by
  have hslash : '\\' ∉ l.indent.toList := fun h => absurd (hindent _ h) (by decide)
  have htitle := backslash_not_mem_escapeComment l.title.toList
  simp [commentText, comment, hslash, htitle]

/-- The three lines of the comment are read as one comment. -/
theorem reads_comment {l : Layout} (hindent : ∀ c ∈ l.indent.toList, isWhite c = true) :
    Reads (renderLines l.indent [⟨1, "/**"⟩,
        ⟨1, " * Defines Apache Camel routes for REST " ++ comment l.title ++ "."⟩,
        ⟨1, " */"⟩]).toList [.comment (commentText l)] := by
  have hcomment := Reads.comment (hasNoEnd_commentText hindent)
    (backslash_not_mem_commentText hindent) newline
  have hall := (Reads.white (List.all_eq_true.mpr hindent)).append hcomment
  have hchars : (renderLines l.indent [⟨1, "/**"⟩,
      ⟨1, " * Defines Apache Camel routes for REST " ++ comment l.title ++ "."⟩,
      ⟨1, " */"⟩]).toList =
      l.indent.toList ++ (('/' :: '*' :: (commentText l).toList ++ ['*', '/']) ++ ['\n']) := by
    rw [toList_renderLines]
    simp [Line.render, commentText]
  rw [hchars]
  exact hall

/-! ## The class -/

/-- The package is declared under its own name. -/
theorem reads_package {package : String} (hp : Naming.isQualifiedName package = true) :
    Reads (("package " ++ package ++ ";").toList ++ ['\n'])
      (([Token.reserved "package"] ++ dottedNames ((Naming.segments package).map String.ofList) ++
        [Token.separator ';']).map .token) := by
  have hnames : ∀ s ∈ (Naming.segments package).map String.ofList, isName s = true := by
    intro s hs
    obtain ⟨cs, hcs, rfl⟩ := List.mem_map.mp hs
    exact isName_of_isIdentifierChars (List.all_eq_true.mp hp cs hcs)
  have hjoin : Text.join '.' (((Naming.segments package).map String.ofList).map String.toList) =
      package.toList := by
    simpa [Naming.segments] using Text.join_pieces '.' package.toList
  have hsome : (Naming.segments package).map String.ofList ≠ [] := by
    simpa [Naming.segments] using Text.pieces_ne_nil '.' package.toList
  have hend := Reads.separator (c := ';') (by decide) newline
  have hname := Reads.dotted hsome hnames (by decide) hend
  have hword : Reads "package ".toList [.token (.reserved "package")] := by decide
  rw [hjoin] at hname
  simpa using hword.append hname

/-- The class is declared under its own name. -/
theorem reads_class {name : String} (hc : Naming.isIdentifier name = true) :
    Reads (("public final class " ++ name ++ " extends RouteBuilder \x7b").toList ++ ['\n'])
      (([.reserved "public", .reserved "final", .reserved "class", .identifier name,
        .reserved "extends", .identifier "RouteBuilder", .separator '\x7b'] : List Token).map
          .token) := by
  have hname : isName name = true := by
    simpa using isName_of_isIdentifierChars hc
  have hend : Reads (' ' :: "extends RouteBuilder \x7b\n".toList)
      [.token (.reserved "extends"), .token (.identifier "RouteBuilder"),
        .token (.separator '\x7b')] := by decide
  have hbegin : Reads "public final class ".toList
      [.token (.reserved "public"), .token (.reserved "final"), .token (.reserved "class")] := by
    decide
  simpa using hbegin.append (Reads.name hname (by decide) hend)

theorem usesFormats_iff (rules : List Rule) :
    usesFormats rules = true ↔ ∃ r ∈ rules, ∃ p ∈ r.params, formatName? p ≠ none := by
  simp only [usesFormats, List.any_eq_true, List.mem_flatMap, ← map_name_ofParam?, ne_eq,
    Option.map_eq_none_iff, Option.isSome_iff_ne_none]
  constructor
  · rintro ⟨p, ⟨r, hr, hp⟩, h⟩
    exact ⟨r, hr, p, hp, h⟩
  · rintro ⟨r, hr, p, hp, h⟩
    exact ⟨p, ⟨r, hr, hp⟩, h⟩

theorem usesParams_iff (rules : List Rule) :
    usesParams rules = true ↔ ∃ r ∈ rules, r.params ≠ [] := by
  simp [usesParams]

/-- The imports are those that the rules call for. -/
theorem reads_imports (hindent : ∀ c ∈ indent.toList, isWhite c = true) (rules : List Rule) :
    Reads (renderLines indent (importLines rules)).toList
      ((importTokens ["javax", "annotation", "Generated"] ++
        importTokens ["org", "apache", "camel", "builder", "RouteBuilder"] ++
        (if ∃ r ∈ rules, ∃ p ∈ r.params, formatName? p ≠ none then
          importTokens ["org", "apache", "camel", "model", "rest", "CollectionFormat"] else []) ++
        (if ∃ r ∈ rules, r.params ≠ [] then
          importTokens ["org", "apache", "camel", "model", "rest", "RestParamType"] else [])).map
            .token) := by
  have hgenerated : Reads ("import javax.annotation.Generated;".toList ++ ['\n'])
      ((importTokens ["javax", "annotation", "Generated"]).map .token) := by decide
  have hbuilder : Reads ("import org.apache.camel.builder.RouteBuilder;".toList ++ ['\n'])
      ((importTokens ["org", "apache", "camel", "builder", "RouteBuilder"]).map .token) := by decide
  have hformat : Reads ("import org.apache.camel.model.rest.CollectionFormat;".toList ++ ['\n'])
      ((importTokens ["org", "apache", "camel", "model", "rest", "CollectionFormat"]).map
        .token) := by decide
  have hkind : Reads ("import org.apache.camel.model.rest.RestParamType;".toList ++ ['\n'])
      ((importTokens ["org", "apache", "camel", "model", "rest", "RestParamType"]).map
        .token) := by decide
  have hnone := reads_no_lines indent
  simp only [importLines, ← usesFormats_iff, ← usesParams_iff, List.map_append]
  refine reads_lines_append (reads_lines_append ?_ ?_) ?_
  · simpa using reads_lines_cons hindent (l := ⟨0, _⟩) hgenerated
      (reads_lines_cons hindent (l := ⟨0, _⟩) hbuilder hnone)
  · cases usesFormats rules with
    | false => exact hnone
    | true => simpa using reads_lines_cons hindent (l := ⟨0, _⟩) hformat hnone
  · cases usesParams rules with
    | false => exact hnone
    | true => simpa using reads_lines_cons hindent (l := ⟨0, _⟩) hkind hnone

/-- Up to the comment a source is read as its package, its imports and its class. -/
theorem reads_header {l : Layout} (hp : Naming.isQualifiedName l.packageName = true)
    (hc : Naming.isIdentifier l.className = true)
    (hindent : ∀ c ∈ l.indent.toList, isWhite c = true) (rules : List Rule) :
    Reads (renderLines l.indent ([⟨0, "package " ++ l.packageName ++ ";"⟩, ⟨0, ""⟩] ++
        importLines rules ++ [⟨0, ""⟩, ⟨0, "@Generated(" ++ literal generatorName ++ ")"⟩,
        ⟨0, "public final class " ++ l.className ++ " extends RouteBuilder \x7b"⟩,
        ⟨0, ""⟩])).toList ((headerTokens l rules).map .token) := by
  have hannotation : Reads (("@Generated(" ++ literal generatorName ++ ")").toList ++ ['\n'])
      [.token (.separator '@'), .token (.identifier "Generated"), .token (.separator '('),
        .token (.text "restdsl-java"), .token (.separator ')')] := by decide
  have hpackage := reads_lines_cons hindent
    (l := ⟨0, "package " ++ l.packageName ++ ";"⟩) (reads_package hp)
    (reads_empty_line hindent (reads_no_lines l.indent))
  have hclass := reads_empty_line hindent
    (reads_lines_cons hindent (l := ⟨0, "@Generated(" ++ literal generatorName ++ ")"⟩) hannotation
      (reads_lines_cons hindent
        (l := ⟨0, "public final class " ++ l.className ++ " extends RouteBuilder \x7b"⟩)
        (reads_class hc) (reads_empty_line hindent (reads_no_lines l.indent))))
  have hall := reads_lines_append (reads_lines_append hpackage (reads_imports hindent rules)) hclass
  simpa [headerTokens] using hall

/-- After the comment a source is read as its method with a statement for each rule. -/
theorem reads_method {l : Layout} (hindent : ∀ c ∈ l.indent.toList, isWhite c = true)
    (rules : List Rule) :
    Reads (renderLines l.indent ([⟨1, "@Override"⟩,
        ⟨1, "public void configure() throws Exception \x7b"⟩] ++
        statementLines (rules.map (.ofRule l.basePath)) ++ [⟨1, "\x7d"⟩, ⟨0, "\x7d"⟩])).toList
      ((methodTokens l rules).map .token) := by
  have hannotation : Reads ("@Override".toList ++ ['\n'])
      [.token (.separator '@'), .token (.identifier "Override")] := by decide
  have hmethod : Reads ("public void configure() throws Exception \x7b".toList ++ ['\n'])
      [.token (.reserved "public"), .token (.reserved "void"), .token (.identifier "configure"),
        .token (.separator '('), .token (.separator ')'), .token (.reserved "throws"),
        .token (.identifier "Exception"), .token (.separator '\x7b')] := by decide
  have hbrace : Reads ("\x7d".toList ++ ['\n']) [.token (.separator '\x7d')] := by decide
  have hnone := reads_no_lines l.indent
  have hopen := reads_lines_cons hindent (l := ⟨1, _⟩) hannotation
    (reads_lines_cons hindent (l := ⟨1, _⟩) hmethod hnone)
  have hclose := reads_lines_cons hindent (l := ⟨1, _⟩) hbrace
    (reads_lines_cons hindent (l := ⟨0, _⟩) hbrace hnone)
  have hall := reads_lines_append (reads_lines_append hopen
    (reads_statements hindent l.basePath rules)) hclose
  simpa [methodTokens] using hall

/-! ## The whole source -/

theorem exists_read_sourceTokens {l : Layout} (hp : Naming.isQualifiedName l.packageName = true)
    (hc : Naming.isIdentifier l.className = true)
    (hindent : ∀ c ∈ l.indent.toList, isWhite c = true) (rules : List Rule) :
    ∃ ls, read (emit l rules) = some ls ∧ tokens ls = sourceTokens l rules := by
  have hall := reads_lines_append (reads_lines_append (reads_header hp hc hindent rules)
    (reads_comment hindent)) (reads_method hindent rules)
  refine ⟨(headerTokens l rules).map .token ++ [.comment (commentText l)] ++
    (methodTokens l rules).map .token, Reads.read_eq ?_, ?_⟩
  · simpa [emit, sourceLines] using hall
  · rw [tokens_append, tokens_append, tokens_map_token, tokens_map_token, sourceTokens]
    exact congrArg (· ++ methodTokens l rules) (List.append_nil _)

/-- The head of the method that registers routes, up to its opening brace. -/
def methodHead : List Token :=
  [.identifier "configure", .separator '(', .separator ')', .reserved "throws",
    .identifier "Exception", .separator '\x7b']

/-- In a source the statements stand one after another in the body of the method. -/
theorem sourceTokens_eq (l : Layout) (rules : List Rule) :
    sourceTokens l rules =
      (headerTokens l rules ++ [.separator '@', .identifier "Override", .reserved "public",
        .reserved "void"]) ++ methodHead ++ rules.flatMap (statementTokens l.basePath) ++
      [.separator '\x7d', .separator '\x7d'] := by
  simp [sourceTokens, methodTokens, methodHead]

/-- With white indentation a source is read as its statements, one after another, in the body of the
method. -/
theorem exists_read_emit {l : Layout} (hp : Naming.isQualifiedName l.packageName = true)
    (hc : Naming.isIdentifier l.className = true)
    (hindent : ∀ c ∈ l.indent.toList, isWhite c = true) (rules : List Rule) :
    ∃ ls front, read (emit l rules) = some ls ∧
      tokens ls = front ++ methodHead ++
        (rules.map (Statement.ofRule l.basePath)).flatMap Statement.tokens ++
        [.separator '\x7d', .separator '\x7d'] := by
  have hstatements : (rules.map (Statement.ofRule l.basePath)).flatMap Statement.tokens =
      rules.flatMap (statementTokens l.basePath) := by
    simp only [List.flatMap_map, statementTokens_eq]
  obtain ⟨ls, hread, htokens⟩ := exists_read_sourceTokens hp hc hindent rules
  exact ⟨ls, _, hread, by rw [hstatements, htokens, sourceTokens_eq]⟩

/-- With a qualified package name, an identifier for a class and white indentation, whatever the
other texts are, a source is read as the tokens that are meant and one comment. -/
theorem read_emit (l : Layout) (rules : List Rule)
    (hp : Naming.isQualifiedName l.packageName = true)
    (hc : Naming.isIdentifier l.className = true)
    (hindent : ∀ c ∈ l.indent.toList, isWhite c = true) :
    ∃ ls, read (emit l rules) = some ls ∧ tokens ls = sourceTokens l rules ∧
      comments ls = [commentText l] := by
  have hall := reads_lines_append (reads_lines_append (reads_header hp hc hindent rules)
    (reads_comment hindent)) (reads_method hindent rules)
  refine ⟨(headerTokens l rules).map .token ++ [.comment (commentText l)] ++
    (methodTokens l rules).map .token, Reads.read_eq ?_, ?_, ?_⟩
  · simpa [emit, sourceLines] using hall
  · rw [tokens_append, tokens_append, tokens_map_token, tokens_map_token, sourceTokens]
    exact congrArg (· ++ methodTokens l rules) (List.append_nil _)
  · rw [comments_append, comments_append, comments_map_token, comments_map_token]
    rfl

/-- Numbers of characters, quotes, backslashes, line ends and marks of comments are texts like any
others. -/
theorem read_emit_of_marks :
    let l : Layout := ⟨"a.b", "C", "*/ \\u002a/ **/\n//", some "\\u0022\"\\", "\n\t"⟩
    let p : Param :=
      ⟨"\\u000a", .query, true, some "", none, none, none, ["\"", ""], some "csv", none⟩
    let r : Rule := ⟨.get, "\n\"", some "\\", none, ["\""], [], [p], "direct:/*"⟩
    (∀ c ∈ l.indent.toList, isWhite c = true) ∧
      ∃ ls, read (emit l [r]) = some ls ∧ tokens ls = sourceTokens l [r] ∧
        comments ls = [commentText l] := by
  have hindent : ∀ c ∈ "\n\t".toList, isWhite c = true := List.all_eq_true.mp (by decide)
  exact ⟨hindent, read_emit _ _ (by decide) (by decide) hindent⟩

end SwaggerRoutes.Source
