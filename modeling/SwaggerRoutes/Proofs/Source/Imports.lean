/-
  Proofs/Source/Imports.lean --- a type is imported exactly if a statement takes a constant of it.

  Both are read off the tokens of a source, where texts and comments are out of the way.  Wherever a
  statement names one of the two types it takes a constant of it (`TakesConstants`).  So a constant
  is taken where the type is named, which is where there is a parameter, or one with a format that
  has a constant.  Imports are counted: only an import begins with its keyword, so none hides in
  another place.
-/
import SwaggerRoutes.Proofs.Source.Lexical
import SwaggerRoutes.Proofs.Source.Registration

set_option autoImplicit false

namespace SwaggerRoutes.Source

open Java Route Swagger

/-! ## Constants of a type -/

/-- Wherever a type is named, a constant of it follows that has one of some names. -/
def TakesConstants (type : String) (names : List String) (ts : List Token) : Prop :=
  ∀ before after, ts = before ++ .identifier type :: after →
    ∃ name ∈ names, [.separator '.', .identifier name] <+: after

/-- Tokens have a type with a point behind it, which begins a constant. -/
def HasConstant (type : String) (ts : List Token) : Prop :=
  [.identifier type, .separator '.'] <:+: ts

instance (type : String) (ts : List Token) : Decidable (HasConstant type ts) :=
  inferInstanceAs (Decidable ([.identifier type, .separator '.'] <:+: ts))

/-- The methods that a statement calls. -/
def Statement.methods (s : Statement) : List String :=
  "rest" :: s.calls.map Call.method ++ [s.last.method]

/-- All that the calls of a statement are given. -/
def Statement.arguments (s : Statement) : List Argument :=
  s.calls.flatMap Call.arguments ++ s.last.arguments

section TakesConstants

variable {type : String} {names : List String}

/-- Where a type is named only in front of constants, it is named where there is a constant. -/
theorem TakesConstants.hasConstant_iff {ts : List Token}
    (h : TakesConstants type names ts) : HasConstant type ts ↔ .identifier type ∈ ts := by
  constructor
  · exact fun hconstant => hconstant.subset List.mem_cons_self
  · intro hmem
    obtain ⟨before, after, rfl⟩ := List.append_of_mem hmem
    obtain ⟨name, -, more, rfl⟩ := h before after rfl
    exact ⟨before, .identifier name :: more, by simp⟩

theorem takesConstants_of_not_mem {ts : List Token} (h : .identifier type ∉ ts) :
    TakesConstants type names ts := by
  rintro before after rfl
  exact absurd (List.mem_append_right before List.mem_cons_self) h

theorem TakesConstants.append {ts us : List Token} (hts : TakesConstants type names ts)
    (hus : TakesConstants type names us) : TakesConstants type names (ts ++ us) := by
  intro before after heq
  rcases List.append_eq_append_iff.mp heq with ⟨front, rfl, hus'⟩ | ⟨back, rfl, hback⟩
  · exact hus front after hus'
  · cases back with
    | nil => exact hus [] after hback.symm
    | cons t back =>
        obtain ⟨rfl, rfl⟩ := List.cons.inj hback
        obtain ⟨name, hname, hafter⟩ := hts before back rfl
        exact ⟨name, hname, hafter.trans (List.prefix_append back us)⟩

theorem takesConstants_flatMap {α : Type} {f : α → List Token} {as : List α}
    (h : ∀ a ∈ as, TakesConstants type names (f a)) : TakesConstants type names (as.flatMap f) := by
  induction as with
  | nil => exact takesConstants_of_not_mem List.not_mem_nil
  | cons a as ih =>
      rw [List.flatMap_cons]
      exact (h a List.mem_cons_self).append (ih fun b hb => h b (List.mem_cons_of_mem a hb))

theorem takesConstants_constant {name : String} (hname : name ∈ names) (hne : name ≠ type) :
    TakesConstants type names (constantTokens type name) := by
  have hrest : TakesConstants type names [.separator '.', .identifier name] :=
    takesConstants_of_not_mem (by simpa using Ne.symm hne)
  intro before after heq
  cases before with
  | nil =>
      obtain ⟨-, rfl⟩ := List.cons.inj heq
      exact ⟨name, hname, List.prefix_rfl⟩
  | cons t before => exact hrest before after (List.cons.inj heq).2

theorem takesConstants_arguments {arguments : List (List Token)}
    (h : ∀ a ∈ arguments, TakesConstants type names a) :
    TakesConstants type names (argumentTokens arguments) := by
  have hseparator (c : Char) : TakesConstants type names [.separator c] :=
    takesConstants_of_not_mem (by simp)
  have hinner : TakesConstants type names (arguments.intersperse [.separator ',']).flatten := by
    induction arguments with
    | nil => exact takesConstants_of_not_mem List.not_mem_nil
    | cons a arguments ih =>
        have ha := h a List.mem_cons_self
        cases arguments with
        | nil => simpa using ha
        | cons b arguments =>
            have hrest := ih fun c hc => h c (List.mem_cons_of_mem a hc)
            simpa using ha.append ((hseparator ',').append hrest)
  exact ((hseparator '(').append hinner).append (hseparator ')')

theorem takesConstants_call {c : Call} (hmethod : c.method ≠ type)
    (h : ∀ a : Argument, TakesConstants type names a.tokens) :
    TakesConstants type names c.tokens := by
  refine TakesConstants.append (takesConstants_of_not_mem ?_) (takesConstants_arguments ?_)
  · simpa using Ne.symm hmethod
  · intro ts hts
    obtain ⟨a, -, rfl⟩ := List.mem_map.mp hts
    exact h a

/-- A statement names a type only where it takes a constant of it, if its arguments do and no method
has the name of the type. -/
theorem takesConstants_statement {s : Statement} (hmethods : type ∉ s.methods)
    (h : ∀ a : Argument, TakesConstants type names a.tokens) :
    TakesConstants type names s.tokens := by
  simp only [Statement.methods, List.mem_append, List.mem_cons, List.mem_map, List.not_mem_nil,
    or_false, not_or, not_exists, not_and] at hmethods
  obtain ⟨⟨hrest, hcalls⟩, hlast⟩ := hmethods
  have hfirst : TakesConstants type names [.identifier "rest"] :=
    takesConstants_of_not_mem (by simpa using hrest)
  have hbase : TakesConstants type names
      (argumentTokens (s.base.toList.map fun b => [.text b])) := by
    refine takesConstants_arguments fun ts hts => ?_
    obtain ⟨b, -, rfl⟩ := List.mem_map.mp hts
    exact h (.text b)
  exact (((hfirst.append hbase).append
    (takesConstants_flatMap fun c hc => takesConstants_call (hcalls c hc) h)).append
    (takesConstants_call (Ne.symm hlast) h)).append (takesConstants_of_not_mem (by simp))

end TakesConstants

/-! ## Arguments -/

/-- The names of the constants of the type of parameter kinds. -/
def kindNames : List String := ["path", "query", "header", "body", "formData"]

/-- The types that are imported for their constants, with the names of the constants. -/
def constantTypes : List (String × List String) :=
  [("RestParamType", kindNames), ("CollectionFormat", formatNames)]

theorem takesConstants_kind (a : Argument) : TakesConstants "RestParamType" kindNames a.tokens := by
  cases a with
  | text s => exact takesConstants_of_not_mem (by simp [Argument.tokens])
  | flag b => exact takesConstants_of_not_mem (by simp [Argument.tokens])
  | kind l => exact takesConstants_constant (by cases l <;> decide) (by cases l <;> decide)
  | format f =>
      refine takesConstants_of_not_mem ?_
      cases f <;> decide

theorem takesConstants_format (a : Argument) :
    TakesConstants "CollectionFormat" formatNames a.tokens := by
  cases a with
  | text s => exact takesConstants_of_not_mem (by simp [Argument.tokens])
  | flag b => exact takesConstants_of_not_mem (by simp [Argument.tokens])
  | kind l =>
      refine takesConstants_of_not_mem ?_
      cases l <;> decide
  | format f => exact takesConstants_constant (by cases f <;> decide) (by cases f <;> decide)

theorem mem_tokens_kind_iff (a : Argument) :
    .identifier "RestParamType" ∈ a.tokens ↔ ∃ l, a = .kind l := by
  cases a with
  | text s => simp [Argument.tokens]
  | flag b => simp [Argument.tokens]
  | kind l => simp [Argument.tokens, constantTokens, dottedNames]
  | format f =>
      cases f <;> simp [Argument.tokens, constantTokens, dottedNames, CollectionFormat.name]

theorem mem_tokens_format_iff (a : Argument) :
    .identifier "CollectionFormat" ∈ a.tokens ↔ ∃ f, a = .format f := by
  cases a with
  | text s => simp [Argument.tokens]
  | flag b => simp [Argument.tokens]
  | kind l => cases l <;> simp [Argument.tokens, constantTokens, dottedNames, Location.name]
  | format f => simp [Argument.tokens, constantTokens, dottedNames]

section Words

variable {t : Token} (hseparator : ∀ c, t ≠ .separator c)

include hseparator

/-- A word stands in arguments if it stands in one of them. -/
theorem mem_argumentTokens_iff (arguments : List (List Token)) :
    t ∈ argumentTokens arguments ↔ ∃ a ∈ arguments, t ∈ a := by
  have hinner : t ∈ (arguments.intersperse [.separator ',']).flatten ↔ ∃ a ∈ arguments, t ∈ a := by
    induction arguments with
    | nil => simp
    | cons a arguments ih =>
        cases arguments with
        | nil => simp
        | cons b arguments =>
            rw [List.intersperse_cons_cons, List.flatten_cons, List.flatten_cons, List.mem_append,
              List.mem_append, ih]
            simp [hseparator]
  simp [argumentTokens, hseparator, hinner]

theorem mem_call_iff {c : Call} (hmethod : t ≠ .identifier c.method) :
    t ∈ c.tokens ↔ ∃ a ∈ c.arguments, t ∈ a.tokens := by
  simp [Call.tokens, callTokens, hseparator, hmethod, mem_argumentTokens_iff hseparator]

/-- A word that is none of the methods stands in a statement if it stands in an argument. -/
theorem mem_statement_iff (htext : ∀ text, t ≠ .text text) {s : Statement}
    (hmethods : ∀ method ∈ s.methods, t ≠ .identifier method) :
    t ∈ s.tokens ↔ ∃ a ∈ s.arguments, t ∈ a.tokens := by
  simp only [Statement.methods, List.forall_mem_append, List.forall_mem_cons, List.forall_mem_map,
    List.not_mem_nil, false_imp_iff, implies_true, and_true] at hmethods
  obtain ⟨⟨hrest, hcalls⟩, hlast⟩ := hmethods
  have hbase : t ∉ argumentTokens (s.base.toList.map fun b => [.text b]) := by
    rw [mem_argumentTokens_iff hseparator]
    simp [htext]
  have hall : t ∈ s.calls.flatMap Call.tokens ↔
      ∃ a ∈ s.calls.flatMap Call.arguments, t ∈ a.tokens := by
    simp only [List.mem_flatMap]
    constructor
    · rintro ⟨c, hc, ht⟩
      obtain ⟨a, ha, ht⟩ := (mem_call_iff hseparator (hcalls c hc)).mp ht
      exact ⟨a, ⟨c, hc, ha⟩, ht⟩
    · rintro ⟨a, ⟨c, hc, ha⟩, ht⟩
      exact ⟨c, hc, (mem_call_iff hseparator (hcalls c hc)).mpr ⟨a, ha, ht⟩⟩
  simp only [Statement.tokens, List.mem_append, List.mem_singleton, hrest, hbase, hall,
    mem_call_iff hseparator hlast, hseparator, false_or, or_false, Statement.arguments,
    or_and_right, exists_or]

end Words

/-! ## Statements -/

theorem calls_ofRule (basePath : Option String) (r : Rule) :
    (Statement.ofRule basePath r).calls = ownCalls r ++ r.params.flatMap paramCalls := rfl

/-- The methods that the statement for a rule may call. -/
def ruleMethods (m : Method) : List String :=
  "rest" :: (m.verb :: routeMethods ++ "param" :: paramMethods) ++ ["to"]

theorem methods_ofRule_subset (basePath : Option String) (r : Rule) :
    (Statement.ofRule basePath r).methods ⊆ ruleMethods r.method := by
  have hcalls : (Statement.ofRule basePath r).calls.map Call.method ⊆
      r.method.verb :: routeMethods ++ "param" :: paramMethods := by
    rw [calls_ofRule, List.map_append, List.append_subset]
    constructor
    · exact List.subset_append_of_subset_left _ (methods_ownCalls_sublist r).subset
    · refine List.subset_append_of_subset_right _ fun method hmethod => ?_
      rw [List.map_flatMap] at hmethod
      obtain ⟨p, -, hp⟩ := List.mem_flatMap.mp hmethod
      exact (methods_paramCalls_sublist p).subset hp
  exact List.append_subset.mpr ⟨List.subset_append_of_subset_left _
    (List.cons_subset_cons "rest" hcalls), List.subset_append_right _ ["to"]⟩

/-- No method has the name of a type that is imported for its constants. -/
theorem not_mem_ruleMethods (m : Method) :
    "RestParamType" ∉ ruleMethods m ∧ "CollectionFormat" ∉ ruleMethods m := by
  cases m <;> decide

section Arguments

variable {a : Argument} (ha : ∀ t, a ≠ .text t)

include ha

theorem not_mem_arguments_ofText? (level : Nat) (method : String) (text : Option String) :
    a ∉ (Call.ofText? level method text).flatMap Call.arguments := by
  unfold Call.ofText?
  split
  · exact List.not_mem_nil
  · split
    · exact List.not_mem_nil
    · simpa using ha _

/-- Of a parameter its kind is shown, whether it is required, and its format if there is a constant
for that; all else is texts. -/
theorem mem_arguments_paramCalls_iff (p : Param) :
    a ∈ (paramCalls p).flatMap Call.arguments ↔ a = .kind p.location ∨ a = .flag p.required ∨
      ∃ f, CollectionFormat.ofParam? p = some f ∧ a = .format f := by
  have hallowed : a ∉ (if p.allowed.isEmpty then [] else
      [(⟨5, "allowableValues", p.allowed.map .text⟩ : Call)]).flatMap Call.arguments := by
    split
    · simp
    · simpa using fun t _ => (ha t).symm
  simp only [paramCalls, List.flatMap_append, List.mem_append, not_mem_arguments_ofText? ha,
    hallowed, or_false]
  cases CollectionFormat.ofParam? p with
  | none => simp [ha]
  | some f => simp [ha, or_assoc]

/-- What a statement is given besides texts is what its parameters show. -/
theorem mem_arguments_ofRule_iff (basePath : Option String) (r : Rule) :
    a ∈ (Statement.ofRule basePath r).arguments ↔
      ∃ p ∈ r.params, a ∈ (paramCalls p).flatMap Call.arguments := by
  have hown : a ∉ (ownCalls r).flatMap Call.arguments := by
    simp only [ownCalls, List.flatMap_append, List.mem_append, not_mem_arguments_ofText? ha,
      or_false]
    simpa using ha r.path
  have hlast : a ∉ (Statement.ofRule basePath r).last.arguments := by
    simpa [Statement.ofRule] using ha r.destination
  simp only [Statement.arguments, calls_ofRule, List.flatMap_append, List.mem_append, hown, hlast,
    false_or, or_false, List.flatMap_assoc]
  exact List.mem_flatMap

end Arguments

/-! ## Constants of statements -/

section Statements

variable {type : String} {r : Rule} (hmethods : type ∉ ruleMethods r.method)
  (basePath : Option String)

include hmethods

theorem identifier_mem_statementTokens_iff :
    .identifier type ∈ statementTokens basePath r ↔
      ∃ a ∈ (Statement.ofRule basePath r).arguments, .identifier type ∈ a.tokens := by
  rw [← statementTokens_eq]
  refine mem_statement_iff (by simp) (by simp) fun method hmethod heq => ?_
  rw [← Token.identifier.inj heq] at hmethod
  exact hmethods (methods_ofRule_subset basePath r hmethod)

theorem takesConstants_statementTokens {names : List String}
    (h : ∀ a : Argument, TakesConstants type names a.tokens) :
    TakesConstants type names (statementTokens basePath r) := by
  rw [← statementTokens_eq]
  exact takesConstants_statement (fun h => hmethods (methods_ofRule_subset basePath r h)) h

end Statements

theorem takesConstants_statementTokens_kind (basePath : Option String) (r : Rule) :
    TakesConstants "RestParamType" kindNames (statementTokens basePath r) :=
  takesConstants_statementTokens (not_mem_ruleMethods r.method).1 basePath takesConstants_kind

theorem takesConstants_statementTokens_format (basePath : Option String) (r : Rule) :
    TakesConstants "CollectionFormat" formatNames (statementTokens basePath r) :=
  takesConstants_statementTokens (not_mem_ruleMethods r.method).2 basePath takesConstants_format

/-- A statement takes a constant for the kind of each of its parameters. -/
theorem hasConstant_kind_iff (basePath : Option String) (r : Rule) :
    HasConstant "RestParamType" (statementTokens basePath r) ↔ r.params ≠ [] := by
  rw [(takesConstants_statementTokens_kind basePath r).hasConstant_iff,
    identifier_mem_statementTokens_iff (not_mem_ruleMethods r.method).1]
  simp only [mem_tokens_kind_iff]
  constructor
  · rintro ⟨_, ha, l, rfl⟩
    obtain ⟨p, hp, -⟩ := (mem_arguments_ofRule_iff (by simp) basePath r).mp ha
    exact List.ne_nil_of_mem hp
  · intro hparams
    obtain ⟨p, hp⟩ := List.exists_mem_of_ne_nil r.params hparams
    have hkind := (mem_arguments_paramCalls_iff (a := .kind p.location) (by simp) p).mpr (.inl rfl)
    exact ⟨.kind p.location, (mem_arguments_ofRule_iff (by simp) basePath r).mpr ⟨p, hp, hkind⟩,
      p.location, rfl⟩

/-- A statement takes a constant for the format of each parameter that has one. -/
theorem hasConstant_format_iff (basePath : Option String) (r : Rule) :
    HasConstant "CollectionFormat" (statementTokens basePath r) ↔
      ∃ p ∈ r.params, formatName? p ≠ none := by
  rw [(takesConstants_statementTokens_format basePath r).hasConstant_iff,
    identifier_mem_statementTokens_iff (not_mem_ruleMethods r.method).2]
  simp only [mem_tokens_format_iff, ← map_name_ofParam?, ne_eq, Option.map_eq_none_iff]
  constructor
  · rintro ⟨_, ha, f, rfl⟩
    obtain ⟨p, hp, hformat⟩ := (mem_arguments_ofRule_iff (by simp) basePath r).mp ha
    refine ⟨p, hp, fun hnone => ?_⟩
    simpa [hnone] using (mem_arguments_paramCalls_iff (by simp) p).mp hformat
  · rintro ⟨p, hp, hsome⟩
    obtain ⟨f, hf⟩ := Option.ne_none_iff_exists'.mp hsome
    have hformat := (mem_arguments_paramCalls_iff (a := .format f) (by simp) p).mpr
      (.inr (.inr ⟨f, hf, rfl⟩))
    exact ⟨.format f, (mem_arguments_ofRule_iff (by simp) basePath r).mpr ⟨p, hp, hformat⟩, f, rfl⟩

/-! ## Imports -/

/-- How often tokens stand in a row among others. -/
def occurrences (ts us : List Token) : Nat :=
  us.tails.countP fun rest => ts <+: rest

theorem occurrences_cons (ts : List Token) (u : Token) (us : List Token) :
    occurrences ts (u :: us) = occurrences ts us + if ts <+: u :: us then 1 else 0 := by
  simp [occurrences, List.countP_cons]

/-- What begins with a token does not begin where that token does not stand. -/
theorem occurrences_append_of_not_mem {t : Token} {ts front : List Token} (h : t ∉ front)
    (us : List Token) : occurrences (t :: ts) (front ++ us) = occurrences (t :: ts) us := by
  induction front with
  | nil => rfl
  | cons u front ih =>
      rw [List.mem_cons, not_or] at h
      rw [List.cons_append, occurrences_cons, ih h.2, if_neg, Nat.add_zero]
      exact fun hprefix => h.1 (List.cons_prefix_cons.mp hprefix).1

theorem occurrences_eq_zero {t : Token} {ts us : List Token} (h : t ∉ us) :
    occurrences (t :: ts) us = 0 := by
  have happend : occurrences (t :: ts) (us ++ []) = occurrences (t :: ts) [] :=
    occurrences_append_of_not_mem h []
  rw [List.append_nil] at happend
  exact happend.trans (by simp [occurrences])

theorem reserved_not_mem_dottedNames (word : String) (names : List String) :
    .reserved word ∉ dottedNames names := by
  induction names with
  | nil => exact List.not_mem_nil
  | cons name names ih =>
      cases names with
      | nil => simp [dottedNames]
      | cons next names => simpa [dottedNames] using ih

/-- Names with points between them and a mark behind them begin only where the same names stand. -/
theorem dottedNames_isPrefix_iff (names others : List String) (us : List Token) :
    dottedNames names ++ [.separator ';'] <+: dottedNames others ++ .separator ';' :: us ↔
      names = others := by
  induction names generalizing others with
  | nil => rcases others with _ | ⟨other, _ | ⟨next, others⟩⟩ <;> simp [dottedNames]
  | cons name names ih =>
      cases names with
      | nil => rcases others with _ | ⟨other, _ | ⟨next, others⟩⟩ <;> simp [dottedNames]
      | cons next names =>
          rcases others with _ | ⟨other, _ | ⟨following, others⟩⟩
          · simp [dottedNames]
          · simp [dottedNames]
          · simpa [dottedNames] using fun _ => ih (following :: others)

/-- An import stands where it is made, and nowhere in another. -/
theorem occurrences_importTokens_append (names other : List String) (us : List Token) :
    occurrences (importTokens names) (importTokens other ++ us) =
      occurrences (importTokens names) us + if other = names then 1 else 0 := by
  have hword : Token.reserved "import" ∉ dottedNames other ++ [.separator ';'] := by
    simpa using reserved_not_mem_dottedNames "import" other
  have hcons (names : List String) : importTokens names =
      .reserved "import" :: (dottedNames names ++ [.separator ';']) := rfl
  rw [hcons, hcons, List.cons_append, occurrences_cons, occurrences_append_of_not_mem hword]
  congr 1
  simp [dottedNames_isPrefix_iff, eq_comm]

/-- Among imports each stands as often as it is made. -/
theorem occurrences_flatMap_importTokens (names : List String) (imports : List (List String))
    (us : List Token) :
    occurrences (importTokens names) (imports.flatMap importTokens ++ us) =
      occurrences (importTokens names) us + imports.count names := by
  induction imports with
  | nil => rfl
  | cons other imports ih =>
      rw [List.flatMap_cons, List.append_assoc, occurrences_importTokens_append, ih,
        List.count_cons, Nat.add_assoc]
      simp

/-- The imports for rules. -/
def imports (rules : List Rule) : List (List String) :=
  [["javax", "annotation", "Generated"], ["org", "apache", "camel", "builder", "RouteBuilder"]] ++
  (if ∃ r ∈ rules, ∃ p ∈ r.params, formatName? p ≠ none then
    [["org", "apache", "camel", "model", "rest", "CollectionFormat"]] else []) ++
  (if ∃ r ∈ rules, r.params ≠ [] then
    [["org", "apache", "camel", "model", "rest", "RestParamType"]] else [])

theorem import_not_mem_statementTokens (basePath : Option String) (r : Rule) :
    .reserved "import" ∉ statementTokens basePath r := by
  rw [← statementTokens_eq, mem_statement_iff (by simp) (by simp) (by simp)]
  rintro ⟨a, -, ha⟩
  cases a with
  | text s => simp [Argument.tokens] at ha
  | flag b => cases b <;> simp [Argument.tokens] at ha
  | kind l => exact reserved_not_mem_dottedNames "import" _ ha
  | format f => exact reserved_not_mem_dottedNames "import" _ ha

/-- The tokens of a source in front of its imports. -/
def packageTokens (l : Layout) : List Token :=
  [.reserved "package"] ++ dottedNames ((Naming.segments l.packageName).map String.ofList) ++
  [.separator ';']

/-- The tokens of a source between its imports and its method. -/
def classTokens (l : Layout) : List Token :=
  [.separator '@', .identifier "Generated", .separator '(', .text "restdsl-java", .separator ')',
    .reserved "public", .reserved "final", .reserved "class", .identifier l.className,
    .reserved "extends", .identifier "RouteBuilder", .separator '\x7b']

/-- The imports of a source stand in one place. -/
theorem sourceTokens_eq_imports (l : Layout) (rules : List Rule) :
    sourceTokens l rules = packageTokens l ++
      ((imports rules).flatMap importTokens ++ (classTokens l ++ methodTokens l rules)) := by
  simp only [sourceTokens, headerTokens, imports, packageTokens, classTokens]
  split <;> split <;> simp

/-- In a source an import stands as often as the rules call for it: its keyword is nowhere else. -/
theorem occurrences_sourceTokens (names : List String) (l : Layout) (rules : List Rule) :
    occurrences (importTokens names) (sourceTokens l rules) = (imports rules).count names := by
  have hfront : .reserved "import" ∉ packageTokens l := by
    simpa [packageTokens] using reserved_not_mem_dottedNames "import" _
  have hback : .reserved "import" ∉ classTokens l ++ methodTokens l rules := by
    simpa [classTokens, methodTokens] using
      fun r _ => import_not_mem_statementTokens l.basePath r
  rw [sourceTokens_eq_imports]
  generalize classTokens l ++ methodTokens l rules = back at hback ⊢
  calc occurrences (importTokens names)
        (packageTokens l ++ ((imports rules).flatMap importTokens ++ back))
      = occurrences (importTokens names) ((imports rules).flatMap importTokens ++ back) :=
        occurrences_append_of_not_mem hfront _
    _ = occurrences (importTokens names) back + (imports rules).count names :=
        occurrences_flatMap_importTokens names (imports rules) back
    _ = (imports rules).count names := by
        rw [importTokens, List.append_assoc, List.singleton_append, occurrences_eq_zero hback,
          Nat.zero_add]

/-- With a qualified package name, an identifier for a class and white indentation a source is read
as its statements in the body of the method.  A type of constants is imported once if a statement
takes a constant of it, and else not at all, and each constant that is taken is one that the type
has. -/
theorem occurrences_import_emit (l : Layout) (rules : List Rule)
    (hp : Naming.isQualifiedName l.packageName = true)
    (hc : Naming.isIdentifier l.className = true)
    (hindent : ∀ c ∈ l.indent.toList, isWhite c = true) :
    ∃ ls front, read (emit l rules) = some ls ∧
      tokens ls = front ++ methodHead ++ rules.flatMap (statementTokens l.basePath) ++
        [.separator '\x7d', .separator '\x7d'] ∧
      ∀ type names, (type, names) ∈ constantTypes →
        occurrences (importTokens ["org", "apache", "camel", "model", "rest", type]) (tokens ls) =
          (if ∃ r ∈ rules, HasConstant type (statementTokens l.basePath r) then 1 else 0) ∧
        ∀ r ∈ rules, TakesConstants type names (statementTokens l.basePath r) := by
  obtain ⟨ls, hread, htokens⟩ := exists_read_sourceTokens hp hc hindent rules
  refine ⟨ls, _, hread, htokens.trans (sourceTokens_eq l rules), fun type names htype => ?_⟩
  rw [htokens, occurrences_sourceTokens]
  simp only [constantTypes, List.mem_cons, Prod.mk.injEq, List.not_mem_nil, or_false] at htype
  rcases htype with ⟨rfl, rfl⟩ | ⟨rfl, rfl⟩
  · refine ⟨?_, fun r _ => takesConstants_statementTokens_kind l.basePath r⟩
    simp only [imports, hasConstant_kind_iff]
    split <;> split <;> rfl
  · refine ⟨?_, fun r _ => takesConstants_statementTokens_format l.basePath r⟩
    simp only [imports, hasConstant_format_iff]
    split <;> split <;> rfl

/-- Names of types in texts call for no import, and neither does a format without a constant. -/
theorem occurrences_import_emit_of_type_names :
    let l : Layout := ⟨"a.RestParamType", "CollectionFormat", "RestParamType.path */ import",
      some "CollectionFormat.csv", " \t"⟩
    let r : Rule := ⟨.get, "/\"RestParamType.path", none, none, ["CollectionFormat.csv"], [], [],
      "direct:a"⟩
    let p : Param := ⟨"CollectionFormat.csv", .query, true, none, none, none, none, [],
      some "CSV", none⟩
    let t : Rule := ⟨.post, "/", none, none, [], [], [p], "direct:b"⟩
    (∀ c ∈ l.indent.toList, isWhite c = true) ∧
      ∃ ls, read (emit l [r, t]) = some ls ∧
        occurrences (importTokens ["org", "apache", "camel", "model", "rest", "RestParamType"])
          (tokens ls) = 1 ∧
        occurrences (importTokens ["org", "apache", "camel", "model", "rest", "CollectionFormat"])
          (tokens ls) = 0 := by
  intro l r p t
  have hindent : ∀ c ∈ l.indent.toList, isWhite c = true := List.all_eq_true.mp (by decide)
  obtain ⟨ls, -, hread, -, himports⟩ :=
    occurrences_import_emit l [r, t] (by decide) (by decide) hindent
  obtain ⟨hkinds, -⟩ := himports "RestParamType" kindNames (by decide)
  obtain ⟨hformats, -⟩ := himports "CollectionFormat" formatNames (by decide)
  refine ⟨hindent, ls, hread, hkinds.trans ?_, hformats.trans ?_⟩
  · simp only [hasConstant_kind_iff]
    decide
  · simp only [hasConstant_format_iff]
    decide

end SwaggerRoutes.Source
