/-
  Proofs/Swagger/Assignment.lean --- what a path declares after operations were set in it.

  A path is told from others by its parameters and by the operations that it lists.  What one
  setting does is said of this listing, and a run of settings by induction on the run: for each
  method the last setting counts, and where there is none what the path declared before.
-/
import SwaggerRoutes.Proofs.Table.OfList
import SwaggerRoutes.Swagger.Operation

set_option autoImplicit false

namespace SwaggerRoutes.Swagger

theorem Method.mem_all (m : Method) : m ∈ all := by
  cases m <;> decide

namespace PathItem

open Table (IsLast)

/-! ## The listing of a path -/

/-- The methods for which a path declares an operation, as it lists them. -/
def methods (p : PathItem) : List Method :=
  p.operations.map Prod.fst

theorem mem_operations_iff (p : PathItem) (m : Method) (o : Operation) :
    (m, o) ∈ p.operations ↔ p.operation? m = some o := by
  unfold operations
  rw [List.mem_filterMap]
  constructor
  · rintro ⟨n, -, h⟩
    obtain ⟨r, hr, heq⟩ := Option.map_eq_some_iff.mp h
    obtain ⟨rfl, rfl⟩ := Prod.mk.inj heq
    exact hr
  · intro h
    refine ⟨m, m.mem_all, ?_⟩
    rw [h, Option.map_some]

theorem mem_methods_iff (p : PathItem) (m : Method) :
    m ∈ p.methods ↔ ∃ o, (m, o) ∈ p.operations := by
  simp [methods]

/-- No method is listed twice, and the order does not depend on the path. -/
theorem methods_eq (p : PathItem) : p.methods = Method.all.filter fun m => m ∈ p.methods := by
  have hdeclared (m : Method) :
      ((p.operation? m).map (m, ·)).map Prod.fst = Option.guard (fun m => m ∈ p.methods) m := by
    have hmem : m ∈ p.methods ↔ ∃ o, p.operation? m = some o := by
      rw [mem_methods_iff]
      exact exists_congr (p.mem_operations_iff m)
    cases h : p.operation? m with
    | none => simp [Option.guard, hmem, h]
    | some o => simp [Option.guard, hmem, h]
  calc p.methods
      = Method.all.filterMap fun m => ((p.operation? m).map (m, ·)).map Prod.fst :=
        List.map_filterMap
    _ = Method.all.filterMap (Option.guard fun m => m ∈ p.methods) :=
        congrArg (fun f => Method.all.filterMap f) (funext hdeclared)
    _ = Method.all.filter fun m => m ∈ p.methods := by
        rw [List.filterMap_eq_filter]

theorem eq_of_operation? {p q : PathItem} (hparameters : p.parameters = q.parameters)
    (h : ∀ m, p.operation? m = q.operation? m) : p = q := by
  cases p
  cases q
  rw [mk.injEq]
  exact ⟨hparameters, h .get, h .put, h .post, h .delete, h .patch, h .head, h .options⟩

/-- Paths with the same parameters and the same listed operations are the same. -/
theorem eq_of_mem_operations_iff {p q : PathItem} (hparameters : p.parameters = q.parameters)
    (h : ∀ m o, (m, o) ∈ p.operations ↔ (m, o) ∈ q.operations) : p = q := by
  apply eq_of_operation? hparameters
  intro m
  apply Option.ext
  intro o
  rw [← mem_operations_iff, ← mem_operations_iff, h]

/-! ## One setting -/

theorem parameters_set (p : PathItem) (m : Method) (o : Operation) :
    (p.set m o).parameters = p.parameters := by
  cases m <;> rfl

/-- The slot that is written for a method is the one that is read for it, and no other. -/
theorem operation?_set (p : PathItem) (m n : Method) (o : Operation) :
    (p.set m o).operation? n = if m = n then some o else p.operation? n := by
  -- Row by row: writing and reading each have a table of the slots of their own.
  cases m <;> cases n <;> rfl

theorem mem_operations_set (p : PathItem) (m n : Method) (o r : Operation) :
    (n, r) ∈ (p.set m o).operations ↔ (m = n ∧ o = r) ∨ (m ≠ n ∧ (n, r) ∈ p.operations) := by
  rw [mem_operations_iff, mem_operations_iff, operation?_set]
  by_cases h : m = n <;> simp [h]

/-- Settings of different methods commute. -/
theorem set_comm (p : PathItem) {m n : Method} (h : m ≠ n) (o r : Operation) :
    (p.set m o).set n r = (p.set n r).set m o := by
  apply eq_of_operation?
  · rw [parameters_set, parameters_set, parameters_set, parameters_set]
  · intro k
    rw [operation?_set, operation?_set, operation?_set, operation?_set]
    by_cases hk : n = k
    · rw [if_pos hk, if_neg fun hm => h (hm.trans hk.symm), if_pos hk]
    · rw [if_neg hk, if_neg hk]

/-! ## Runs of settings -/

/-- Sets the operations of a list, one after another. -/
def setAll (p : PathItem) (es : List (Method × Operation)) : PathItem :=
  es.foldl (fun p e => p.set e.1 e.2) p

theorem setAll_concat (p : PathItem) (es : List (Method × Operation)) (e : Method × Operation) :
    p.setAll (es ++ [e]) = (p.setAll es).set e.1 e.2 := by
  unfold setAll
  rw [List.foldl_append, List.foldl_cons, List.foldl_nil]

theorem parameters_setAll (p : PathItem) (es : List (Method × Operation)) :
    (p.setAll es).parameters = p.parameters := by
  induction es using List.reverseRecOn with
  | nil => rfl
  | append_singleton es e ih => rw [setAll_concat, parameters_set, ih]

/-- For each method the last setting counts, and without one the path keeps what it declared. -/
theorem mem_operations_setAll (p : PathItem) (es : List (Method × Operation)) (m : Method)
    (o : Operation) :
    (m, o) ∈ (p.setAll es).operations ↔
      IsLast es m o ∨ (m ∉ es.map Prod.fst ∧ (m, o) ∈ p.operations) := by
  -- From the end, where the setting stands that overrides those in front of it.
  induction es using List.reverseRecOn with
  | nil => simp [setAll, Table.not_isLast_nil]
  | append_singleton es e ih =>
      rw [setAll_concat, mem_operations_set, Table.isLast_concat, ih, List.map_append,
        List.map_singleton, List.mem_append, List.mem_singleton]
      by_cases h : e.1 = m
      · simp [h]
      · simp [h, Ne.symm h]

theorem mem_methods_setAll (p : PathItem) (es : List (Method × Operation)) (m : Method) :
    m ∈ (p.setAll es).methods ↔ m ∈ p.methods ∨ m ∈ es.map Prod.fst := by
  rw [mem_methods_iff, mem_methods_iff]
  constructor
  · rintro ⟨o, ho⟩
    rcases (p.mem_operations_setAll es m o).mp ho with hlast | ⟨-, hold⟩
    · exact .inr ((Table.exists_isLast_iff es m).mp ⟨o, hlast⟩)
    · exact .inl ⟨o, hold⟩
  · intro h
    by_cases hm : m ∈ es.map Prod.fst
    · obtain ⟨o, hlast⟩ := (Table.exists_isLast_iff es m).mpr hm
      exact ⟨o, (p.mem_operations_setAll es m o).mpr (.inl hlast)⟩
    · obtain ⟨o, hold⟩ := h.resolve_right hm
      exact ⟨o, (p.mem_operations_setAll es m o).mpr (.inr ⟨hm, hold⟩)⟩

/-- What settings make of a path: it lists the methods that it declared before and those that were
set, each of them once and in one order, with the operation that was set last for the method or
else the one declared before.  Its parameters stay. -/
structure Becomes (p : PathItem) (es : List (Method × Operation)) (q : PathItem) : Prop where
  parameters : q.parameters = p.parameters
  methods : q.methods =
    [Method.get, .put, .post, .delete, .patch, .head, .options].filter fun m =>
      m ∈ p.methods ∨ m ∈ es.map Prod.fst
  mem_operations_iff : ∀ m o, (m, o) ∈ q.operations ↔
    IsLast es m o ∨ (m ∉ es.map Prod.fst ∧ (m, o) ∈ p.operations)

theorem becomes_setAll (p : PathItem) (es : List (Method × Operation)) :
    p.Becomes es (p.setAll es) where
  parameters := p.parameters_setAll es
  methods := by
    refine (p.setAll es).methods_eq.trans (List.filter_congr fun m _ => ?_)
    exact decide_eq_decide.mpr (p.mem_methods_setAll es m)
  mem_operations_iff := p.mem_operations_setAll es

/-- Settings make of a path only one. -/
theorem Becomes.unique {p q r : PathItem} {es : List (Method × Operation)} (hq : p.Becomes es q)
    (hr : p.Becomes es r) : q = r := by
  apply eq_of_mem_operations_iff (hq.parameters.trans hr.parameters.symm)
  intro m o
  rw [hq.mem_operations_iff, hr.mem_operations_iff]

/-- Settings may be put into any order that keeps the settings of each method in theirs. -/
theorem setAll_eq_of_filter_eq (p : PathItem) {es fs : List (Method × Operation)}
    (h : ∀ m, (fs.filter fun e => e.1 = m) = es.filter fun e => e.1 = m) :
    p.setAll fs = p.setAll es := by
  have hlast (m : Method) (o : Operation) : IsLast fs m o ↔ IsLast es m o := by
    rw [← Table.isLast_filter_iff fs, h, Table.isLast_filter_iff]
  have hmethods (m : Method) : m ∈ fs.map Prod.fst ↔ m ∈ es.map Prod.fst := by
    rw [← Table.exists_isLast_iff, ← Table.exists_isLast_iff]
    exact exists_congr (hlast m)
  apply eq_of_mem_operations_iff
  · rw [parameters_setAll, parameters_setAll]
  · intro m o
    rw [mem_operations_setAll, mem_operations_setAll, hlast, hmethods]

/-- However often operations are set in a path, it lists afterwards each method that it declared
before or that was set, once and in the order of the listing, with the operation that was set last
for it, or the one declared before where none was set; the parameters stay as they were.  Settings
of different methods commute, so that of a run only the order within each method matters. -/
theorem setAll_eq_iff (p : PathItem) (es : List (Method × Operation)) :
    (∀ q, p.setAll es = q ↔ p.Becomes es q) ∧
    (∀ m n o r, m ≠ n → (p.set m o).set n r = (p.set n r).set m o) ∧
    ∀ fs, (∀ m, (fs.filter fun e => e.1 = m) = es.filter fun e => e.1 = m) →
      p.setAll fs = p.setAll es := by
  refine ⟨fun q => ⟨?_, ?_⟩, fun m n o r h => p.set_comm h o r, fun fs h => ?_⟩
  · rintro rfl
    exact p.becomes_setAll es
  · intro h
    exact (p.becomes_setAll es).unique h
  · exact p.setAll_eq_of_filter_eq h

/-- A path with two methods; one of them is set twice, and another in between. -/
theorem setAll_eq_iff_of_overwritten :
    let o (id : String) : Operation := { Operation.blank with operationId := some id }
    let p : PathItem := { PathItem.blank with
      parameters := [.reference "p"], put := some (o "a"), head := some (o "b") }
    let es : List (Method × Operation) := [(.put, o "c"), (.get, o "d"), (.put, o "e")]
    let fs : List (Method × Operation) := [(.get, o "d"), (.put, o "c"), (.put, o "e")]
    p.Becomes es { p with get := some (o "d"), put := some (o "e") } ∧
      Method.put ≠ .get ∧
      (p.set .put (o "c")).set .get (o "d") = (p.set .get (o "d")).set .put (o "c") ∧
      (∀ m, (fs.filter fun e => e.1 = m) = es.filter fun e => e.1 = m) ∧
      p.setAll fs = p.setAll es := by
  intro o p es fs
  obtain ⟨hbecomes, hcomm, horder⟩ := p.setAll_eq_iff es
  have hne : Method.put ≠ .get := by decide
  have hsame (m : Method) : (fs.filter fun e => e.1 = m) = es.filter fun e => e.1 = m := by
    cases m <;> rfl
  exact ⟨(hbecomes _).mp rfl, hne, hcomm _ _ _ _ hne, hsame, horder fs hsame⟩

end PathItem

end SwaggerRoutes.Swagger
