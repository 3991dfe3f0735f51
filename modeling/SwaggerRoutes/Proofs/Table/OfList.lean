/-
  Proofs/Table/OfList.lean --- tables made of lists.

  A table that is made of a list keeps its keys in the order in which they are first given, and for
  each key the value that is given last.  `IsLast` says of a value, without a table, that it is the
  last one.
-/
import Mathlib.Data.List.Basic
import Mathlib.Data.List.Induction
import SwaggerRoutes.Table

set_option autoImplicit false

namespace SwaggerRoutes.Table

variable {κ α : Type}

/-! ## Last entries -/

/-- A value is the last one that a list gives to a key. -/
def IsLast (es : List (κ × α)) (k : κ) (a : α) : Prop :=
  ∃ before after, es = before ++ (k, a) :: after ∧ k ∉ after.map Prod.fst

theorem not_isLast_nil (k : κ) (a : α) : ¬ IsLast [] k a := by
  rintro ⟨before, after, h, -⟩
  exact absurd h.symm (by simp)

/-- The last entry settles its own key, and no other one. -/
theorem isLast_concat (es : List (κ × α)) (e : κ × α) (k : κ) (a : α) :
    IsLast (es ++ [e]) k a ↔ (e.1 = k ∧ e.2 = a) ∨ (e.1 ≠ k ∧ IsLast es k a) := by
  obtain ⟨l, b⟩ := e
  constructor
  · rintro ⟨before, after, h, hk⟩
    rcases List.eq_nil_or_concat after with rfl | ⟨after, e', rfl⟩
    · obtain ⟨-, heq⟩ := List.append_inj' h rfl
      obtain ⟨rfl, rfl⟩ := Prod.mk.inj (List.singleton_inj.mp heq)
      exact .inl ⟨rfl, rfl⟩
    · rw [List.concat_eq_append, ← List.cons_append, ← List.append_assoc] at h
      obtain ⟨heq, hlast⟩ := List.append_inj' h rfl
      obtain rfl := List.singleton_inj.mp hlast
      rw [List.concat_eq_append, List.map_append, List.mem_append, not_or] at hk
      exact .inr ⟨fun hl => hk.2 (List.mem_singleton.mpr hl.symm), before, after, heq, hk.1⟩
  · rintro (⟨rfl, rfl⟩ | ⟨hne, before, after, rfl, hk⟩)
    · exact ⟨es, [], rfl, List.not_mem_nil⟩
    · refine ⟨before, after ++ [(l, b)], by simp, ?_⟩
      rw [List.map_append, List.mem_append, not_or]
      exact ⟨hk, by simpa using Ne.symm hne⟩

/-- A key has a last value if it has any. -/
theorem exists_isLast_iff (es : List (κ × α)) (k : κ) :
    (∃ a, IsLast es k a) ↔ k ∈ es.map Prod.fst := by
  induction es using List.reverseRecOn with
  | nil =>
      apply iff_of_false
      · rintro ⟨a, h⟩
        exact not_isLast_nil k a h
      · exact List.not_mem_nil
  | append_singleton es e ih =>
      rw [List.map_append, List.map_singleton, List.mem_append, List.mem_singleton, ← ih]
      constructor
      · rintro ⟨a, h⟩
        rcases (isLast_concat es e k a).mp h with ⟨hk, -⟩ | ⟨-, h⟩
        · exact .inr hk.symm
        · exact .inl ⟨a, h⟩
      · intro h
        by_cases hk : e.1 = k
        · exact ⟨e.2, (isLast_concat es e k e.2).mpr (.inl ⟨hk, rfl⟩)⟩
        · obtain ⟨a, ha⟩ := h.resolve_right (Ne.symm hk)
          exact ⟨a, (isLast_concat es e k a).mpr (.inr ⟨hk, ha⟩)⟩

variable [DecidableEq κ]

/-- Which value is the last for a key is settled by the entries of this key. -/
theorem isLast_filter_iff (es : List (κ × α)) (k : κ) (a : α) :
    IsLast (es.filter fun e => e.1 = k) k a ↔ IsLast es k a := by
  induction es using List.reverseRecOn with
  | nil => rfl
  | append_singleton es e ih =>
      rw [List.filter_append, isLast_concat, ← ih]
      by_cases hk : e.1 = k
      · have hkept : ([e].filter fun e => e.1 = k) = [e] := by simp [hk]
        rw [hkept, isLast_concat]
      · have hdropped : ([e].filter fun e => e.1 = k) = [] := by simp [hk]
        rw [hdropped, List.append_nil]
        simp [hk]

/-! ## Tables made of lists -/

/-- The keys in their order. -/
def keys (t : Table κ α) : List κ :=
  t.entries.map Prod.fst

theorem keys_insert (t : Table κ α) (k : κ) (a : α) :
    (t.insert k a).keys = if k ∈ t.keys then t.keys else t.keys ++ [k] :=
  keys_putEntry k a t.entries

theorem mem_entries_iff (t : Table κ α) (k : κ) (a : α) :
    (k, a) ∈ t.entries ↔ t.get? k = some a := by
  obtain ⟨es, hdistinct⟩ := t
  change (k, a) ∈ es ↔ valueOf? k es = some a
  induction es with
  | nil => simp [valueOf?]
  | cons e es ih =>
      obtain ⟨l, b⟩ := e
      obtain ⟨hl, hrest⟩ := List.nodup_cons.mp hdistinct
      rw [List.mem_cons, ih hrest, valueOf?]
      by_cases hk : l = k
      · subst hk
        have hnone : valueOf? l es ≠ some a := fun h =>
          hl (List.mem_map.mpr ⟨(l, a), (ih hrest).mpr h, rfl⟩)
        simp [hnone, eq_comm]
      · simp [hk, Ne.symm hk]

theorem ofList_append (es fs : List (κ × α)) :
    ofList (es ++ fs) = fs.foldl (fun t e => t.insert e.1 e.2) (ofList es) :=
  List.foldl_append

/-- Keys stay where they are when more entries are given. -/
theorem keys_prefix_keys_foldl (fs : List (κ × α)) (t : Table κ α) :
    t.keys <+: (fs.foldl (fun t e => t.insert e.1 e.2) t).keys := by
  induction fs generalizing t with
  | nil => exact List.prefix_rfl
  | cons f fs ih =>
      refine List.IsPrefix.trans ?_ (ih (t.insert f.1 f.2))
      rw [keys_insert]
      split
      · exact List.prefix_rfl
      · exact List.prefix_append t.keys [f.1]

theorem mem_keys_ofList (es : List (κ × α)) (k : κ) :
    k ∈ (ofList es).keys ↔ k ∈ es.map Prod.fst := by
  induction es using List.reverseRecOn with
  | nil => rfl
  | append_singleton es e ih =>
      rw [ofList_append, List.foldl_cons, List.foldl_nil, keys_insert, List.map_append,
        List.mem_append, ← ih]
      split
      · next he =>
        refine ⟨.inl, fun h => h.elim id fun hk => ?_⟩
        rwa [List.mem_singleton.mp hk]
      · simp

/-- The keys stand in the order in which they are first given. -/
theorem pairwise_keys_ofList [BEq κ] [LawfulBEq κ] (es : List (κ × α)) :
    (ofList es).keys.Pairwise fun k l =>
      (es.map Prod.fst).idxOf k < (es.map Prod.fst).idxOf l := by
  induction es using List.reverseRecOn with
  | nil => exact .nil
  | append_singleton es e ih =>
      have hold : ∀ k ∈ (ofList es).keys, (es.map Prod.fst ++ [e.1]).idxOf k =
          (es.map Prod.fst).idxOf k := fun k hk =>
        List.idxOf_append_of_mem ((mem_keys_ofList es k).mp hk)
      have hkept : (ofList es).keys.Pairwise fun k l =>
          (es.map Prod.fst ++ [e.1]).idxOf k < (es.map Prod.fst ++ [e.1]).idxOf l := by
        refine List.Pairwise.imp_of_mem (fun {k l} hk hl h => ?_) ih
        rwa [hold k hk, hold l hl]
      rw [ofList_append, List.foldl_cons, List.foldl_nil, keys_insert, List.map_append,
        List.map_singleton]
      split
      · exact hkept
      · next hnew =>
        refine List.pairwise_append.mpr ⟨hkept, List.pairwise_singleton _ _, fun k hk l hl => ?_⟩
        obtain rfl := List.mem_singleton.mp hl
        rw [mem_keys_ofList] at hnew
        rw [hold k hk, List.idxOf_append_of_notMem hnew]
        have hlt := List.idxOf_lt_length_iff.mpr ((mem_keys_ofList es k).mp hk)
        omega

/-- The value of a key is the one that is given last. -/
theorem get?_ofList_eq_some_iff (es : List (κ × α)) (k : κ) (a : α) :
    (ofList es).get? k = some a ↔ IsLast es k a := by
  induction es using List.reverseRecOn with
  | nil => exact iff_of_false (by simp [ofList, get?_empty]) (not_isLast_nil k a)
  | append_singleton es e ih =>
      rw [ofList_append, List.foldl_cons, List.foldl_nil, get?_insert, isLast_concat, ← ih]
      by_cases hk : e.1 = k <;> simp [hk]

/-- A key has one last value at most. -/
theorem IsLast.unique {es : List (κ × α)} {k : κ} {a b : α} (ha : IsLast es k a)
    (hb : IsLast es k b) : a = b := by
  rw [← get?_ofList_eq_some_iff] at ha hb
  exact Option.some.inj (ha.symm.trans hb)

end SwaggerRoutes.Table
