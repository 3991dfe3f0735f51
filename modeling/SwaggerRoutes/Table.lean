/-
  Table.lean --- entries in the order in which their keys were first given.

  Giving a key again replaces the value and leaves the entry where it is, so the keys of a table are
  distinct and their order is that of first occurrence.
-/

set_option autoImplicit false

namespace SwaggerRoutes

/-! ## Entries -/

/-- Replaces the value of a key that is there, or adds an entry at the end. -/
def putEntry {κ α : Type} [DecidableEq κ] (k : κ) (a : α) : List (κ × α) → List (κ × α)
  | [] => [(k, a)]
  | (k', a') :: rest => if k' = k then (k', a) :: rest else (k', a') :: putEntry k a rest

theorem keys_putEntry {κ α : Type} [DecidableEq κ] (k : κ) (a : α) (es : List (κ × α)) :
    (putEntry k a es).map Prod.fst =
      if k ∈ es.map Prod.fst then es.map Prod.fst else es.map Prod.fst ++ [k] := by
  induction es with
  | nil => simp [putEntry]
  | cons e rest ih =>
    obtain ⟨k', a'⟩ := e
    by_cases h : k' = k
    · simp [putEntry, h]
    · have h' : ¬ k = k' := fun e => h e.symm
      simp only [putEntry, if_neg h, List.map_cons, ih, List.mem_cons, h', false_or]
      split <;> simp

theorem nodup_keys_putEntry {κ α : Type} [DecidableEq κ] (k : κ) (a : α) {es : List (κ × α)}
    (h : (es.map Prod.fst).Nodup) : ((putEntry k a es).map Prod.fst).Nodup := by
  rw [keys_putEntry]
  split
  · exact h
  · next hk =>
    rw [List.nodup_append]
    refine ⟨h, by simp, ?_⟩
    intro x hx y hy hxy
    simp only [List.mem_singleton] at hy
    exact hk (hy ▸ hxy ▸ hx)

/-- The value of a key. -/
def valueOf? {κ α : Type} [DecidableEq κ] (k : κ) : List (κ × α) → Option α
  | [] => none
  | (k', a) :: rest => if k' = k then some a else valueOf? k rest

theorem valueOf?_putEntry {κ α : Type} [DecidableEq κ] (k k' : κ) (a : α) (es : List (κ × α)) :
    valueOf? k' (putEntry k a es) = if k = k' then some a else valueOf? k' es := by
  induction es with
  | nil => rfl
  | cons e rest ih =>
    obtain ⟨l, b⟩ := e
    by_cases hl : l = k
    · subst hl
      by_cases h : l = k' <;> simp [putEntry, valueOf?, h]
    · by_cases h : l = k'
      · subst h
        have h' : ¬ k = l := fun e => hl e.symm
        simp [putEntry, valueOf?, hl, h']
      · simp [putEntry, valueOf?, hl, h, ih]

theorem valueOf?_filter {κ α : Type} [DecidableEq κ] (p : κ → Bool) (k : κ) (es : List (κ × α)) :
    valueOf? k (es.filter fun e => p e.1) = if p k then valueOf? k es else none := by
  induction es with
  | nil => simp [valueOf?]
  | cons e rest ih =>
    obtain ⟨l, b⟩ := e
    by_cases h : l = k
    · subst h
      cases hp : p l <;> simp_all [valueOf?]
    · cases hp : p l <;> simp [valueOf?, hp, h, ih]

/-! ## Tables -/

/-- Entries with distinct keys. -/
structure Table (κ α : Type) where
  /-- The entries in the order of first occurrence of their keys. -/
  entries : List (κ × α)
  /-- No key occurs twice. -/
  distinct : (entries.map Prod.fst).Nodup

namespace Table

variable {κ α : Type}

@[ext] theorem ext {s t : Table κ α} (h : s.entries = t.entries) : s = t := by
  cases s; cases t; cases h; rfl

instance [DecidableEq κ] [DecidableEq α] : DecidableEq (Table κ α) := fun s t =>
  decidable_of_iff (s.entries = t.entries) ⟨ext, fun h => h ▸ rfl⟩

/-- The table without entries. -/
def empty : Table κ α := ⟨[], by simp⟩

instance : Inhabited (Table κ α) := ⟨empty⟩

/-- Gives a key a value. -/
def insert [DecidableEq κ] (t : Table κ α) (k : κ) (a : α) : Table κ α :=
  ⟨putEntry k a t.entries, nodup_keys_putEntry k a t.distinct⟩

/-- The table that a list of entries gives when they are inserted in order. -/
def ofList [DecidableEq κ] (es : List (κ × α)) : Table κ α :=
  es.foldl (fun t e => t.insert e.1 e.2) empty

/-- The value of a key. -/
def get? [DecidableEq κ] (t : Table κ α) (k : κ) : Option α :=
  valueOf? k t.entries

theorem get?_empty [DecidableEq κ] (k : κ) : (empty : Table κ α).get? k = none := rfl

theorem get?_insert [DecidableEq κ] (t : Table κ α) (k k' : κ) (a : α) :
    (t.insert k a).get? k' = if k = k' then some a else t.get? k' :=
  valueOf?_putEntry k k' a t.entries

/-- The table without the keys that lack a property. -/
def filterKeys (p : κ → Bool) (t : Table κ α) : Table κ α :=
  ⟨t.entries.filter fun e => p e.1, by
    exact List.Nodup.sublist (List.filter_sublist.map Prod.fst) t.distinct⟩

theorem get?_filterKeys [DecidableEq κ] (p : κ → Bool) (t : Table κ α) (k : κ) :
    (t.filterKeys p).get? k = if p k then t.get? k else none :=
  valueOf?_filter p k t.entries

/-- The values in the order of their keys. -/
def values (t : Table κ α) : List α :=
  t.entries.map Prod.snd

/-- Whether there is no entry. -/
def isEmpty (t : Table κ α) : Bool :=
  t.entries.isEmpty

/-- The table with each value changed by a function. -/
def mapValues {β : Type} (f : α → β) (t : Table κ α) : Table κ β :=
  ⟨t.entries.map fun e => (e.1, f e.2), by
    have h : (t.entries.map fun e => (e.1, f e.2)).map Prod.fst = t.entries.map Prod.fst := by
      rw [List.map_map]; rfl
    rw [h]; exact t.distinct⟩

end Table

end SwaggerRoutes
