/-
  Proofs/Document/Arrangement.lean --- rearranging a document leaves the outline of its value.

  The outline of a value forgets the entries of tables of free values, whose order is that of the
  members of an object.  Where a layout suits a shape, nothing else depends on how objects are
  arranged: a rearranged tree decodes if the tree does, to a value of the same outline
  (`Shape.keepsOutline`).
-/
import Mathlib.Data.List.Nodup
import SwaggerRoutes.Proofs.Json.Arrangement

set_option autoImplicit false

namespace SwaggerRoutes.Document

open Json

/-! ## Outlines -/

/-- The names of the fields of a record. -/
def Shape.names : Shape → List String
  | .record _ _ fs => fs.names
  | _ => []

/-- Whether a shape is that of free values. -/
def Shape.isFree : Shape → Bool
  | .free => true
  | _ => false

mutual

/-- A value with its tables of free values empty. -/
def Shape.outline : (s : Shape) → s.Value → s.Value
  | .text _, v => v
  | .flag, v => v
  | .choice _ _ _, v => v
  | .free, v => v
  | .optional s, o => Option.map s.outline o
  | .list s, vs => List.map s.outline vs
  | .table s, t => if s.isFree = true then Table.empty else Table.mapValues s.outline t
  | .record _ _ fs, vs => fs.outline vs
  | .either _ a b, v => Sum.map a.outline b.outline v

/-- The values of fields with their tables of free values empty. -/
def Fields.outline : (fs : Fields) → fs.Values → fs.Values
  | .nil, _ => ()
  | .cons _ _ s rest, (v, vs) => (s.outline v, rest.outline vs)

end

mutual

/-- Whether a shape has tables of free values. -/
def Shape.hasFreeTable : Shape → Bool
  | .text _ => false
  | .flag => false
  | .choice _ _ _ => false
  | .free => false
  | .optional s => s.hasFreeTable
  | .list s => s.hasFreeTable
  | .table s => s.isFree || s.hasFreeTable
  | .record _ _ fs => fs.haveFreeTable
  | .either _ a b => a.hasFreeTable || b.hasFreeTable

/-- Whether the shape of a field has tables of free values. -/
def Fields.haveFreeTable : Fields → Bool
  | .nil => false
  | .cons _ _ s rest => s.hasFreeTable || rest.haveFreeTable

end

mutual

/-- Without tables of free values there is nothing to forget. -/
theorem Shape.outline_eq (s : Shape) (h : s.hasFreeTable = false) (v : s.Value) :
    s.outline v = v := by
  match s with
  | .text _ | .flag | .choice _ _ _ | .free => rfl
  | .optional s =>
      cases v with
      | none => rfl
      | some v => exact congrArg some (s.outline_eq h v)
  | .list s => exact List.map_id'' (s.outline_eq h) v
  | .table s =>
      obtain ⟨hfree, hs⟩ := Bool.or_eq_false_iff.mp h
      rw [Shape.outline, if_neg (by rw [hfree]; exact Bool.false_ne_true)]
      exact Table.ext (List.map_id'' (fun e => congrArg (Prod.mk e.1) (s.outline_eq hs e.2)) _)
  | .record _ _ fs => exact fs.outline_eq h v
  | .either _ a b =>
      obtain ⟨ha, hb⟩ := Bool.or_eq_false_iff.mp h
      cases v with
      | inl v => exact congrArg Sum.inl (a.outline_eq ha v)
      | inr v => exact congrArg Sum.inr (b.outline_eq hb v)

theorem Fields.outline_eq (fs : Fields) (h : fs.haveFreeTable = false) (vs : fs.Values) :
    fs.outline vs = vs := by
  match fs with
  | .nil => rfl
  | .cons _ _ s rest =>
      obtain ⟨hs, hrest⟩ := Bool.or_eq_false_iff.mp h
      exact congrArg₂ Prod.mk (s.outline_eq hs vs.1) (rest.outline_eq hrest vs.2)

end

/-! ## Layouts and shapes -/

section

variable {σ : Type}

mutual

/-- Whether a layout fits a shape at a place.  Free values stand at plain places, extensions are
added to records only and never have the name of a field, and the order of a table is kept unless
its values are free. -/
def Shape.Suits (L : Layout σ) : Shape → σ → Prop
  | .text _, _ => True
  | .flag, _ => True
  | .choice _ _ _, p => L.isOpen p = false
  | .free, p => L.IsPlain p
  | .optional s, p => s.Suits L p
  | .list s, p => ∀ i, s.Suits L (L.item p i)
  | .table s, p => L.isOpen p = false ∧ (s.isFree = true ∨ L.isOrdered p = true) ∧
      ∀ key, s.Suits L (L.member p key)
  | .record _ _ fs, p => (fs.names.Nodup ∧ ∀ key ∈ fs.names, ¬ IsExtensionKey key) ∧
      fs.Suit L p (L.item p)
  | .either _ a b, p => a.Suits L p ∧ b.Suits L p

/-- Whether a layout fits the fields of a record at a place, given the places of the items by which
they may be written. -/
def Fields.Suit (L : Layout σ) : Fields → σ → (Nat → σ) → Prop
  | .nil, _, _ => True
  | .cons key _ s rest, p, place => s.Suits L (L.member p (some key)) ∧ s.Suits L (place 0) ∧
      rest.Suit L p fun i => place (i + 1)

end

/-- Whether a shape is made of scalars, free values, and lists and tables of them. -/
def Shape.isSimple : Shape → Bool
  | .text _ => true
  | .flag => true
  | .choice _ _ _ => true
  | .free => true
  | .optional s => s.isSimple
  | .list s => s.isSimple
  | .table s => s.isFree
  | .record _ _ _ => false
  | .either _ _ _ => false

variable {L : Layout σ}

/-- At a plain place every layout suits a simple shape. -/
theorem Shape.suits_of_isPlain (s : Shape) (hs : s.isSimple = true) {p : σ} (hp : L.IsPlain p) :
    s.Suits L p := by
  match s with
  | .text _ => trivial
  | .flag => trivial
  | .choice _ _ _ => exact hp.closed
  | .free => exact hp
  | .optional s => exact s.suits_of_isPlain hs hp
  | .list s =>
      intro i
      rw [hp.item]
      exact s.suits_of_isPlain hs hp
  | .table s =>
      refine ⟨hp.closed, .inl hs, fun key => ?_⟩
      rw [hp.member]
      match s with
      | .free => exact hp

/-! ## Members and fields -/

/-- At most one value is given under a key in each of two objects, and the second one is made of
the first one. -/
def Agree (L : Layout σ) (room : Nat) (p : σ) (ts ts' : List Tree) : Prop :=
  (ts = [] ∧ ts' = []) ∨
    ∃ t t', ts = [t] ∧ ts' = [t'] ∧ t.IsDistinct ∧ Rearranged L room p t t'

theorem length_valuesOf_le {members : List (Option String × Tree)}
    (h : (members.filterMap Prod.fst).Nodup) (key : String) :
    (valuesOf key members).length ≤ 1 := by
  have hcount (ms : List (Option String × Tree)) :
      (valuesOf key ms).length = (ms.filterMap Prod.fst).count key := by
    induction ms with
    | nil => rfl
    | cons m ms ih =>
        obtain ⟨k, t⟩ := m
        cases k with
        | none =>
            rw [valuesOf_cons_of_ne (Option.some_ne_none key).symm, ih]
            rfl
        | some k =>
            by_cases hk : k = key
            · subst hk
              rw [valuesOf_cons_self, List.length_cons, ih]
              exact List.count_cons_self.symm
            · have hne : (some k, t).1 ≠ some key := fun he => hk (Option.some.inj he)
              rw [valuesOf_cons_of_ne hne, ih]
              exact (List.count_cons_of_ne hk).symm
  rw [hcount]
  exact List.nodup_iff_count_le_one.mp h key

/-- Members that correspond to each other: their keys are the same, and the value of the second is
made of that of the first. -/
def Corresponds (L : Layout σ) (room : Nat) (p : σ) (m m' : Option String × Tree) : Prop :=
  m.1 = m'.1 ∧ m.2.IsDistinct ∧ Rearranged L room (L.member p m.1) m.2 m'.2

theorem forall₂_valuesOf {room : Nat} {p : σ} {members between : List (Option String × Tree)}
    (h : List.Forall₂ (Corresponds L room p) members between) (key : String) :
    List.Forall₂ (fun t t' => t.IsDistinct ∧ Rearranged L room (L.member p (some key)) t t')
      (valuesOf key members) (valuesOf key between) := by
  induction h with
  | nil => exact .nil
  | @cons m m' members between hhead _ ih =>
      obtain ⟨k, t⟩ := m
      obtain ⟨k', t'⟩ := m'
      obtain ⟨hk, ht, hrearranged⟩ := hhead
      obtain rfl : k = k' := hk
      by_cases hkey : k = some key
      · subst hkey
        rw [valuesOf_cons_self, valuesOf_cons_self]
        exact .cons ⟨ht, hrearranged⟩ ih
      · rw [valuesOf_cons_of_ne hkey, valuesOf_cons_of_ne hkey]
        exact ih

/-- Extensions give no value under the name of a field. -/
theorem valuesOf_perm {room : Nat} {p : σ} {members members' : List (Option String × Tree)}
    (h : L.Reorders room p members members') {key : String} (hkey : ¬ IsExtensionKey key) :
    (valuesOf key members').Perm (valuesOf key members) := by
  obtain ⟨extensions, hextensions, -, horder⟩ := h
  have hperm : members'.Perm (members ++ extensions) := by
    split at horder
    · exact .of_eq horder
    · exact horder
  have hnone : valuesOf key extensions = [] := by
    apply List.filterMap_eq_nil_iff.mpr
    intro m hm
    obtain ⟨⟨k, hk, hextension⟩, -⟩ := hextensions m hm
    apply if_neg
    rw [hk]
    rintro ⟨⟩
    exact hkey hextension
  have hvalues := hperm.filterMap fun m => if m.1 = some key then some m.2 else none
  rw [List.filterMap_append] at hvalues
  unfold valuesOf at hnone ⊢
  rw [hnone, List.append_nil] at hvalues
  exact hvalues

theorem agree_valuesOf {room : Nat} {p : σ} {members between members' : List (Option String × Tree)}
    (hpairs : List.Forall₂ (Corresponds L room p) members between)
    (horder : L.Reorders room p between members') (hnodup : (members.filterMap Prod.fst).Nodup)
    {key : String} (hkey : ¬ IsExtensionKey key) :
    Agree L room (L.member p (some key)) (valuesOf key members) (valuesOf key members') := by
  have hvalues := forall₂_valuesOf hpairs key
  have hperm := valuesOf_perm horder hkey
  have hlength := length_valuesOf_le hnodup key
  generalize valuesOf key members = ts at hvalues hlength ⊢
  generalize valuesOf key between = us at hvalues hperm
  cases hvalues with
  | nil => exact .inl ⟨rfl, hperm.eq_nil⟩
  | @cons t u ts us hhead htail =>
      obtain rfl : ts = [] := List.eq_nil_of_length_eq_zero (by
        rw [List.length_cons] at hlength
        omega)
      cases htail
      exact .inr ⟨t, u, rfl, List.perm_singleton.mp hperm, hhead⟩

/-- What is read and what is passed over stays the same, whatever is added. -/
theorem isReadable_eq {room : Nat} {p : σ} {fs : Fields}
    {members between members' : List (Option String × Tree)}
    (hpairs : List.Forall₂ (Corresponds L room p) members between)
    (horder : L.Reorders room p between members') :
    isReadable fs members = isReadable fs members' := by
  have hextension (m : Option String × Tree) (hm : IsExtension room m) :
      (m.1.any fun k => decide (k ∈ fs.names) || m.2.isWhole) = true := by
    obtain ⟨⟨k, hk, -⟩, hgather⟩ := hm
    rw [hk, isWhole_of_isSome_gather hgather]
    exact Bool.or_true _
  unfold isReadable
  rw [← horder.all_eq hextension]
  apply all_eq_of_forall₂
  refine hpairs.imp fun m m' h => ?_
  rw [h.1, h.2.2.isWhole_eq]

/-! ## Lists and tables -/

theorem mapM_map {α β γ : Type} (f : α → Option β) (g : β → γ) (xs : List α) :
    (xs.mapM f).map (List.map g) = xs.mapM fun x => (f x).map g := by
  induction xs with
  | nil => rfl
  | cons x xs ih =>
      rw [List.mapM_cons, List.mapM_cons, ← ih]
      cases f x with
      | none => rfl
      | some y => cases xs.mapM f <;> rfl

theorem foldlM_eq_of_forall₂ {α α' β : Type} {f : β → α → Option β} {g : β → α' → Option β}
    {xs : List α} {ys : List α'} (h : List.Forall₂ (fun x y => ∀ b, f b x = g b y) xs ys) (b : β) :
    xs.foldlM f b = ys.foldlM g b := by
  induction h generalizing b with
  | nil => rfl
  | cons hhead _ ih =>
      rw [List.foldlM_cons, List.foldlM_cons, hhead]
      exact congrArg _ (funext ih)

theorem mapValues_insert {κ α β : Type} [DecidableEq κ] (f : α → β) (t : Table κ α) (k : κ)
    (a : α) : (t.insert k a).mapValues f = (t.mapValues f).insert k (f a) := by
  refine Table.ext ?_
  change (putEntry k a t.entries).map (fun e => (e.1, f e.2)) =
    putEntry k (f a) (t.entries.map fun e => (e.1, f e.2))
  induction t.entries with
  | nil => rfl
  | cons e es ih =>
      rw [putEntry, List.map_cons, putEntry]
      split
      · rfl
      · rw [List.map_cons, ih]

/-- A table is made of the outlines of its values as it is made of the values. -/
theorem foldlM_insertValue_outline {s : Shape} (room : Nat)
    (members : List (Option String × Tree)) (t : Table String s.Value) :
    (members.foldlM (insertValue s room) t).map (Table.mapValues s.outline) =
      members.foldlM (fun t m => m.1.bind fun k =>
        ((value? s room m.2).map s.outline).map fun v => t.insert k v)
        (t.mapValues s.outline) := by
  induction members generalizing t with
  | nil => rfl
  | cons m members ih =>
      obtain ⟨k, u⟩ := m
      rw [List.foldlM_cons, List.foldlM_cons, insertValue]
      cases k with
      | none => rfl
      | some k =>
          cases value? s room u with
          | none => rfl
          | some v =>
              have hstep := ih (t.insert k v)
              rw [mapValues_insert] at hstep
              exact hstep

theorem isSome_foldlM_insertValue {s : Shape} (room : Nat)
    (members : List (Option String × Tree)) (t : Table String s.Value) :
    (members.foldlM (insertValue s room) t).isSome =
      members.all fun m => m.1.isSome && (value? s room m.2).isSome := by
  induction members generalizing t with
  | nil => rfl
  | cons m members ih =>
      obtain ⟨k, u⟩ := m
      rw [List.foldlM_cons, List.all_cons, insertValue]
      cases k with
      | none => rfl
      | some k =>
          cases value? s room u with
          | none => rfl
          | some v => exact ih (t.insert k v)

/-! ## Shape by shape -/

/-- Rearranging a tree leaves the outline of the value that it shows. -/
def Shape.KeepsOutline (L : Layout σ) (s : Shape) : Prop :=
  ∀ (room : Nat) (p : σ) (t t' : Tree), s.Suits L p → t.IsDistinct → Rearranged L room p t t' →
    (value? s room t).map s.outline = (value? s room t').map s.outline

theorem eq_null_iff {room : Nat} {p : σ} {t t' : Tree} (h : Rearranged L room p t t') :
    t = .null ↔ t' = .null := by
  cases h with
  | refl => rfl
  | array => exact iff_of_false Tree.noConfusion Tree.noConfusion
  | object => exact iff_of_false Tree.noConfusion Tree.noConfusion

theorem keepsOutline_text (absent : String) : (Shape.text absent).KeepsOutline L := by
  intro room p t t' _ _ h
  cases h <;> rfl

theorem keepsOutline_flag : Shape.flag.KeepsOutline L := by
  intro room p t t' _ _ h
  cases h <;> rfl

theorem keepsOutline_free : Shape.free.KeepsOutline L := by
  intro room p t t' hs ht h
  rw [h.value?_free_eq hs ht]

theorem keepsOutline_optional {s : Shape} (ih : s.KeepsOutline L) :
    (Shape.optional s).KeepsOutline L := by
  intro room p t t' hs ht h
  by_cases hnull : t = .null
  · rw [hnull, (eq_null_iff h).mp hnull]
  · have hnull' : t' ≠ .null := fun h' => hnull ((eq_null_iff h).mpr h')
    have hvalue := congrArg (Option.map some) (ih room p t t' hs ht h)
    rw [Option.map_map, Option.map_map] at hvalue
    rw [value?_optional s room hnull, value?_optional s room hnull', Option.map_map, Option.map_map]
    exact hvalue

theorem keepsOutline_list {s : Shape} (ih : s.KeepsOutline L) :
    (Shape.list s).KeepsOutline L := by
  intro room p t t' hs ht h
  cases h with
  | refl => rfl
  | @array _ _ items items' closed hlength hitems =>
      cases room with
      | zero => rfl
      | succ r =>
          have hvalues : (items.mapM (value? s r)).map (List.map s.outline) =
              (items'.mapM (value? s r)).map (List.map s.outline) := by
            rw [mapM_map, mapM_map]
            apply mapM_eq_of_forall₂
            apply forall₂_of_getElem hlength
            intro i hi hj
            exact ih r _ _ _ (hs i) (allDistinct_iff.mp ht _ (List.getElem_mem hi)) (hitems i hi hj)
          rw [value?_list, value?_list]
          cases closed with
          | false => rfl
          | true => exact hvalues
  | object => cases room <;> rfl

/-- The members of an object correspond to those of the object that is made of it, before they are
reordered. -/
theorem forall₂_corresponds {room : Nat} {p : σ} {members between : List (Option String × Tree)}
    (hlength : members.length = between.length)
    (hkeys : ∀ i (h : i < members.length) (h' : i < between.length), members[i].1 = between[i].1)
    (hvalues : ∀ i (h : i < members.length) (h' : i < between.length),
      Rearranged L room (L.member p members[i].1) members[i].2 between[i].2)
    (hdistinct : AllMembersDistinct members) :
    List.Forall₂ (Corresponds L room p) members between :=
  forall₂_of_getElem hlength fun i hi hj =>
    ⟨hkeys i hi hj, allMembersDistinct_iff.mp hdistinct _ (List.getElem_mem hi), hvalues i hi hj⟩

/-- Tables are read from both objects or from neither. -/
theorem isSome_table_eq {s : Shape} (ih : s.KeepsOutline L) {room : Nat} {p : σ}
    {members between members' : List (Option String × Tree)} (hclosed : L.isOpen p = false)
    (hs : ∀ key, s.Suits L (L.member p key))
    (hpairs : List.Forall₂ (Corresponds L room p) members between)
    (horder : L.Reorders room p between members') :
    (members.foldlM (insertValue s room) .empty).isSome =
      (members'.foldlM (insertValue s room) .empty).isSome := by
  rw [isSome_foldlM_insertValue, isSome_foldlM_insertValue, (horder.perm hclosed).all_eq]
  apply all_eq_of_forall₂
  refine hpairs.imp fun m m' h => ?_
  obtain ⟨hkey, hdistinct, hvalue⟩ := h
  have hsome := congrArg Option.isSome (ih room _ _ _ (hs m.1) hdistinct hvalue)
  rw [Option.isSome_map, Option.isSome_map] at hsome
  rw [hkey, hsome]

theorem keepsOutline_table {s : Shape} (ih : s.KeepsOutline L) :
    (Shape.table s).KeepsOutline L := by
  intro room p t t' hs ht h
  obtain ⟨hclosed, horders, hs⟩ := hs
  cases h with
  | refl => rfl
  | array => cases room <;> rfl
  | @object _ _ members between members' closed hlength hkeys hvalues horder =>
      cases room with
      | zero => rfl
      | succ r =>
          have hpairs : List.Forall₂ (Corresponds L r p) members between :=
            forall₂_corresponds hlength hkeys hvalues ht.2
          rw [value?_table, value?_table]
          cases closed with
          | false => rfl
          | true =>
              rw [if_pos rfl, if_pos rfl]
              by_cases hfree : s.isFree = true
              · have hempty : (Shape.table s).outline = fun _ => .empty := by
                  funext v
                  exact if_pos hfree
                have hsome := isSome_table_eq ih hclosed hs hpairs horder
                rw [hempty]
                revert hsome
                cases members.foldlM (insertValue s r) .empty <;>
                  cases members'.foldlM (insertValue s r) .empty <;> simp
              · have houtline : (Shape.table s).outline = Table.mapValues s.outline := by
                  funext v
                  exact if_neg hfree
                obtain rfl := horder.eq hclosed (horders.resolve_left hfree)
                rw [houtline, foldlM_insertValue_outline, foldlM_insertValue_outline]
                apply foldlM_eq_of_forall₂
                refine hpairs.imp fun m m' h b => ?_
                obtain ⟨hkey, hdistinct, hvalue⟩ := h
                rw [hkey, ih r _ _ _ (hs m.1) hdistinct hvalue]

/-- An object that names a choice has a single member, and it stays what it is. -/
theorem object_eq_of_singleton {room : Nat} {p : σ}
    {members between members' : List (Option String × Tree)} (hclosed : L.isOpen p = false)
    (hpairs : List.Forall₂ (Corresponds L room p) members between)
    (horder : L.Reorders room p between members') (k : Option String) :
    members = [(k, .null)] ↔ members' = [(k, .null)] := by
  have hperm := horder.perm hclosed
  constructor
  · rintro rfl
    cases hpairs with
    | @cons _ n _ _ hhead htail =>
        cases htail
        obtain ⟨hkey, -, hvalue⟩ := hhead
        obtain ⟨k', u⟩ := n
        obtain rfl : k = k' := hkey
        obtain rfl := (eq_null_iff hvalue).mp rfl
        exact List.perm_singleton.mp hperm
  · rintro rfl
    obtain rfl := List.singleton_perm.mp hperm
    cases hpairs with
    | @cons m _ _ _ hhead htail =>
        cases htail
        obtain ⟨hkey, -, hvalue⟩ := hhead
        obtain ⟨k', u⟩ := m
        obtain rfl : k' = k := hkey
        obtain rfl := (eq_null_iff hvalue).mpr rfl
        rfl

/-- Which choice an object names depends on its single member alone. -/
theorem value?_choice_object_eq_some_iff (name first : String) (others : List String) (room : Nat)
    (members : List (Option String × Tree)) (closed : Bool) (i : Fin (others.length + 1)) :
    value? (.choice name first others) (room + 1) (.object members closed) = some i ↔
      closed = true ∧ ∃ k, members = [(some k, .null)] ∧ choiceIndex? first others k = some i := by
  constructor
  · intro h
    match members with
    | [] => exact absurd h.symm (Option.some_ne_none i)
    | (none, t) :: rest => exact absurd h.symm (Option.some_ne_none i)
    | (some k, t) :: rest =>
        rw [value?_choice_object] at h
        split at h
        · exact ⟨rfl, k, rfl, h⟩
        · exact absurd h.symm (Option.some_ne_none i)
  · rintro ⟨rfl, k, rfl, hk⟩
    rw [value?_choice_object]
    exact hk

theorem value?_choice_of_no_room (name first : String) (others : List String)
    (members : List (Option String × Tree)) (closed : Bool) :
    value? (.choice name first others) 0 (.object members closed) = none := by
  match members with
  | [] => rfl
  | (none, _) :: _ => rfl
  | (some _, _) :: _ => rfl

theorem keepsOutline_choice (name first : String) (others : List String) :
    (Shape.choice name first others).KeepsOutline L := by
  intro room p t t' hs ht h
  refine congrArg _ ?_
  cases h with
  | refl => rfl
  | array => rfl
  | @object _ _ members between members' closed hlength hkeys hvalues horder =>
      cases room with
      | zero => rw [value?_choice_of_no_room, value?_choice_of_no_room]
      | succ r =>
          have hpairs : List.Forall₂ (Corresponds L r p) members between :=
            forall₂_corresponds hlength hkeys hvalues ht.2
          apply Option.ext
          intro i
          rw [value?_choice_object_eq_some_iff, value?_choice_object_eq_some_iff]
          simp only [object_eq_of_singleton hs hpairs horder]

/-! ## Records and alternatives -/

/-- Rearranging the items or the members of a record leaves the outlines of its fields. -/
structure Fields.KeepOutlines (L : Layout σ) (fs : Fields) : Prop where
  items : ∀ (room : Nat) (p : σ) (place : Nat → σ) (items items' : List Tree), fs.Suit L p place →
    items.length = items'.length → (∀ t ∈ items, t.IsDistinct) →
    (∀ i (h : i < items.length) (h' : i < items'.length),
      Rearranged L room (place i) items[i] items'[i]) →
    (itemValues? fs room items).map fs.outline = (itemValues? fs room items').map fs.outline
  members : ∀ (room : Nat) (p : σ) (place : Nat → σ)
    (members members' : List (Option String × Tree)), fs.Suit L p place →
    (∀ key ∈ fs.names,
      Agree L room (L.member p (some key)) (valuesOf key members) (valuesOf key members')) →
    (fieldValues? fs room fs.noSlots members).map fs.outline =
      (fieldValues? fs room fs.noSlots members').map fs.outline

theorem keepOutlines_nil : Fields.nil.KeepOutlines L where
  items := by
    intro room p place items items' _ hlength _ _
    cases items with
    | nil =>
        obtain rfl := List.eq_nil_of_length_eq_zero hlength.symm
        rfl
    | cons t items =>
        cases items' with
        | nil => exact absurd hlength (Nat.succ_ne_zero _)
        | cons t' items' => rfl
  members := fun _ _ _ _ _ _ _ => rfl

/-- The values of the first field and of the others are outlined by themselves. -/
theorem outline_cons {key : String} {presence : Presence} {s : Shape} {rest : Fields}
    (v : Option s.Value) (vs : Option rest.Values) :
    (do let v ← v; let vs ← vs; some (v, vs) : Option (s.Value × rest.Values)).map
        (Fields.cons key presence s rest).outline =
      (do let v ← v.map s.outline; let vs ← vs.map rest.outline; some (v, vs)) := by
  cases v with
  | none => rfl
  | some v => cases vs <;> rfl

theorem keepOutlines_cons {key : String} {presence : Presence} {s : Shape} {rest : Fields}
    (hs : s.KeepsOutline L) (hrest : rest.KeepOutlines L) :
    (Fields.cons key presence s rest).KeepOutlines L where
  items := by
    intro room p place items items' hsuit hlength hdistinct hitems
    obtain ⟨-, hfirst, hothers⟩ := hsuit
    cases items with
    | nil =>
        obtain rfl := List.eq_nil_of_length_eq_zero hlength.symm
        rfl
    | cons t items =>
        cases items' with
        | nil => exact absurd hlength (Nat.succ_ne_zero _)
        | cons t' items' =>
            have hvalue := hs room (place 0) t t' hfirst (hdistinct t List.mem_cons_self)
              (hitems 0 (Nat.succ_pos _) (Nat.succ_pos _))
            have hvalues := hrest.items room p (fun i => place (i + 1)) items items' hothers
              (Nat.succ.inj hlength) (fun u hu => hdistinct u (List.mem_cons_of_mem t hu))
              (fun i hi hj => hitems (i + 1) (Nat.succ_lt_succ hi) (Nat.succ_lt_succ hj))
            rw [itemValues?, itemValues?, outline_cons, outline_cons, hvalue, hvalues]
  members := by
    intro room p place members members' hsuit hagree
    obtain ⟨hfirst, -, hothers⟩ := hsuit
    have hvalue : (fieldValue? presence s room none (valuesOf key members)).map s.outline =
        (fieldValue? presence s room none (valuesOf key members')).map s.outline := by
      obtain ⟨hnone, hnone'⟩ | ⟨t, t', ht, ht', hdistinct, hrearranged⟩ :=
        hagree key List.mem_cons_self
      · rw [hnone, hnone']
      · rw [ht, ht']
        exact hs room _ t t' hfirst hdistinct hrearranged
    have hvalues := hrest.members room p (fun i => place (i + 1)) members members' hothers
      (fun k hk => hagree k (List.mem_cons_of_mem key hk))
    rw [Fields.noSlots, fieldValues?, fieldValues?, outline_cons, outline_cons, hvalue, hvalues]

theorem keepsOutline_record (name : String) (form : Form) {fs : Fields}
    (ih : fs.KeepOutlines L) : (Shape.record name form fs).KeepsOutline L := by
  intro room p t t' hs ht h
  obtain ⟨⟨hnames, hextension⟩, hsuit⟩ := hs
  cases h with
  | refl => rfl
  | @array _ _ items items' closed hlength hitems =>
      cases room with
      | zero => rfl
      | succ r =>
          rw [value?_array, value?_array]
          split
          · exact ih.items r p (L.item p) items items' hsuit hlength (allDistinct_iff.mp ht)
              hitems
          · rfl
  | @object _ _ members between members' closed hlength hkeys hvalues horder =>
      cases room with
      | zero => rfl
      | succ r =>
          have hpairs : List.Forall₂ (Corresponds L r p) members between :=
            forall₂_corresponds hlength hkeys hvalues ht.2
          have hfields := ih.members r p (L.item p) members members' hsuit fun key hkey =>
            agree_valuesOf hpairs horder ht.1 (hextension key hkey)
          have hreadable : isReadable fs members = isReadable fs members' :=
            isReadable_eq hpairs horder
          rw [value?_object hnames, value?_object hnames, hreadable]
          split
          · exact hfields
          · rfl

/-- The value of the first alternative, or else that of the second one. -/
def firstOf {α β : Type} : Option α → Option β → Option (α ⊕ β)
  | some v, _ => some (.inl v)
  | none, w => w.map .inr

theorem outline_firstOf (name : String) {a b : Shape} (v : Option a.Value) (w : Option b.Value) :
    (firstOf v w).map (Shape.either name a b).outline =
      firstOf (v.map a.outline) (w.map b.outline) := by
  cases v with
  | some v => rfl
  | none => cases w <;> rfl

theorem value?_either_of_gather (name : String) (a b : Shape) {room : Nat} {t : Tree} {c : Content}
    (h : gather room t = some c) :
    value? (.either name a b) room t = firstOf (value? a room t) (value? b room t) := by
  rw [value?_either, h, Option.bind_some, ← fits_eq_value? a h, ← fits_eq_value? b h]
  cases Content.fits a c <;> rfl

theorem keepsOutline_either (name : String) {a b : Shape} (ha : a.KeepsOutline L)
    (hb : b.KeepsOutline L) : (Shape.either name a b).KeepsOutline L := by
  intro room p t t' hs ht h
  have hgather := h.isSome_gather_eq
  cases hc : gather room t with
  | none =>
      rw [hc] at hgather
      have hc' : gather room t' = none := Option.not_isSome_iff_eq_none.mp (by simp [← hgather])
      rw [value?_either, value?_either, hc, hc', Option.bind_none]
  | some c =>
      rw [hc] at hgather
      obtain ⟨c', hc'⟩ := Option.isSome_iff_exists.mp hgather.symm
      rw [value?_either_of_gather name a b hc, value?_either_of_gather name a b hc',
        outline_firstOf, outline_firstOf, ha room p t t' hs.1 ht h, hb room p t t' hs.2 ht h]

mutual

/-- Where a layout suits a shape, a rearranged tree decodes if the tree does, to a value of the same
outline. -/
theorem Shape.keepsOutline : (s : Shape) → s.KeepsOutline L
  | .text absent => keepsOutline_text absent
  | .flag => keepsOutline_flag
  | .choice name first others => keepsOutline_choice name first others
  | .free => keepsOutline_free
  | .optional s => keepsOutline_optional s.keepsOutline
  | .list s => keepsOutline_list s.keepsOutline
  | .table s => keepsOutline_table s.keepsOutline
  | .record name form fs => keepsOutline_record name form fs.keepOutlines
  | .either name a b => keepsOutline_either name a.keepsOutline b.keepsOutline

theorem Fields.keepOutlines : (fs : Fields) → fs.KeepOutlines L
  | .nil => keepOutlines_nil
  | .cons _ _ s rest => keepOutlines_cons s.keepsOutline rest.keepOutlines

end

end

end SwaggerRoutes.Document
