/-
  Proofs/Json/Arrangement.lean --- trees that differ only in how their objects are arranged.

  A layout says what the places of a document are called, at which of them the members of an object
  must stay in order, and at which of them extensions may be added.  `Rearranged` relates a tree to
  what may be made of it.  Three things are never changed by that: whether a tree is whole, whether
  it can be held back as content, and, away from all places that a layout knows, which free value
  it shows.
-/
import Mathlib.Data.List.Forall2
import Mathlib.Data.List.Perm.Basic
import SwaggerRoutes.Proofs.Json.Free

set_option autoImplicit false

namespace SwaggerRoutes.Json

open Document

/-! ## Layouts -/

/-- What the places of a document are called, and what may be done to the objects at them. -/
structure Layout (σ : Type) where
  /-- The place of the value under a key. -/
  member : σ → Option String → σ
  /-- The place of an item. -/
  item : σ → Nat → σ
  /-- Whether members may be added to an object. -/
  isOpen : σ → Bool
  /-- Whether the members of an object must stay in order. -/
  isOrdered : σ → Bool

namespace Layout

variable {σ : Type}

/-- A place within which all places are alike and nothing may be added. -/
structure IsPlain (L : Layout σ) (p : σ) : Prop where
  member : ∀ key, L.member p key = p
  item : ∀ i, L.item p i = p
  closed : L.isOpen p = false

end Layout

/-- The key of an extension. -/
def IsExtensionKey (key : String) : Prop :=
  ['x', '-'] <+: key.toList

instance (key : String) : Decidable (IsExtensionKey key) :=
  inferInstanceAs (Decidable (_ <+: _))

/-- A member that a document carries for other readers.  There must be room for its value, and its
numbers and strings must be ones that can be read. -/
def IsExtension (room : Nat) (m : Option String × Tree) : Prop :=
  (∃ key, m.1 = some key ∧ IsExtensionKey key) ∧ (gather room m.2).isSome = true

/-- Members of an object at a place in another order, or with extensions among them, as far as the
place allows it. -/
def Layout.Reorders {σ : Type} (L : Layout σ) (room : Nat) (p : σ)
    (members members' : List (Option String × Tree)) : Prop :=
  ∃ extensions, (∀ m ∈ extensions, IsExtension room m) ∧ (extensions = [] ∨ L.isOpen p = true) ∧
    if L.isOrdered p = true then members' = members ++ extensions
    else members'.Perm (members ++ extensions)

/-- What may be made of a tree at a place with room for `room` containers inside each other: the
objects in it are reordered, each as its own place allows. -/
inductive Rearranged {σ : Type} (L : Layout σ) : Nat → σ → Tree → Tree → Prop where
  | refl (room : Nat) (p : σ) (t : Tree) : Rearranged L room p t t
  | array {room : Nat} {p : σ} {items items' : List Tree} {closed : Bool}
      (hlength : items.length = items'.length)
      (hitems : ∀ i (h : i < items.length) (h' : i < items'.length),
        Rearranged L (room - 1) (L.item p i) items[i] items'[i]) :
      Rearranged L room p (.array items closed) (.array items' closed)
  | object {room : Nat} {p : σ} {members between members' : List (Option String × Tree)}
      {closed : Bool} (hlength : members.length = between.length)
      (hkeys : ∀ i (h : i < members.length) (h' : i < between.length),
        members[i].1 = between[i].1)
      (hvalues : ∀ i (h : i < members.length) (h' : i < between.length),
        Rearranged L (room - 1) (L.member p members[i].1) members[i].2 between[i].2)
      (horder : L.Reorders (room - 1) p between members') :
      Rearranged L room p (.object members closed) (.object members' closed)

/-! ## Distinct members -/

mutual

/-- Whether no object inside a tree has two members of one key. -/
def Tree.IsDistinct : Tree → Prop
  | .array items _ => AllDistinct items
  | .object members _ => (members.filterMap Prod.fst).Nodup ∧ AllMembersDistinct members
  | _ => True

/-- Whether that holds of all items. -/
def AllDistinct : List Tree → Prop
  | [] => True
  | t :: rest => t.IsDistinct ∧ AllDistinct rest

/-- Whether that holds of the values of all members. -/
def AllMembersDistinct : List (Option String × Tree) → Prop
  | [] => True
  | (_, t) :: rest => t.IsDistinct ∧ AllMembersDistinct rest

end

theorem allDistinct_iff {ts : List Tree} : AllDistinct ts ↔ ∀ t ∈ ts, t.IsDistinct := by
  induction ts with
  | nil => simp [AllDistinct]
  | cons t ts ih => rw [AllDistinct, ih, List.forall_mem_cons]

theorem allMembersDistinct_iff {ms : List (Option String × Tree)} :
    AllMembersDistinct ms ↔ ∀ m ∈ ms, m.2.IsDistinct := by
  induction ms with
  | nil => simp [AllMembersDistinct]
  | cons m ms ih => rw [AllMembersDistinct, ih, List.forall_mem_cons]

/-! ## What is never changed -/

theorem forall₂_of_getElem {α β : Type} {R : α → β → Prop} {xs : List α} {ys : List β}
    (hlength : xs.length = ys.length)
    (h : ∀ i (hi : i < xs.length) (hj : i < ys.length), R xs[i] ys[i]) : List.Forall₂ R xs ys :=
  List.forall₂_iff_get.mpr ⟨hlength, h⟩

/-- A test that pairs agree on holds of all of the ones if it holds of all of the others. -/
theorem all_eq_of_forall₂ {α β : Type} {f : α → Bool} {g : β → Bool} {xs : List α} {ys : List β}
    (h : List.Forall₂ (fun x y => f x = g y) xs ys) : xs.all f = ys.all g := by
  induction h with
  | nil => rfl
  | cons hhead _ ih => rw [List.all_cons, List.all_cons, hhead, ih]

section

variable {σ : Type} {L : Layout σ}

/-- An object may be rearranged member by member and then reordered. -/
theorem Rearranged.of_members {room : Nat} {p : σ} {members members' : List (Option String × Tree)}
    {closed : Bool} (between : List (Option String × Tree))
    (h : List.Forall₂ (fun m n => m.1 = n.1 ∧ Rearranged L (room - 1) (L.member p m.1) m.2 n.2)
      members between) (horder : L.Reorders (room - 1) p between members') :
    Rearranged L room p (.object members closed) (.object members' closed) :=
  .object h.length_eq (fun _ hi hj => (h.get hi hj).1) (fun _ hi hj => (h.get hi hj).2) horder

/-- A test that extensions pass holds of all members whatever their order is. -/
theorem Layout.Reorders.all_eq {room : Nat} {p : σ} {members members' : List (Option String × Tree)}
    (h : L.Reorders room p members members') {f : Option String × Tree → Bool}
    (hf : ∀ m, IsExtension room m → f m = true) : members.all f = members'.all f := by
  obtain ⟨extensions, hextensions, -, horder⟩ := h
  have hall : (members ++ extensions).all f = members.all f := by
    have hpass : extensions.all f = true :=
      List.all_eq_true.mpr fun m hm => hf m (hextensions m hm)
    rw [List.all_append, hpass, Bool.and_true]
  split at horder
  · rw [horder, hall]
  · rw [horder.all_eq, hall]

theorem Layout.Reorders.refl (room : Nat) (p : σ) (members : List (Option String × Tree)) :
    L.Reorders room p members members := by
  refine ⟨[], fun m hm => absurd hm List.not_mem_nil, .inl rfl, ?_⟩
  rw [List.append_nil]
  split
  · rfl
  · exact .refl members

/-- Where nothing may be added, members are only put into another order. -/
theorem Layout.Reorders.perm {room : Nat} {p : σ} {members members' : List (Option String × Tree)}
    (h : L.Reorders room p members members') (hp : L.isOpen p = false) :
    members'.Perm members := by
  obtain ⟨extensions, -, hnone, horder⟩ := h
  obtain rfl | hopen := hnone
  · rw [List.append_nil] at horder
    split at horder
    · exact .of_eq horder
    · exact horder
  · exact absurd (hp.symm.trans hopen) Bool.false_ne_true

/-- Where the order must be kept and nothing may be added, nothing is done at all. -/
theorem Layout.Reorders.eq {room : Nat} {p : σ} {members members' : List (Option String × Tree)}
    (h : L.Reorders room p members members') (hp : L.isOpen p = false)
    (hordered : L.isOrdered p = true) : members' = members := by
  obtain ⟨extensions, -, hnone, horder⟩ := h
  rw [if_pos hordered] at horder
  obtain rfl | hopen := hnone
  · rw [horder, List.append_nil]
  · exact absurd (hp.symm.trans hopen) Bool.false_ne_true

theorem keys_eq_of_getElem {members between : List (Option String × Tree)}
    (hlength : members.length = between.length)
    (hkeys : ∀ i (h : i < members.length) (h' : i < between.length),
      members[i].1 = between[i].1) :
    members.filterMap Prod.fst = between.filterMap Prod.fst := by
  have hmap : members.map Prod.fst = between.map Prod.fst := by
    apply List.ext_getElem
    · rw [List.length_map, List.length_map, hlength]
    · intro i hi hj
      rw [List.getElem_map, List.getElem_map]
      exact hkeys i _ _
  have hkeep (l : List (Option String × Tree)) :
      l.filterMap Prod.fst = (l.map Prod.fst).filterMap id := by
    rw [List.filterMap_map]
    rfl
  rw [hkeep, hkeep, hmap]

theorem allWhole_eq (ts : List Tree) : allWhole ts = ts.all Tree.isWhole := by
  induction ts with
  | nil => rfl
  | cons t ts ih => rw [allWhole, ih, List.all_cons]

theorem allMembersWhole_eq (ms : List (Option String × Tree)) :
    allMembersWhole ms = ms.all fun m => m.2.isWhole := by
  induction ms with
  | nil => rfl
  | cons m ms ih => rw [allMembersWhole, ih, List.all_cons]

theorem isWhole_of_isSome_gather {room : Nat} {t : Tree} (h : (gather room t).isSome = true) :
    t.isWhole = true := by
  obtain ⟨c, hc⟩ := Option.isSome_iff_exists.mp h
  exact isWhole_of_gather t hc

theorem Rearranged.isWhole_eq {room : Nat} {p : σ} {t t' : Tree} (h : Rearranged L room p t t') :
    t.isWhole = t'.isWhole := by
  induction h with
  | refl => rfl
  | array hlength _ ih =>
      rw [Tree.isWhole, Tree.isWhole, allWhole_eq, allWhole_eq,
        all_eq_of_forall₂ (forall₂_of_getElem hlength ih)]
  | @object room p members between members' closed hlength _ _ horder ih =>
      have hpairs : (members.all fun m => m.2.isWhole) = between.all fun m => m.2.isWhole :=
        all_eq_of_forall₂ (forall₂_of_getElem hlength ih)
      have hextension : ∀ m, IsExtension (room - 1) m → m.2.isWhole = true := fun m hm =>
        isWhole_of_isSome_gather hm.2
      rw [Tree.isWhole, Tree.isWhole, allMembersWhole_eq, allMembersWhole_eq, hpairs,
        horder.all_eq hextension]

/-! ### Content -/

theorem isSome_gatherItems (room : Nat) (ts : List Tree) :
    (gatherItems room ts).isSome = ts.all fun t => (gather room t).isSome := by
  induction ts with
  | nil => rfl
  | cons t ts ih =>
      rw [List.all_cons, ← ih, gatherItems]
      cases gather room t <;> cases gatherItems room ts <;> rfl

theorem isSome_gatherMembers (room : Nat) (ms : List (Option String × Tree)) :
    (gatherMembers room ms).isSome = ms.all fun m => m.1.isSome && (gather room m.2).isSome := by
  induction ms with
  | nil => rfl
  | cons m ms ih =>
      obtain ⟨k, t⟩ := m
      rw [List.all_cons, ← ih, gatherMembers]
      cases k <;> cases gather room t <;> cases gatherMembers room ms <;> rfl

theorem isSome_gather_array (room : Nat) (items : List Tree) (closed : Bool) :
    (gather (room + 1) (.array items closed)).isSome =
      (closed && items.all fun t => (gather room t).isSome) := by
  rw [← isSome_gatherItems, gather]
  cases closed <;> simp

theorem isSome_gather_object (room : Nat) (members : List (Option String × Tree))
    (closed : Bool) :
    (gather (room + 1) (.object members closed)).isSome =
      (closed && members.all fun m => m.1.isSome && (gather room m.2).isSome) := by
  rw [← isSome_gatherMembers, gather]
  cases closed <;> simp

theorem Rearranged.isSome_gather_eq {room : Nat} {p : σ} {t t' : Tree}
    (h : Rearranged L room p t t') : (gather room t).isSome = (gather room t').isSome := by
  induction h with
  | refl => rfl
  | @array room p items items' closed hlength _ ih =>
      cases room with
      | zero => rfl
      | succ r =>
          have hall : (items.all fun t => (gather r t).isSome) =
              items'.all fun t => (gather r t).isSome :=
            all_eq_of_forall₂ (forall₂_of_getElem hlength ih)
          rw [isSome_gather_array, isSome_gather_array, hall]
  | @object room p members between members' closed hlength hkeys _ horder ih =>
      cases room with
      | zero => rfl
      | succ r =>
          let readable (m : Option String × Tree) : Bool := m.1.isSome && (gather r m.2).isSome
          have hpairs : members.all readable = between.all readable := by
            apply all_eq_of_forall₂
            apply forall₂_of_getElem hlength
            intro i hi hj
            exact congrArg₂ Bool.and (congrArg Option.isSome (hkeys i hi hj)) (ih i hi hj)
          have hextension : ∀ m, IsExtension r m → readable m = true := by
            rintro m ⟨⟨key, hkey, -⟩, hm⟩
            exact Bool.and_eq_true_iff.mpr ⟨by rw [hkey]; rfl, hm⟩
          have horders : between.all readable = members'.all readable :=
            horder.all_eq hextension
          rw [isSome_gather_object, isSome_gather_object]
          exact congrArg (closed && ·) (hpairs.trans horders)

/-! ### Free values -/

/-- The free value of a member under its key. -/
def freeMember? (room : Nat) (m : Option String × Tree) : Option (String × Value) :=
  m.1.bind fun key => (value? .free room m.2).map (key, ·)

theorem mapM_eq_some_iff {α β : Type} {f : α → Option β} {xs : List α} {ys : List β} :
    xs.mapM f = some ys ↔ List.Forall₂ (fun x y => f x = some y) xs ys := by
  induction xs generalizing ys with
  | nil =>
      rw [List.forall₂_nil_left_iff]
      exact Option.some_inj.trans eq_comm
  | cons x xs ih =>
      rw [List.mapM_cons, List.forall₂_cons_left_iff]
      constructor
      · intro h
        obtain ⟨y, hy, h⟩ := Option.bind_eq_some_iff.mp h
        obtain ⟨rest, hrest, h⟩ := Option.bind_eq_some_iff.mp h
        exact ⟨y, rest, hy, ih.mp hrest, (Option.some.inj h).symm⟩
      · rintro ⟨y, rest, hy, hrest, rfl⟩
        refine Option.bind_eq_some_iff.mpr ⟨y, hy, ?_⟩
        exact Option.bind_eq_some_iff.mpr ⟨rest, ih.mpr hrest, rfl⟩

theorem mapM_eq_of_forall₂ {α β γ : Type} {f : α → Option γ} {g : β → Option γ} {xs : List α}
    {ys : List β} (h : List.Forall₂ (fun x y => f x = g y) xs ys) : xs.mapM f = ys.mapM g := by
  induction h with
  | nil => rfl
  | cons hhead _ ih => rw [List.mapM_cons, List.mapM_cons, hhead, ih]

/-- What is made of a list in another order is what is made of the list, in another order. -/
theorem exists_perm_of_mapM {α β : Type} {f : α → Option β} {xs xs' : List α} {ys : List β}
    (hperm : xs'.Perm xs) (h : xs.mapM f = some ys) :
    ∃ ys', xs'.mapM f = some ys' ∧ ys'.Perm ys := by
  obtain ⟨ys', hys', hperm⟩ := List.perm_comp_forall₂ hperm (mapM_eq_some_iff.mp h)
  exact ⟨ys', mapM_eq_some_iff.mpr hys', hperm⟩

theorem bind_itemsToJson (room : Nat) (items : List Tree) :
    (gatherItems room items).bind Content.itemsToJson? = items.mapM (value? .free room) := by
  induction items with
  | nil => rfl
  | cons t items ih =>
      rw [List.mapM_cons, ← ih, value?_free, gatherItems]
      cases gather room t with
      | none => rfl
      | some c =>
          cases hv : c.toJson? with
          | none => cases gatherItems room items <;> simp [Content.itemsToJson?, hv]
          | some v => cases gatherItems room items <;> simp [Content.itemsToJson?, hv]

theorem bind_entriesToJson (room : Nat) (members : List (Option String × Tree)) :
    (gatherMembers room members).bind Content.entriesToJson? =
      members.mapM (freeMember? room) := by
  induction members with
  | nil => rfl
  | cons m members ih =>
      obtain ⟨k, t⟩ := m
      rw [List.mapM_cons, ← ih, freeMember?, value?_free, gatherMembers]
      cases k with
      | none => rfl
      | some k =>
          cases gather room t with
          | none => rfl
          | some c =>
              cases hv : c.toJson? with
              | none => cases gatherMembers room members <;> simp [Content.entriesToJson?, hv]
              | some v => cases gatherMembers room members <;> simp [Content.entriesToJson?, hv]

theorem value?_free_array (room : Nat) (items : List Tree) (closed : Bool) :
    value? .free (room + 1) (.array items closed) =
      if closed = true then (items.mapM (value? .free room)).map .array else none := by
  rw [value?_free, gather, ← bind_itemsToJson]
  cases closed with
  | false => rfl
  | true => cases gatherItems room items <;> rfl

theorem value?_free_object (room : Nat) (members : List (Option String × Tree)) (closed : Bool) :
    value? .free (room + 1) (.object members closed) =
      if closed = true then (members.mapM (freeMember? room)).map fun ms => .object (sortMembers ms)
      else none := by
  rw [value?_free, gather, ← bind_entriesToJson]
  cases closed with
  | false => rfl
  | true => cases gatherMembers room members <;> rfl

/-- The keys of free members are those of the members that they are made from. -/
theorem keys_of_freeMembers {room : Nat} {members : List (Option String × Tree)}
    {ms : List (String × Value)} (h : members.mapM (freeMember? room) = some ms) :
    ms.map Prod.fst = members.filterMap Prod.fst := by
  have hpairs := mapM_eq_some_iff.mp h
  induction hpairs with
  | nil => rfl
  | cons hhead htail ih =>
      obtain ⟨k, hk, hhead⟩ := Option.bind_eq_some_iff.mp hhead
      obtain ⟨v, -, rfl⟩ := Option.map_eq_some_iff.mp hhead
      rw [List.map_cons, ih (mapM_eq_some_iff.mpr htail), List.filterMap_cons_some hk]

/-- Members in another order make the same free value, if their keys are distinct. -/
theorem sortedMembers_eq_of_perm {room : Nat} {members members' : List (Option String × Tree)}
    (hdistinct : (members.filterMap Prod.fst).Nodup) (hperm : members'.Perm members) :
    (members.mapM (freeMember? room)).map sortMembers =
      (members'.mapM (freeMember? room)).map sortMembers := by
  cases h : members.mapM (freeMember? room) with
  | some ms =>
      obtain ⟨ms', hms', hms⟩ := exists_perm_of_mapM hperm h
      rw [hms']
      refine congrArg some (sortMembers_eq_of_perm ?_ hms.symm)
      rw [keys_of_freeMembers h]
      exact hdistinct
  | none =>
      cases h' : members'.mapM (freeMember? room) with
      | none => rfl
      | some ms' =>
          obtain ⟨ms, hms, -⟩ := exists_perm_of_mapM hperm.symm h'
          rw [h] at hms
          exact absurd hms (Option.some_ne_none ms).symm

/-- At a plain place a free value stays what it is. -/
theorem Rearranged.value?_free_eq {room : Nat} {p : σ} {t t' : Tree} (h : Rearranged L room p t t')
    (hp : L.IsPlain p) (ht : t.IsDistinct) : value? .free room t = value? .free room t' := by
  induction h with
  | refl => rfl
  | @array room p items items' closed hlength _ ih =>
      cases room with
      | zero => rfl
      | succ r =>
          have hitems : items.mapM (value? .free r) = items'.mapM (value? .free r) := by
            apply mapM_eq_of_forall₂
            apply forall₂_of_getElem hlength
            intro i hi hj
            have hplain : L.IsPlain (L.item p i) := (hp.item i).symm ▸ hp
            exact ih i hi hj hplain (allDistinct_iff.mp ht _ (List.getElem_mem hi))
          rw [value?_free_array, value?_free_array, hitems]
  | @object room p members between members' closed hlength hkeys _ horder ih =>
      cases room with
      | zero => rfl
      | succ r =>
          obtain ⟨hnodup, hvalues⟩ := ht
          have hpairs : members.mapM (freeMember? r) = between.mapM (freeMember? r) := by
            apply mapM_eq_of_forall₂
            apply forall₂_of_getElem hlength
            intro i hi hj
            have hplain : L.IsPlain (L.member p members[i].1) := (hp.member _).symm ▸ hp
            have hvalue : value? .free r members[i].2 = value? .free r between[i].2 :=
              ih i hi hj hplain (allMembersDistinct_iff.mp hvalues _ (List.getElem_mem hi))
            unfold freeMember?
            rw [hkeys i hi hj, hvalue]
          rw [keys_eq_of_getElem hlength hkeys] at hnodup
          have hsorted : (between.mapM (freeMember? r)).map sortMembers =
              (members'.mapM (freeMember? r)).map sortMembers :=
            sortedMembers_eq_of_perm hnodup (horder.perm hp.closed)
          rw [← hpairs] at hsorted
          have hobjects := congrArg (Option.map Value.object) hsorted
          rw [Option.map_map, Option.map_map] at hobjects
          rw [value?_free_object, value?_free_object]
          exact congrArg (fun o => if closed = true then o else none) hobjects

end

end SwaggerRoutes.Json
