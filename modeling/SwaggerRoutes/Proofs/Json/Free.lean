/-
  Proofs/Json/Free.lean --- free values: what a document may hold where no shape is prescribed.

  A free value that was read has its objects sorted by key, at every depth, and no number in it is
  infinite (`isCanonical_of_toJson`).  Such a value is read again from its tree as it is
  (`gather_tree`), provided that there is room for its containers; and it has no more of them inside
  each other than there was room for when it was read (`depth_le_of_gather`).

  An infinite double would be null as a free value.  No text writes one (`isFinite_ofText`), so
  null alone is read as null (`ne_null_of_toJson`).
-/
import Mathlib.Data.String.Basic
import SwaggerRoutes.Proofs.Decimal.Finite
import SwaggerRoutes.Proofs.Document.Decoding
import SwaggerRoutes.Proofs.Json.Reading

set_option autoImplicit false

namespace SwaggerRoutes.Json

open Decimal Document

/-! ## Sorted members -/

/-- Members in the order of their keys, each key once. -/
def SortedKeys (ms : List (String × Value)) : Prop :=
  ms.Pairwise fun a b => a.1 < b.1

theorem mem_of_mem_insertMember {k : String} {v : Value} {ms : List (String × Value)}
    {m : String × Value} (h : m ∈ insertMember k v ms) : m = (k, v) ∨ m ∈ ms := by
  induction ms with
  | nil => exact .inl (List.mem_singleton.mp h)
  | cons first rest ih =>
      obtain ⟨k', v'⟩ := first
      rw [insertMember] at h
      split at h
      · exact (List.mem_cons.mp h).imp_right (List.mem_cons_of_mem _)
      · split at h
        · exact List.mem_cons.mp h
        · obtain rfl | h := List.mem_cons.mp h
          · exact .inr List.mem_cons_self
          · exact (ih h).imp_right (List.mem_cons_of_mem _)

theorem sortedKeys_insertMember {ms : List (String × Value)} (h : SortedKeys ms) (k : String)
    (v : Value) : SortedKeys (insertMember k v ms) := by
  induction ms with
  | nil => exact List.pairwise_singleton _ _
  | cons first rest ih =>
      obtain ⟨k', v'⟩ := first
      obtain ⟨hfirst, hrest⟩ := List.pairwise_cons.mp h
      rw [insertMember]
      split
      · next heq =>
        subst heq
        exact List.pairwise_cons.mpr ⟨hfirst, hrest⟩
      · next hne =>
        split
        · next hlt =>
          refine List.pairwise_cons.mpr ⟨fun m hm => ?_, h⟩
          obtain rfl | hm := List.mem_cons.mp hm
          · exact hlt
          · exact lt_trans hlt (hfirst m hm)
        · next hnlt =>
          have hlt : k' < k := lt_of_le_of_ne (not_lt.mp hnlt) (Ne.symm hne)
          refine List.pairwise_cons.mpr ⟨fun m hm => ?_, ih hrest⟩
          obtain rfl | hm := mem_of_mem_insertMember hm
          · exact hlt
          · exact hfirst m hm

/-- A member whose key is new is added to the others. -/
theorem insertMember_perm {k : String} (v : Value) {ms : List (String × Value)}
    (h : k ∉ ms.map Prod.fst) : (insertMember k v ms).Perm ((k, v) :: ms) := by
  induction ms with
  | nil => exact .refl _
  | cons first rest ih =>
      obtain ⟨k', v'⟩ := first
      obtain ⟨hne, hrest⟩ := not_or.mp (fun hk => h (List.mem_cons.mpr hk))
      rw [insertMember, if_neg hne]
      split
      · exact .refl _
      · exact ((ih hrest).cons _).trans (.swap _ _ _)

/-- Inserting members one after the other into others. -/
def insertMembers (done ms : List (String × Value)) : List (String × Value) :=
  ms.foldl (fun done m => insertMember m.1 m.2 done) done

theorem sortedKeys_insertMembers {done : List (String × Value)} (h : SortedKeys done)
    (ms : List (String × Value)) : SortedKeys (insertMembers done ms) := by
  induction ms generalizing done with
  | nil => exact h
  | cons m ms ih => exact ih (sortedKeys_insertMember h m.1 m.2)

theorem sortedKeys_sortMembers (ms : List (String × Value)) : SortedKeys (sortMembers ms) :=
  sortedKeys_insertMembers .nil ms

theorem mem_of_mem_insertMembers {done ms : List (String × Value)} {m : String × Value}
    (h : m ∈ insertMembers done ms) : m ∈ done ∨ m ∈ ms := by
  induction ms generalizing done with
  | nil => exact .inl h
  | cons first ms ih =>
      obtain h | h := ih h
      · obtain rfl | h := mem_of_mem_insertMember h
        · exact .inr List.mem_cons_self
        · exact .inl h
      · exact .inr (List.mem_cons_of_mem _ h)

theorem mem_of_mem_sortMembers {ms : List (String × Value)} {m : String × Value}
    (h : m ∈ sortMembers ms) : m ∈ ms := by
  obtain h | h := mem_of_mem_insertMembers h
  · exact absurd h List.not_mem_nil
  · exact h

theorem insertMembers_perm {done ms : List (String × Value)}
    (h : ((done ++ ms).map Prod.fst).Nodup) : (insertMembers done ms).Perm (done ++ ms) := by
  induction ms generalizing done with
  | nil => rw [List.append_nil]; exact .refl _
  | cons m ms ih =>
      obtain ⟨k, v⟩ := m
      have hmiddle : ((done ++ (k, v) :: ms)).Perm ((k, v) :: done ++ ms) := List.perm_middle
      have hnodup := (hmiddle.map Prod.fst).nodup_iff.mp h
      have hnew : k ∉ done.map Prod.fst := fun hk =>
        (List.nodup_cons.mp hnodup).1 (by simpa using .inl (by simpa using hk))
      have hstep := (insertMember_perm v hnew).append_right ms
      refine (ih ?_).trans (hstep.trans hmiddle.symm)
      exact (hstep.map Prod.fst).nodup_iff.mpr hnodup

/-- Members with distinct keys are sorted, none of them lost. -/
theorem sortMembers_perm {ms : List (String × Value)} (h : (ms.map Prod.fst).Nodup) :
    (sortMembers ms).Perm ms :=
  show (insertMembers [] ms).Perm ([] ++ ms) from insertMembers_perm h

theorem SortedKeys.nodup {ms : List (String × Value)} (h : SortedKeys ms) :
    (ms.map Prod.fst).Nodup :=
  List.pairwise_map.mpr (h.imp fun hlt => ne_of_lt hlt)

theorem SortedKeys.eq_of_perm {ms ms' : List (String × Value)} (h : SortedKeys ms)
    (h' : SortedKeys ms') (hperm : ms.Perm ms') : ms = ms' :=
  List.Perm.eq_of_pairwise (fun _ _ _ _ hlt hgt => absurd hgt (lt_asymm hlt)) h h' hperm

theorem sortMembers_of_sortedKeys {ms : List (String × Value)} (h : SortedKeys ms) :
    sortMembers ms = ms :=
  (sortedKeys_sortMembers ms).eq_of_perm h (sortMembers_perm h.nodup)

/-- The order of members does not matter where their keys are distinct. -/
theorem sortMembers_eq_of_perm {ms ms' : List (String × Value)} (h : (ms.map Prod.fst).Nodup)
    (hperm : ms.Perm ms') : sortMembers ms = sortMembers ms' := by
  have h' : (ms'.map Prod.fst).Nodup := (hperm.map Prod.fst).nodup_iff.mp h
  exact (sortedKeys_sortMembers ms).eq_of_perm (sortedKeys_sortMembers ms')
    (((sortMembers_perm h).trans hperm).trans (sortMembers_perm h').symm)

/-! ## Canonical values -/

mutual

/-- Whether the objects inside a value are sorted and its doubles finite. -/
def Value.IsCanonical : Value → Prop
  | .number (.double d) => d.isFinite = true
  | .array items => AllCanonical items
  | .object members => SortedKeys members ∧ AllMembersCanonical members
  | _ => True

/-- Whether all items are canonical. -/
def AllCanonical : List Value → Prop
  | [] => True
  | v :: rest => v.IsCanonical ∧ AllCanonical rest

/-- Whether the values of all members are canonical. -/
def AllMembersCanonical : List (String × Value) → Prop
  | [] => True
  | (_, v) :: rest => v.IsCanonical ∧ AllMembersCanonical rest

end

theorem allMembersCanonical_iff {ms : List (String × Value)} :
    AllMembersCanonical ms ↔ ∀ m ∈ ms, m.2.IsCanonical := by
  induction ms with
  | nil => simp [AllMembersCanonical]
  | cons m ms ih => rw [AllMembersCanonical, ih, List.forall_mem_cons]

theorem isCanonical_ofDouble (d : Double) : (Value.ofDouble d).IsCanonical := by
  unfold Value.ofDouble
  split
  · next h => exact h
  · trivial

theorem itemsToJson?_cons {c : Content} {cs : List Content} {vs : List Value}
    (h : Content.itemsToJson? (c :: cs) = some vs) :
    ∃ v rest, c.toJson? = some v ∧ Content.itemsToJson? cs = some rest ∧ vs = v :: rest := by
  rw [Content.itemsToJson?] at h
  obtain ⟨v, hv, h⟩ := Option.bind_eq_some_iff.mp h
  obtain ⟨rest, hrest, h⟩ := Option.bind_eq_some_iff.mp h
  exact ⟨v, rest, hv, hrest, (Option.some.inj h).symm⟩

theorem entriesToJson?_cons {k c : Content} {es : List (Content × Content)}
    {ms : List (String × Value)} (h : Content.entriesToJson? ((k, c) :: es) = some ms) :
    ∃ s v rest, k = .text s ∧ c.toJson? = some v ∧ Content.entriesToJson? es = some rest ∧
      ms = (s, v) :: rest := by
  cases k with
  | text s =>
      rw [Content.entriesToJson?] at h
      obtain ⟨v, hv, h⟩ := Option.bind_eq_some_iff.mp h
      obtain ⟨rest, hrest, h⟩ := Option.bind_eq_some_iff.mp h
      exact ⟨s, v, rest, rfl, hv, hrest, (Option.some.inj h).symm⟩
  | _ => exact absurd h (by simp [Content.entriesToJson?])

mutual

/-- What content says as a free value is canonical. -/
theorem isCanonical_of_toJson (c : Content) {v : Value} (h : c.toJson? = some v) :
    v.IsCanonical := by
  match c with
  | .null | .bool _ | .natural _ | .negated _ | .text _ =>
      obtain rfl := Option.some.inj h
      trivial
  | .double d =>
      obtain rfl := Option.some.inj h
      exact isCanonical_ofDouble d
  | .sequence cs =>
      rw [Content.toJson?] at h
      obtain ⟨vs, hvs, rfl⟩ := Option.map_eq_some_iff.mp h
      exact allCanonical_of_toJson cs hvs
  | .map es =>
      rw [Content.toJson?] at h
      obtain ⟨ms, hms, rfl⟩ := Option.map_eq_some_iff.mp h
      have hall := allMembersCanonical_iff.mp (allMembersCanonical_of_toJson es hms)
      exact ⟨sortedKeys_sortMembers ms,
        allMembersCanonical_iff.mpr fun m hm => hall m (mem_of_mem_sortMembers hm)⟩

theorem allCanonical_of_toJson (cs : List Content) {vs : List Value}
    (h : Content.itemsToJson? cs = some vs) : AllCanonical vs := by
  match cs with
  | [] =>
      obtain rfl := Option.some.inj h
      trivial
  | c :: cs =>
      obtain ⟨v, rest, hv, hrest, rfl⟩ := itemsToJson?_cons h
      exact ⟨isCanonical_of_toJson c hv, allCanonical_of_toJson cs hrest⟩

theorem allMembersCanonical_of_toJson (es : List (Content × Content)) {ms : List (String × Value)}
    (h : Content.entriesToJson? es = some ms) : AllMembersCanonical ms := by
  match es with
  | [] =>
      obtain rfl := Option.some.inj h
      trivial
  | (k, c) :: es =>
      obtain ⟨s, v, rest, -, hv, hrest, rfl⟩ := entriesToJson?_cons h
      exact ⟨isCanonical_of_toJson c hv, allMembersCanonical_of_toJson es hrest⟩

end

/-! ## Depth -/

mutual

/-- How many containers stand inside each other in a value. -/
def Value.depth : Value → Nat
  | .array items => itemsDepth items + 1
  | .object members => membersDepth members + 1
  | _ => 0

/-- The greatest depth of an item. -/
def itemsDepth : List Value → Nat
  | [] => 0
  | v :: rest => max v.depth (itemsDepth rest)

/-- The greatest depth of the value of a member. -/
def membersDepth : List (String × Value) → Nat
  | [] => 0
  | (_, v) :: rest => max v.depth (membersDepth rest)

end

theorem itemsDepth_le_iff {vs : List Value} {n : Nat} :
    itemsDepth vs ≤ n ↔ ∀ v ∈ vs, v.depth ≤ n := by
  induction vs with
  | nil => simp [itemsDepth]
  | cons v vs ih => rw [itemsDepth, Nat.max_le, ih, List.forall_mem_cons]

theorem membersDepth_le_iff {ms : List (String × Value)} {n : Nat} :
    membersDepth ms ≤ n ↔ ∀ m ∈ ms, m.2.depth ≤ n := by
  induction ms with
  | nil => simp [membersDepth]
  | cons m ms ih => rw [membersDepth, Nat.max_le, ih, List.forall_mem_cons]

theorem depth_ofDouble (d : Double) : (Value.ofDouble d).depth = 0 := by
  unfold Value.ofDouble
  split <;> rfl

mutual

/-- A free value has no more containers inside each other than there was room for. -/
theorem depth_le_of_gather (t : Tree) {room : Nat} {c : Content} {v : Value}
    (h : gather room t = some c) (hv : c.toJson? = some v) : v.depth ≤ room := by
  match t with
  | .null | .bool _ =>
      obtain rfl := Option.some.inj h
      obtain rfl := Option.some.inj hv
      exact Nat.zero_le room
  | .text s =>
      obtain ⟨u, -, rfl⟩ := gather_text h
      obtain rfl := Option.some.inj hv
      exact Nat.zero_le room
  | .number n =>
      obtain ⟨k, rfl⟩ | ⟨k, rfl⟩ | ⟨d, rfl⟩ := gather_number h <;> obtain rfl := Option.some.inj hv
      · exact Nat.zero_le room
      · exact Nat.zero_le room
      · exact (depth_ofDouble d).symm ▸ Nat.zero_le room
  | .broken => exact absurd h (by simp [gather])
  | .array items closed =>
      obtain ⟨r, cs, rfl, -, hcs, rfl⟩ := gather_array h
      rw [Content.toJson?] at hv
      obtain ⟨vs, hvs, rfl⟩ := Option.map_eq_some_iff.mp hv
      exact Nat.succ_le_succ (itemsDepth_le_of_gather items hcs hvs)
  | .object members closed =>
      obtain ⟨r, es, rfl, -, hes, rfl⟩ := gather_object h
      rw [Content.toJson?] at hv
      obtain ⟨ms, hms, rfl⟩ := Option.map_eq_some_iff.mp hv
      have hall := membersDepth_le_iff.mp (membersDepth_le_of_gather members hes hms)
      exact Nat.succ_le_succ
        (membersDepth_le_iff.mpr fun m hm => hall m (mem_of_mem_sortMembers hm))

theorem itemsDepth_le_of_gather (items : List Tree) {room : Nat} {cs : List Content}
    {vs : List Value} (h : gatherItems room items = some cs)
    (hvs : Content.itemsToJson? cs = some vs) : itemsDepth vs ≤ room := by
  match items with
  | [] =>
      obtain rfl := Option.some.inj h
      obtain rfl := Option.some.inj hvs
      exact Nat.zero_le room
  | t :: items =>
      obtain ⟨c, cs, hc, hcs, rfl⟩ := gatherItems_cons h
      obtain ⟨v, rest, hv, hrest, rfl⟩ := itemsToJson?_cons hvs
      exact Nat.max_le.mpr
        ⟨depth_le_of_gather t hc hv, itemsDepth_le_of_gather items hcs hrest⟩

theorem membersDepth_le_of_gather (members : List (Option String × Tree)) {room : Nat}
    {es : List (Content × Content)} {ms : List (String × Value)}
    (h : gatherMembers room members = some es) (hms : Content.entriesToJson? es = some ms) :
    membersDepth ms ≤ room := by
  match members with
  | [] =>
      obtain rfl := Option.some.inj h
      obtain rfl := Option.some.inj hms
      exact Nat.zero_le room
  | (k, t) :: members =>
      obtain ⟨k, c, es, -, hc, hes, rfl⟩ := gatherMembers_cons h
      obtain ⟨s, v, rest, -, hv, hrest, rfl⟩ := entriesToJson?_cons hms
      exact Nat.max_le.mpr
        ⟨depth_le_of_gather t hc hv, membersDepth_le_of_gather members hes hrest⟩

end

/-! ## Reading free values again -/

theorem toJson?_ofNumber {n : Number} (h : (Value.number n).IsCanonical) :
    (Content.ofNumber n).toJson? = some (.number n) := by
  cases n with
  | double d =>
      have hd : Value.ofDouble d = .number (.double d) := if_pos h
      exact congrArg some hd
  | int i =>
      by_cases hi : 0 ≤ i
      · have hnatural : Content.ofNumber (.int i) = .natural i.toNat := if_pos hi
        have hcast : (i.toNat : Int) = i := Int.toNat_of_nonneg hi
        rw [hnatural]
        exact congrArg (fun j => some (Value.number (.int j))) hcast
      · have hnegated : Content.ofNumber (.int i) = .negated i.natAbs := if_neg hi
        have hcast : -(i.natAbs : Int) = i := by omega
        rw [hnegated]
        exact congrArg (fun j => some (Value.number (.int j))) hcast

mutual

/-- A canonical value is read again from its tree, where there is room for it. -/
theorem gather_tree (v : Value) {room : Nat} (hdepth : v.depth ≤ room) :
    ∃ c, gather room v.tree = some c ∧ (v.IsCanonical → c.toJson? = some v) := by
  match v with
  | .null => exact ⟨.null, rfl, fun _ => rfl⟩
  | .bool b => exact ⟨.bool b, rfl, fun _ => rfl⟩
  | .number n => exact ⟨.ofNumber n, rfl, toJson?_ofNumber⟩
  | .text s => exact ⟨.text s, rfl, fun _ => rfl⟩
  | .array items =>
      obtain ⟨r, rfl⟩ : ∃ r, room = r + 1 := ⟨room - 1, by rw [Value.depth] at hdepth; omega⟩
      obtain ⟨cs, hcs, hjson⟩ := gather_itemTrees items (Nat.le_of_succ_le_succ hdepth)
      refine ⟨.sequence cs, ?_, fun h => ?_⟩
      · rw [Value.tree, gather, if_pos rfl, hcs, Option.map_some]
      · rw [Content.toJson?, hjson h, Option.map_some]
  | .object members =>
      obtain ⟨r, rfl⟩ : ∃ r, room = r + 1 := ⟨room - 1, by rw [Value.depth] at hdepth; omega⟩
      obtain ⟨es, hes, hjson⟩ := gather_memberTrees members (Nat.le_of_succ_le_succ hdepth)
      refine ⟨.map es, ?_, fun h => ?_⟩
      · rw [Value.tree, gather, if_pos rfl, hes, Option.map_some]
      · rw [Content.toJson?, hjson h.2, Option.map_some, sortMembers_of_sortedKeys h.1]

theorem gather_itemTrees (items : List Value) {room : Nat} (hdepth : itemsDepth items ≤ room) :
    ∃ cs, gatherItems room (itemTrees items) = some cs ∧
      (AllCanonical items → Content.itemsToJson? cs = some items) := by
  match items with
  | [] => exact ⟨[], rfl, fun _ => rfl⟩
  | v :: items =>
      obtain ⟨hfirst, hothers⟩ := Nat.max_le.mp hdepth
      obtain ⟨c, hc, hv⟩ := gather_tree v hfirst
      obtain ⟨cs, hcs, hvs⟩ := gather_itemTrees items hothers
      refine ⟨c :: cs, ?_, fun h => ?_⟩
      · rw [itemTrees, gatherItems, hc, hcs]
        rfl
      · rw [Content.itemsToJson?, hv h.1, hvs h.2]
        rfl

theorem gather_memberTrees (members : List (String × Value)) {room : Nat}
    (hdepth : membersDepth members ≤ room) :
    ∃ es, gatherMembers room (memberTrees members) = some es ∧
      (AllMembersCanonical members → Content.entriesToJson? es = some members) := by
  match members with
  | [] => exact ⟨[], rfl, fun _ => rfl⟩
  | (k, v) :: members =>
      obtain ⟨hfirst, hothers⟩ := Nat.max_le.mp hdepth
      obtain ⟨c, hc, hv⟩ := gather_tree v hfirst
      obtain ⟨es, hes, hms⟩ := gather_memberTrees members hothers
      refine ⟨(.text k, c) :: es, ?_, fun h => ?_⟩
      · rw [memberTrees, gatherMembers, hc, hes]
        rfl
      · rw [Content.entriesToJson?, hv h.1, hms h.2]
        rfl

end

/-! ## Trees of finite numbers -/

mutual

/-- Whether the doubles inside a tree are finite. -/
def Tree.IsFinite : Tree → Prop
  | .number n => ∀ d, n = some (.double d) → d.isFinite = true
  | .array items _ => AllFinite items
  | .object members _ => AllMembersFinite members
  | _ => True

/-- Whether all items are finite. -/
def AllFinite : List Tree → Prop
  | [] => True
  | t :: rest => t.IsFinite ∧ AllFinite rest

/-- Whether the values of all members are finite. -/
def AllMembersFinite : List (Option String × Tree) → Prop
  | [] => True
  | (_, t) :: rest => t.IsFinite ∧ AllMembersFinite rest

end

theorem allFinite_iff {ts : List Tree} : AllFinite ts ↔ ∀ t ∈ ts, t.IsFinite := by
  induction ts with
  | nil => simp [AllFinite]
  | cons t ts ih => rw [AllFinite, ih, List.forall_mem_cons]

theorem allMembersFinite_iff {ms : List (Option String × Tree)} :
    AllMembersFinite ms ↔ ∀ m ∈ ms, m.2.IsFinite := by
  induction ms with
  | nil => simp [AllMembersFinite]
  | cons m ms ih => rw [AllMembersFinite, ih, List.forall_mem_cons]

theorem isFinite_readNumber (cs : List Char) : (readNumber cs).1.IsFinite := by
  unfold readNumber
  split
  · intro d hd
    exact Numeral.isFinite_of_value hd
  · trivial

theorem isFinite_read (fuel : Nat) :
    (∀ cs, (readValue fuel cs).1.IsFinite) ∧ (∀ cs, AllFinite (readItems fuel cs).1) ∧
      ∀ cs, AllMembersFinite (readMembers fuel cs).1 := by
  induction fuel with
  | zero => exact ⟨fun cs => trivial, fun cs => ⟨trivial, trivial⟩, fun cs => trivial⟩
  | succ fuel ih =>
      obtain ⟨hvalue, hitems, hmembers⟩ := ih
      refine ⟨fun cs => ?_, fun cs => ?_, fun cs => ?_⟩
      · rw [readValue]
        split
        · split <;> trivial
        · split
          · trivial
          · exact hitems _
        · split
          · trivial
          · exact hmembers _
        · trivial
        · trivial
        · trivial
        · exact isFinite_readNumber _
      · have hfirst := hvalue cs
        rw [readItems]
        split
        · next heq =>
          rw [heq] at hfirst
          exact ⟨hfirst, trivial⟩
        · next heq =>
          rw [heq] at hfirst
          split
          · exact ⟨hfirst, hitems _⟩
          · exact ⟨hfirst, trivial⟩
          · exact ⟨hfirst, trivial⟩
      · rw [readMembers]
        split
        · split
          · trivial
          · split
            · next rest _ _ _ _ value _ =>
              have hfirst := hvalue value
              split
              · next heq =>
                rw [heq] at hfirst
                exact ⟨hfirst, trivial⟩
              · next heq =>
                rw [heq] at hfirst
                split
                · exact ⟨hfirst, hmembers _⟩
                · exact ⟨hfirst, trivial⟩
                · exact ⟨hfirst, trivial⟩
            · exact ⟨trivial, trivial⟩
        · trivial

/-- No text writes a number that is infinite. -/
theorem isFinite_ofText (text : String) : (Tree.ofText text).1.IsFinite := by
  have hvalue := (isFinite_read (2 * text.toList.length + 2)).1 text.toList
  unfold Tree.ofText
  exact hvalue

/-- Only null is null as a free value, among trees of finite numbers. -/
theorem ne_null_of_toJson {t : Tree} (hfinite : t.IsFinite) (ht : t ≠ .null) {room : Nat}
    {c : Content} {v : Value} (h : gather room t = some c) (hv : c.toJson? = some v) :
    v ≠ .null := by
  cases t with
  | null => exact absurd rfl ht
  | bool b =>
      obtain rfl := Option.some.inj h
      obtain rfl := Option.some.inj hv
      simp
  | number n =>
      obtain ⟨m, rfl, rfl⟩ := Option.map_eq_some_iff.mp h
      have hm : (Value.number m).IsCanonical := by
        cases m with
        | int i => trivial
        | double d => exact hfinite d rfl
      obtain rfl := Option.some.inj ((toJson?_ofNumber hm).symm.trans hv)
      simp
  | text s =>
      obtain ⟨u, -, rfl⟩ := gather_text h
      obtain rfl := Option.some.inj hv
      simp
  | array items closed =>
      obtain ⟨r, cs, -, -, -, rfl⟩ := gather_array h
      rw [Content.toJson?] at hv
      obtain ⟨vs, -, rfl⟩ := Option.map_eq_some_iff.mp hv
      simp
  | object members closed =>
      obtain ⟨r, es, -, -, -, rfl⟩ := gather_object h
      rw [Content.toJson?] at hv
      obtain ⟨ms, -, rfl⟩ := Option.map_eq_some_iff.mp hv
      simp
  | broken => exact absurd h (by simp [gather])

end SwaggerRoutes.Json
