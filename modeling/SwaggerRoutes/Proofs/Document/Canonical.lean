/-
  Proofs/Document/Canonical.lean --- a value that was decoded is decoded again from its own text.

  A decoded value is canonical: its free values are, and what an option holds is never written as
  null.  Of a canonical value of a regular shape the tree decodes to the value itself, if there is
  room (`value?_tree`).  A shape is regular when writing can be undone at all: no record has two
  fields of one name, options are not nested, and of two alternatives the second never shows a field
  that the first one needs.

  Encoding may add containers, since a record that is missing is written as an object without
  members.  `Shape.height` bounds what it can add.
-/
import SwaggerRoutes.Proofs.Json.Free

set_option autoImplicit false

namespace SwaggerRoutes.Document

open Json

/-! ## Regular shapes -/

/-- Whether a value of the shape may be written as null, other than a free one. -/
def Shape.isNullable : Shape → Bool
  | .optional _ => true
  | .either _ _ _ => true
  | _ => false

/-- The names of the fields that must be there. -/
def Fields.neededNames : Fields → List String
  | .nil => []
  | .cons key presence _ rest =>
    if presence = .needed then key :: rest.neededNames else rest.neededNames

/-- Whether a record needs a field that another one does not have. -/
def Shape.isApart : Shape → Shape → Bool
  | .record _ _ fs, .record _ _ gs => fs.neededNames.any fun key => decide (key ∉ gs.names)
  | _, _ => false

mutual

/-- Whether what is written in a shape says which value is meant. -/
def Shape.isRegular : Shape → Bool
  | .text _ => true
  | .flag => true
  | .choice _ first others => decide (first :: others).Nodup
  | .free => true
  | .optional s => !s.isNullable && s.isRegular
  | .list s => s.isRegular
  | .table s => s.isRegular
  | .record _ _ fs => decide fs.names.Nodup && fs.isRegular
  | .either _ a b => a.isApart b && (a.isRegular && b.isRegular)

/-- Whether the shapes of all fields are regular. -/
def Fields.isRegular : Fields → Bool
  | .nil => true
  | .cons _ _ s rest => s.isRegular && rest.isRegular

end

/-! ## Canonical values -/

mutual

/-- Whether the free values inside a value are canonical, and nothing that an option holds is
written as null. -/
def Shape.IsCanonical : (s : Shape) → s.Value → Prop
  | .text _, _ => True
  | .flag, _ => True
  | .choice _ _ _, _ => True
  | .free, v => v.IsCanonical
  | .optional s, o =>
    match o with
    | none => True
    | some v => s.encode v ≠ .null ∧ s.IsCanonical v
  | .list s, vs => ∀ v ∈ vs, s.IsCanonical v
  | .table s, t => ∀ e ∈ t.entries, s.IsCanonical e.2
  | .record _ _ fs, vs => fs.AreCanonical vs
  | .either _ a b, v =>
    match v with
    | .inl v => a.IsCanonical v
    | .inr v => b.IsCanonical v

/-- Whether the values of all fields are canonical. -/
def Fields.AreCanonical : (fs : Fields) → fs.Values → Prop
  | .nil, _ => True
  | .cons _ _ s rest, (v, vs) => s.IsCanonical v ∧ rest.AreCanonical vs

end

mutual

theorem Shape.isCanonical_absent : (s : Shape) → s.IsCanonical s.absent
  | .text _ => trivial
  | .flag => trivial
  | .choice _ _ _ => trivial
  | .free => trivial
  | .optional _ => trivial
  | .list _ => fun _ h => absurd h List.not_mem_nil
  | .table _ => fun _ h => absurd h List.not_mem_nil
  | .record _ _ fs => fs.areCanonical_absent
  | .either _ a _ => a.isCanonical_absent

theorem Fields.areCanonical_absent : (fs : Fields) → fs.AreCanonical fs.absent
  | .nil => trivial
  | .cons _ _ s rest => ⟨s.isCanonical_absent, rest.areCanonical_absent⟩

end

/-- Only options, alternatives and free values are ever written as null. -/
theorem Shape.encode_ne_null {s : Shape} (h : s.isNullable = false) (hfree : s ≠ .free)
    (v : s.Value) : s.encode v ≠ .null := by
  cases s with
  | free => exact absurd rfl hfree
  | optional s => exact absurd h.symm Bool.false_ne_true
  | either name a b => exact absurd h.symm Bool.false_ne_true
  | _ => unfold Shape.encode; simp

/-! ### Parts of lists and tables -/

theorem exists_of_mem_mapM {α β : Type} {f : α → Option β} {xs : List α} {ys : List β}
    (h : xs.mapM f = some ys) {y : β} (hy : y ∈ ys) : ∃ x ∈ xs, f x = some y := by
  induction xs generalizing ys with
  | nil =>
      obtain rfl := Option.some.inj h
      exact absurd hy List.not_mem_nil
  | cons x xs ih =>
      rw [List.mapM_cons] at h
      obtain ⟨z, hz, h⟩ := Option.bind_eq_some_iff.mp h
      obtain ⟨zs, hzs, h⟩ := Option.bind_eq_some_iff.mp h
      obtain rfl := Option.some.inj h
      obtain rfl | hy := List.mem_cons.mp hy
      · exact ⟨x, List.mem_cons_self, hz⟩
      · obtain ⟨w, hw, hfw⟩ := ih hzs hy
        exact ⟨w, List.mem_cons_of_mem x hw, hfw⟩

theorem snd_of_mem_putEntry {κ α : Type} [DecidableEq κ] {k : κ} {a : α} {es : List (κ × α)}
    {e : κ × α} (h : e ∈ putEntry k a es) : e.2 = a ∨ e ∈ es := by
  induction es with
  | nil => exact .inl (congrArg Prod.snd (List.mem_singleton.mp h))
  | cons first rest ih =>
      obtain ⟨k', a'⟩ := first
      rw [putEntry] at h
      split at h
      · obtain rfl | h := List.mem_cons.mp h
        · exact .inl rfl
        · exact .inr (List.mem_cons_of_mem _ h)
      · obtain rfl | h := List.mem_cons.mp h
        · exact .inr List.mem_cons_self
        · exact (ih h).imp_right (List.mem_cons_of_mem _)

/-- The values of a table that is read come from its members. -/
theorem exists_of_mem_entries {s : Shape} {room : Nat} {members : List (Option String × Tree)}
    {t t' : Table String s.Value} (h : members.foldlM (insertValue s room) t = some t')
    {e : String × s.Value} (he : e ∈ t'.entries) :
    e ∈ t.entries ∨ ∃ m ∈ members, value? s room m.2 = some e.2 := by
  induction members generalizing t with
  | nil =>
      obtain rfl := Option.some.inj h
      exact .inl he
  | cons m members ih =>
      rw [List.foldlM_cons] at h
      obtain ⟨t₁, ht₁, h⟩ := Option.bind_eq_some_iff.mp h
      obtain hmem | ⟨n, hn, hvalue⟩ := ih h
      · unfold insertValue at ht₁
        obtain ⟨k, -, ht₁⟩ := Option.bind_eq_some_iff.mp ht₁
        obtain ⟨v, hv, ht₁⟩ := Option.bind_eq_some_iff.mp ht₁
        obtain rfl := Option.some.inj ht₁
        obtain heq | hmem := snd_of_mem_putEntry hmem
        · exact .inr ⟨m, List.mem_cons_self, heq ▸ hv⟩
        · exact .inl hmem
      · exact .inr ⟨n, List.mem_cons_of_mem m hn, hvalue⟩

/-! ### Decoded values are canonical -/

theorem mem_of_mem_valuesOf {key : String} {members : List (Option String × Tree)} {t : Tree}
    (h : t ∈ valuesOf key members) : ∃ m ∈ members, m.2 = t := by
  obtain ⟨m, hm, heq⟩ := List.mem_filterMap.mp h
  split at heq
  · exact ⟨m, hm, Option.some.inj heq⟩
  · exact absurd heq (by simp)

/-- The value of a field that was not read before is the one of absence or is decoded. -/
theorem eq_absent_or_decoded {presence : Presence} {s : Shape} {room : Nat} {ts : List Tree}
    {v : s.Value} (h : fieldValue? presence s room none ts = some v) :
    (presence ≠ .needed ∧ v = s.absent) ∨ ∃ t ∈ ts, value? s room t = some v := by
  match ts with
  | [] =>
      rw [fieldValue?] at h
      split at h
      · exact absurd h (by simp)
      · next hp => exact .inl ⟨hp, (Option.some.inj h).symm⟩
  | [t] => exact .inr ⟨t, List.mem_cons_self, h⟩
  | _ :: _ :: _ => exact absurd h (by simp [fieldValue?])

mutual

/-- Values decoded from trees of finite numbers are canonical. -/
theorem Shape.isCanonical_of_value? (s : Shape) (hs : s.isRegular = true) {room : Nat} {t : Tree}
    (ht : t.IsFinite) {v : s.Value} (h : value? s room t = some v) : s.IsCanonical v := by
  match s with
  | .text _ => trivial
  | .flag => trivial
  | .choice _ _ _ => trivial
  | .free =>
      rw [value?_free] at h
      obtain ⟨c, -, hc⟩ := Option.bind_eq_some_iff.mp h
      exact isCanonical_of_toJson c hc
  | .optional s =>
      rw [Shape.isRegular, Bool.and_eq_true, Bool.not_eq_true'] at hs
      by_cases hnull : t = .null
      · subst hnull
        rw [value?_null] at h
        obtain rfl := Option.some.inj h
        trivial
      · rw [value?_optional s room hnull] at h
        obtain ⟨w, hw, rfl⟩ := Option.map_eq_some_iff.mp h
        refine ⟨?_, s.isCanonical_of_value? hs.2 ht hw⟩
        by_cases hfree : s = .free
        · subst hfree
          rw [value?_free] at hw
          obtain ⟨c, hc, hv⟩ := Option.bind_eq_some_iff.mp hw
          exact ne_null_of_toJson ht hnull hc hv
        · exact Shape.encode_ne_null hs.1 hfree w
  | .list s =>
      obtain ⟨r, items, rfl, rfl, hitems⟩ := exists_of_value?_list h
      intro w hw
      obtain ⟨u, hu, hvalue⟩ := exists_of_mem_mapM hitems hw
      exact s.isCanonical_of_value? hs (allFinite_iff.mp ht u hu) hvalue
  | .table s =>
      obtain ⟨r, members, rfl, rfl, hmembers⟩ := exists_of_value?_table h
      intro e he
      obtain hmem | ⟨m, hm, hvalue⟩ := exists_of_mem_entries hmembers he
      · exact absurd hmem List.not_mem_nil
      · exact s.isCanonical_of_value? hs (allMembersFinite_iff.mp ht m hm) hvalue
  | .record _ _ fs =>
      rw [Shape.isRegular, Bool.and_eq_true, decide_eq_true_eq] at hs
      obtain ⟨r, rfl, ⟨items, rfl, hitems⟩ | ⟨members, rfl, hmembers⟩⟩ :=
        exists_of_value?_record hs.1 h
      · exact fs.areCanonical_of_items hs.2 (allFinite_iff.mp ht) hitems
      · exact fs.areCanonical_of_members hs.2 (allMembersFinite_iff.mp ht) hmembers
  | .either name a b =>
      rw [Shape.isRegular, Bool.and_eq_true, Bool.and_eq_true] at hs
      rw [value?_either] at h
      obtain ⟨c, hc, h⟩ := Option.bind_eq_some_iff.mp h
      rw [fits_eq_value? a hc, fits_eq_value? b hc] at h
      split at h
      · next w hw =>
        obtain rfl := Option.some.inj h
        exact a.isCanonical_of_value? hs.2.1 ht hw
      · obtain ⟨w, hw, rfl⟩ := Option.map_eq_some_iff.mp h
        exact b.isCanonical_of_value? hs.2.2 ht hw

theorem Fields.areCanonical_of_items (fs : Fields) (hfs : fs.isRegular = true) {room : Nat}
    {items : List Tree} (ht : ∀ t ∈ items, t.IsFinite) {vs : fs.Values}
    (h : itemValues? fs room items = some vs) : fs.AreCanonical vs := by
  match fs with
  | .nil => trivial
  | .cons _ _ s rest =>
      rw [Fields.isRegular, Bool.and_eq_true] at hfs
      obtain ⟨v, ws, hws, rfl, hv⟩ := exists_of_itemValues?_cons h
      refine ⟨?_, rest.areCanonical_of_items hfs.2 (fun t hmem => ?_) hws⟩
      · obtain rfl | ⟨t, hmem, hvalue⟩ := hv
        · exact s.isCanonical_absent
        · exact s.isCanonical_of_value? hfs.1 (ht t hmem) hvalue
      · exact ht t (List.mem_of_mem_tail hmem)

theorem Fields.areCanonical_of_members (fs : Fields) (hfs : fs.isRegular = true) {room : Nat}
    {members : List (Option String × Tree)} (ht : ∀ m ∈ members, m.2.IsFinite) {vs : fs.Values}
    (h : fieldValues? fs room fs.noSlots members = some vs) : fs.AreCanonical vs := by
  match fs with
  | .nil => trivial
  | .cons key presence s rest =>
      obtain ⟨v, ws, hv, hws, rfl⟩ := exists_of_fieldValues?_cons h
      rw [Fields.isRegular, Bool.and_eq_true] at hfs
      refine ⟨?_, rest.areCanonical_of_members hfs.2 ht hws⟩
      obtain ⟨-, rfl⟩ | ⟨t, hmem, hvalue⟩ := eq_absent_or_decoded hv
      · exact s.isCanonical_absent
      · obtain ⟨m, hm, rfl⟩ := mem_of_mem_valuesOf hmem
        exact s.isCanonical_of_value? hfs.1 (ht m hm) hvalue

end

/-! ## Depth of encoded values -/

mutual

/-- How many containers stand inside each other in a value of which nothing is given. -/
def Shape.height : Shape → Nat
  | .optional s => s.height
  | .list s => s.height + 1
  | .table s => s.height + 1
  | .record _ _ fs => fs.height + 1
  | .either _ a b => max a.height b.height
  | _ => 0

/-- The greatest height of a field. -/
def Fields.height : Fields → Nat
  | .nil => 0
  | .cons _ _ s rest => max s.height rest.height

end

theorem membersDepth_encode_cons (key : String) (presence : Presence) (s : Shape) (rest : Fields)
    (v : s.Value) (vs : rest.Values) :
    membersDepth ((Fields.cons key presence s rest).encode (v, vs)) ≤
      max (s.encode v).depth (membersDepth (rest.encode vs)) := by
  rw [Fields.encode]
  split
  · exact Nat.le_max_right _ _
  · exact Nat.le_refl _

mutual

theorem Shape.depth_encode_absent (s : Shape) : (s.encode s.absent).depth ≤ s.height := by
  match s with
  | .text _ | .flag | .choice _ _ _ | .free => exact Nat.le_refl 0
  | .optional _ => exact Nat.zero_le _
  | .list _ | .table _ => exact Nat.succ_le_succ (Nat.zero_le _)
  | .record _ _ fs => exact Nat.succ_le_succ fs.membersDepth_encode_absent
  | .either _ a b => exact Nat.le_trans a.depth_encode_absent (Nat.le_max_left _ _)

theorem Fields.membersDepth_encode_absent (fs : Fields) :
    membersDepth (fs.encode fs.absent) ≤ fs.height := by
  match fs with
  | .nil => exact Nat.le_refl 0
  | .cons key presence s rest =>
      have hcons := membersDepth_encode_cons key presence s rest s.absent rest.absent
      have hfirst := s.depth_encode_absent
      have hothers := rest.membersDepth_encode_absent
      rw [Fields.height]
      exact Nat.le_trans hcons (by omega)

end

mutual

/-- Encoding a decoded value needs no more room than decoding had, or than absence takes. -/
theorem Shape.depth_encode_le (s : Shape) (hs : s.isRegular = true) {room : Nat} {t : Tree}
    {v : s.Value} (h : value? s room t = some v) : (s.encode v).depth ≤ max room s.height := by
  match s with
  | .text _ | .flag | .choice _ _ _ => exact Nat.zero_le _
  | .free =>
      rw [value?_free] at h
      obtain ⟨c, hc, hv⟩ := Option.bind_eq_some_iff.mp h
      exact Nat.le_trans (depth_le_of_gather t hc hv) (Nat.le_max_left _ _)
  | .optional s =>
      rw [Shape.isRegular, Bool.and_eq_true] at hs
      by_cases hnull : t = .null
      · subst hnull
        rw [value?_null] at h
        obtain rfl := Option.some.inj h
        exact Nat.zero_le _
      · rw [value?_optional s room hnull] at h
        obtain ⟨w, hw, rfl⟩ := Option.map_eq_some_iff.mp h
        exact s.depth_encode_le hs.2 hw
  | .list s =>
      obtain ⟨r, items, rfl, rfl, hitems⟩ := exists_of_value?_list h
      have hdepth : itemsDepth (v.map s.encode) ≤ max r s.height := by
        refine itemsDepth_le_iff.mpr fun j hj => ?_
        obtain ⟨w, hw, rfl⟩ := List.mem_map.mp hj
        obtain ⟨u, hu, hvalue⟩ := exists_of_mem_mapM hitems hw
        exact s.depth_encode_le hs hvalue
      rw [Shape.encode, Value.depth, Shape.height]
      omega
  | .table s =>
      obtain ⟨r, members, rfl, rfl, hmembers⟩ := exists_of_value?_table h
      have hdepth : membersDepth (v.entries.map fun e => (e.1, s.encode e.2)) ≤
          max r s.height := by
        refine membersDepth_le_iff.mpr fun j hj => ?_
        obtain ⟨e, he, rfl⟩ := List.mem_map.mp hj
        obtain hmem | ⟨m, hm, hvalue⟩ := exists_of_mem_entries hmembers he
        · exact absurd hmem List.not_mem_nil
        · exact s.depth_encode_le hs hvalue
      rw [Shape.encode, Value.depth, Shape.height]
      omega
  | .record _ _ fs =>
      rw [Shape.isRegular, Bool.and_eq_true, decide_eq_true_eq] at hs
      obtain ⟨r, rfl, hread⟩ := exists_of_value?_record hs.1 h
      have hdepth : membersDepth (fs.encode v) ≤ max r fs.height := by
        obtain ⟨items, rfl, hitems⟩ | ⟨members, rfl, hmembers⟩ := hread
        · exact fs.membersDepth_encode_of_items hs.2 hitems
        · exact fs.membersDepth_encode_of_members hs.2 hmembers
      rw [Shape.encode, Value.depth, Shape.height]
      omega
  | .either name a b =>
      rw [Shape.isRegular, Bool.and_eq_true, Bool.and_eq_true] at hs
      rw [value?_either] at h
      obtain ⟨c, hc, h⟩ := Option.bind_eq_some_iff.mp h
      rw [fits_eq_value? a hc, fits_eq_value? b hc] at h
      rw [Shape.height]
      split at h
      · next w hw =>
        obtain rfl := Option.some.inj h
        have hdepth := a.depth_encode_le hs.2.1 hw
        exact Nat.le_trans hdepth (by omega)
      · obtain ⟨w, hw, rfl⟩ := Option.map_eq_some_iff.mp h
        have hdepth := b.depth_encode_le hs.2.2 hw
        exact Nat.le_trans hdepth (by omega)

theorem Fields.membersDepth_encode_of_items (fs : Fields) (hfs : fs.isRegular = true) {room : Nat}
    {items : List Tree} {vs : fs.Values} (h : itemValues? fs room items = some vs) :
    membersDepth (fs.encode vs) ≤ max room fs.height := by
  match fs with
  | .nil => exact Nat.zero_le _
  | .cons key presence s rest =>
      rw [Fields.isRegular, Bool.and_eq_true] at hfs
      obtain ⟨v, ws, hws, rfl, hv⟩ := exists_of_itemValues?_cons h
      have hcons := membersDepth_encode_cons key presence s rest v ws
      have hfirst : (s.encode v).depth ≤ max room s.height := by
        obtain rfl | ⟨t, -, hvalue⟩ := hv
        · exact Nat.le_trans s.depth_encode_absent (Nat.le_max_right _ _)
        · exact s.depth_encode_le hfs.1 hvalue
      have hothers := rest.membersDepth_encode_of_items hfs.2 hws
      rw [Fields.height]
      exact Nat.le_trans hcons (by omega)

theorem Fields.membersDepth_encode_of_members (fs : Fields) (hfs : fs.isRegular = true)
    {room : Nat} {members : List (Option String × Tree)} {vs : fs.Values}
    (h : fieldValues? fs room fs.noSlots members = some vs) :
    membersDepth (fs.encode vs) ≤ max room fs.height := by
  match fs with
  | .nil => exact Nat.zero_le _
  | .cons key presence s rest =>
      rw [Fields.isRegular, Bool.and_eq_true] at hfs
      obtain ⟨v, ws, hv, hws, rfl⟩ := exists_of_fieldValues?_cons h
      have hcons := membersDepth_encode_cons key presence s rest v ws
      have hfirst : (s.encode v).depth ≤ max room s.height := by
        obtain ⟨-, rfl⟩ | ⟨t, -, hvalue⟩ := eq_absent_or_decoded hv
        · exact Nat.le_trans s.depth_encode_absent (Nat.le_max_right _ _)
        · exact s.depth_encode_le hfs.1 hvalue
      have hothers := rest.membersDepth_encode_of_members hfs.2 hws
      rw [Fields.height]
      exact Nat.le_trans hcons (by omega)

end

/-! ## Decoding what was encoded -/

theorem choiceIndex?_choiceName {first : String} {others : List String}
    (h : (first :: others).Nodup) (i : Fin (others.length + 1)) :
    choiceIndex? first others (choiceName first others i) = some i := by
  unfold choiceIndex? choiceName
  refine List.finIdxOf?_eq_some_iff.mpr ⟨rfl, fun j hj heq => ?_⟩
  exact List.pairwise_iff_getElem.mp h j i j.isLt i.isLt hj heq

theorem Shape.eq_absent_of_isVacant {s : Shape} {v : s.Value} (h : s.isVacant v = true) :
    v = s.absent := by
  cases s with
  | optional s => exact Option.isNone_iff_eq_none.mp h
  | list s => exact List.isEmpty_iff.mp h
  | table s => exact Table.ext (List.isEmpty_iff.mp h)
  | _ => exact absurd h Bool.false_ne_true

theorem Fields.mem_names_of_mem_encode {fs : Fields} {vs : fs.Values} {m : String × Json.Value}
    (h : m ∈ fs.encode vs) : m.1 ∈ fs.names := by
  match fs with
  | .nil => exact absurd h List.not_mem_nil
  | .cons key presence s rest =>
      rw [Fields.encode] at h
      split at h
      · exact List.mem_cons_of_mem key (Fields.mem_names_of_mem_encode h)
      · obtain rfl | h := List.mem_cons.mp h
        · exact List.mem_cons_self
        · exact List.mem_cons_of_mem key (Fields.mem_names_of_mem_encode h)

theorem valuesOf_eq_nil {key : String} {members : List (Option String × Tree)}
    (h : ∀ m ∈ members, m.1 ≠ some key) : valuesOf key members = [] :=
  List.filterMap_eq_nil_iff.mpr fun m hm => if_neg (h m hm)

theorem Fields.valuesOf_encode_eq_nil {fs : Fields} (vs : fs.Values) {key : String}
    (h : key ∉ fs.names) : valuesOf key (memberTrees (fs.encode vs)) = [] := by
  refine valuesOf_eq_nil fun m hm heq => ?_
  rw [memberTrees_eq_map] at hm
  obtain ⟨n, hn, rfl⟩ := List.mem_map.mp hm
  exact h (Option.some.inj heq ▸ Fields.mem_names_of_mem_encode hn)

theorem Fields.isReadable_encode (fs : Fields) (vs : fs.Values) :
    isReadable fs (memberTrees (fs.encode vs)) = true := by
  refine List.all_eq_true.mpr fun m hm => ?_
  rw [memberTrees_eq_map] at hm
  obtain ⟨n, hn, rfl⟩ := List.mem_map.mp hm
  have hmem := Fields.mem_names_of_mem_encode hn
  simp [hmem]

/-- Without a member for a field that it needs, a record has no value. -/
theorem Fields.fieldValues?_eq_none {fs : Fields} {key : String} (hkey : key ∈ fs.neededNames)
    {members : List (Option String × Tree)} (h : valuesOf key members = []) (room : Nat) :
    fieldValues? fs room fs.noSlots members = none := by
  match fs with
  | .nil => exact absurd hkey List.not_mem_nil
  | .cons name presence s rest =>
      rw [Fields.neededNames] at hkey
      rw [Fields.noSlots, fieldValues?]
      have hrest (hmem : key ∈ rest.neededNames) :
          fieldValues? rest room rest.noSlots members = none :=
        Fields.fieldValues?_eq_none hmem h room
      split at hkey
      · next hp =>
        obtain rfl | hmem := List.mem_cons.mp hkey
        · rw [h, fieldValue?, if_pos hp]
          rfl
        · rw [hrest hmem]
          cases fieldValue? presence s room none (valuesOf name members) <;> rfl
      · rw [hrest hkey]
        cases fieldValue? presence s room none (valuesOf name members) <;> rfl

/-- What is written in a shape has no value of one that it is apart from. -/
theorem Shape.value?_of_isApart {a b : Shape} (h : a.isApart b = true) (ha : a.isRegular = true)
    (v : b.Value) (room : Nat) : value? a room (b.encode v).tree = none := by
  match a, b with
  | .record _ _ fs, .record _ _ gs =>
      obtain ⟨key, hkey, hout⟩ := List.any_eq_true.mp h
      rw [Shape.isRegular, Bool.and_eq_true, decide_eq_true_eq] at ha
      cases room with
      | zero => exact value?_of_no_room rfl
      | succ r =>
          rw [Shape.encode, Value.tree, value?_object ha.1,
            Fields.fieldValues?_eq_none hkey
              (Fields.valuesOf_encode_eq_nil v (of_decide_eq_true hout))]
          split <;> rfl

theorem mapM_tree {s : Shape} {room : Nat} {vs : List s.Value}
    (h : ∀ v ∈ vs, value? s room (s.encode v).tree = some v) :
    (itemTrees (vs.map s.encode)).mapM (value? s room) = some vs := by
  induction vs with
  | nil => rfl
  | cons v vs ih =>
      rw [List.map_cons, itemTrees, List.mapM_cons, h v List.mem_cons_self,
        ih fun w hw => h w (List.mem_cons_of_mem v hw)]
      rfl

theorem putEntry_of_not_mem {κ α : Type} [DecidableEq κ] {k : κ} {es : List (κ × α)}
    (h : k ∉ es.map Prod.fst) (a : α) : putEntry k a es = es ++ [(k, a)] := by
  induction es with
  | nil => rfl
  | cons e es ih =>
      obtain ⟨hne, hrest⟩ := not_or.mp fun hk => h (List.mem_cons.mpr hk)
      rw [putEntry, if_neg (Ne.symm hne), ih hrest]
      rfl

/-- Reading the entries of a table adds them to those that were read before. -/
theorem foldlM_tree {s : Shape} {room : Nat} {es : List (String × s.Value)}
    (h : ∀ e ∈ es, value? s room (s.encode e.2).tree = some e.2) {t t' : Table String s.Value}
    (ht : t'.entries = t.entries ++ es) :
    (memberTrees (es.map fun e => (e.1, s.encode e.2))).foldlM (insertValue s room) t =
      some t' := by
  induction es generalizing t with
  | nil =>
      rw [List.append_nil] at ht
      obtain rfl := Table.ext ht
      rfl
  | cons e es ih =>
      have hnew : e.1 ∉ t.entries.map Prod.fst := by
        have hdistinct := t'.distinct
        rw [ht, List.map_append, List.nodup_append] at hdistinct
        exact fun hmem => hdistinct.2.2 _ hmem _ List.mem_cons_self rfl
      have hinsert : (t.insert e.1 e.2).entries = t.entries ++ [e] :=
        putEntry_of_not_mem hnew e.2
      rw [List.map_cons, memberTrees, List.foldlM_cons, insertValue]
      simp only [h e List.mem_cons_self]
      refine ih (fun d hd => h d (List.mem_cons_of_mem e hd)) ?_
      rw [ht, hinsert, List.append_assoc]
      rfl

theorem tree_ne_null {v : Json.Value} (h : v ≠ .null) : v.tree ≠ .null := by
  cases v with
  | null => exact absurd rfl h
  | _ => unfold Value.tree; simp

/-- A container fits only where there is room. -/
theorem exists_room {n room : Nat} (h : n + 1 ≤ room) : ∃ r, room = r + 1 :=
  ⟨room - 1, by omega⟩

mutual

/-- A canonical value is decoded from its own tree, where there is room for it. -/
theorem Shape.value?_tree (s : Shape) (hs : s.isRegular = true) {room : Nat} {v : s.Value}
    (hv : s.IsCanonical v) (hdepth : (s.encode v).depth ≤ room) :
    value? s room (s.encode v).tree = some v := by
  match s with
  | .text _ => rfl
  | .flag => rfl
  | .choice name first others =>
      rw [Shape.encode, Value.tree, value?_choice_text,
        choiceIndex?_choiceName (of_decide_eq_true hs)]
  | .free =>
      obtain ⟨c, hc, hjson⟩ := gather_tree v hdepth
      rw [value?_free, Shape.encode, hc]
      exact hjson hv
  | .optional s =>
      rw [Shape.isRegular, Bool.and_eq_true] at hs
      match v, hv with
      | none, _ => exact value?_null s room
      | some w, ⟨hnull, hw⟩ =>
          have hvalue := s.value?_tree hs.2 hw hdepth
          rw [Shape.encode, value?_optional s room (tree_ne_null hnull), hvalue]
          rfl
  | .list s =>
      obtain ⟨r, rfl⟩ := exists_room hdepth
      have hitems := itemsDepth_le_iff.mp (Nat.le_of_succ_le_succ hdepth)
      rw [Shape.encode, Value.tree, value?_list, if_pos rfl]
      refine mapM_tree fun w hw => ?_
      exact s.value?_tree hs (hv w hw) (hitems _ (List.mem_map_of_mem hw))
  | .table s =>
      obtain ⟨r, rfl⟩ := exists_room hdepth
      have hmembers := membersDepth_le_iff.mp (Nat.le_of_succ_le_succ hdepth)
      rw [Shape.encode, Value.tree, value?_table, if_pos rfl]
      refine foldlM_tree (fun e he => ?_) rfl
      exact s.value?_tree hs (hv e he) (hmembers (e.1, s.encode e.2) (List.mem_map_of_mem he))
  | .record _ _ fs =>
      rw [Shape.isRegular, Bool.and_eq_true, decide_eq_true_eq] at hs
      obtain ⟨r, rfl⟩ := exists_room hdepth
      rw [Shape.encode, Value.tree, value?_object hs.1, fs.isReadable_encode, Bool.and_true,
        if_pos rfl]
      exact fs.fieldValues?_tree hs.2 hs.1 hv (Nat.le_of_succ_le_succ hdepth) fun _ _ => rfl
  | .either name a b =>
      rw [Shape.isRegular, Bool.and_eq_true, Bool.and_eq_true] at hs
      match v, hv with
      | .inl w, hw =>
          rw [Shape.encode] at hdepth ⊢
          obtain ⟨c, hc, -⟩ := gather_tree (a.encode w) hdepth
          have hvalue := a.value?_tree hs.2.1 hw hdepth
          rw [value?_either, hc, Option.bind_some, fits_eq_value? a hc, hvalue]
      | .inr w, hw =>
          rw [Shape.encode] at hdepth ⊢
          obtain ⟨c, hc, -⟩ := gather_tree (b.encode w) hdepth
          have hvalue := b.value?_tree hs.2.2 hw hdepth
          rw [value?_either, hc, Option.bind_some, fits_eq_value? a hc, fits_eq_value? b hc,
            Shape.value?_of_isApart hs.1 hs.2.1, hvalue]
          rfl

/-- The fields of a record are decoded from members that agree with what they are written as. -/
theorem Fields.fieldValues?_tree (fs : Fields) (hfs : fs.isRegular = true)
    (hnames : fs.names.Nodup) {room : Nat} {vs : fs.Values} (hvs : fs.AreCanonical vs)
    (hdepth : membersDepth (fs.encode vs) ≤ room) {members : List (Option String × Tree)}
    (h : ∀ key ∈ fs.names, valuesOf key members = valuesOf key (memberTrees (fs.encode vs))) :
    fieldValues? fs room fs.noSlots members = some vs := by
  match fs with
  | .nil => rfl
  | .cons key presence s rest =>
      obtain ⟨v, vs⟩ := vs
      obtain ⟨hv, hvs⟩ := hvs
      obtain ⟨hkey, hnames⟩ := List.nodup_cons.mp hnames
      rw [Fields.isRegular, Bool.and_eq_true] at hfs
      have hself := h key List.mem_cons_self
      have hothers : ∀ k ∈ rest.names, valuesOf k members =
          valuesOf k (memberTrees (rest.encode vs)) := by
        intro k hk
        rw [h k (List.mem_cons_of_mem key hk), Fields.encode]
        split
        · rfl
        · have hne : (some key, (s.encode v).tree).1 ≠ some k := fun he =>
            hkey (Option.some.inj he ▸ hk)
          rw [memberTrees, valuesOf_cons_of_ne hne]
      rw [Fields.encode] at hself hdepth
      rw [Fields.noSlots, fieldValues?]
      split at hself
      · next hvacant =>
        rw [if_pos hvacant] at hdepth
        rw [hself, Fields.valuesOf_encode_eq_nil vs hkey, fieldValue?, if_neg hvacant.1,
          ← Shape.eq_absent_of_isVacant hvacant.2,
          rest.fieldValues?_tree hfs.2 hnames hvs hdepth hothers]
        rfl
      · next hpresent =>
        rw [if_neg hpresent] at hdepth
        obtain ⟨hfirst, hdepth⟩ := Nat.max_le.mp hdepth
        rw [hself, memberTrees, valuesOf_cons_self, Fields.valuesOf_encode_eq_nil vs hkey,
          fieldValue?, s.value?_tree hfs.1 hv hfirst,
          rest.fieldValues?_tree hfs.2 hnames hvs hdepth hothers]
        rfl

end

/-! ## Free values -/

mutual

/-- The free values inside a value. -/
def Shape.freeValues : (s : Shape) → s.Value → List Json.Value
  | .text _, _ => []
  | .flag, _ => []
  | .choice _ _ _, _ => []
  | .free, v => [v]
  | .optional s, o =>
    match o with
    | none => []
    | some v => s.freeValues v
  | .list s, vs => vs.flatMap s.freeValues
  | .table s, t => t.values.flatMap s.freeValues
  | .record _ _ fs, vs => fs.freeValues vs
  | .either _ a b, v =>
    match v with
    | .inl v => a.freeValues v
    | .inr v => b.freeValues v

/-- The free values inside the values of all fields. -/
def Fields.freeValues : (fs : Fields) → fs.Values → List Json.Value
  | .nil, _ => []
  | .cons _ _ s rest, (v, vs) => s.freeValues v ++ rest.freeValues vs

end

mutual

/-- Whether there are free values somewhere inside a shape. -/
def Shape.holdsFree : Shape → Bool
  | .text _ => false
  | .flag => false
  | .choice _ _ _ => false
  | .free => true
  | .optional s => s.holdsFree
  | .list s => s.holdsFree
  | .table s => s.holdsFree
  | .record _ _ fs => fs.holdFree
  | .either _ a b => a.holdsFree || b.holdsFree

/-- Whether there are free values somewhere inside the fields of a record. -/
def Fields.holdFree : Fields → Bool
  | .nil => false
  | .cons _ _ s rest => s.holdsFree || rest.holdFree

end

mutual

theorem Shape.freeValues_eq_nil (s : Shape) (h : s.holdsFree = false) (v : s.Value) :
    s.freeValues v = [] := by
  match s with
  | .text _ => rfl
  | .flag => rfl
  | .choice _ _ _ => rfl
  | .free => exact absurd h.symm Bool.false_ne_true
  | .optional s =>
      cases v with
      | none => rfl
      | some v => exact s.freeValues_eq_nil h v
  | .list s => exact List.flatMap_eq_nil_iff.mpr fun w _ => s.freeValues_eq_nil h w
  | .table s => exact List.flatMap_eq_nil_iff.mpr fun w _ => s.freeValues_eq_nil h w
  | .record _ _ fs => exact fs.freeValues_eq_nil h v
  | .either _ a b =>
      obtain ⟨ha, hb⟩ := Bool.or_eq_false_iff.mp h
      cases v with
      | inl v => exact a.freeValues_eq_nil ha v
      | inr v => exact b.freeValues_eq_nil hb v

theorem Fields.freeValues_eq_nil (fs : Fields) (h : fs.holdFree = false) (vs : fs.Values) :
    fs.freeValues vs = [] := by
  match fs with
  | .nil => rfl
  | .cons _ _ s rest =>
      obtain ⟨hs, hrest⟩ := Bool.or_eq_false_iff.mp h
      exact List.append_eq_nil_iff.mpr
        ⟨s.freeValues_eq_nil hs vs.1, rest.freeValues_eq_nil hrest vs.2⟩

end

theorem mem_itemNumbers {items : List Json.Value} {n : Decimal.Number} :
    n ∈ itemNumbers items ↔ ∃ v ∈ items, n ∈ v.numbers := by
  induction items with
  | nil => simp [itemNumbers]
  | cons v items ih => rw [itemNumbers, List.mem_append, ih]; simp

theorem mem_memberNumbers {members : List (String × Json.Value)} {n : Decimal.Number} :
    n ∈ memberNumbers members ↔ ∃ m ∈ members, n ∈ m.2.numbers := by
  induction members with
  | nil => simp [memberNumbers]
  | cons m members ih => rw [memberNumbers, List.mem_append, ih]; simp

mutual

/-- All numbers in what is written stand in free values. -/
theorem Shape.mem_numbers_encode (s : Shape) {v : s.Value} {n : Decimal.Number}
    (h : n ∈ (s.encode v).numbers) : ∃ j ∈ s.freeValues v, n ∈ j.numbers := by
  match s with
  | .text _ | .flag | .choice _ _ _ => exact absurd h List.not_mem_nil
  | .free => exact ⟨v, List.mem_cons_self, h⟩
  | .optional s =>
      match v with
      | none => exact absurd h List.not_mem_nil
      | some w => exact s.mem_numbers_encode h
  | .list s =>
      obtain ⟨j, hj, hn⟩ := mem_itemNumbers.mp h
      obtain ⟨w, hw, rfl⟩ := List.mem_map.mp hj
      obtain ⟨j, hj, hn⟩ := s.mem_numbers_encode hn
      exact ⟨j, List.mem_flatMap.mpr ⟨w, hw, hj⟩, hn⟩
  | .table s =>
      obtain ⟨m, hm, hn⟩ := mem_memberNumbers.mp h
      obtain ⟨e, he, rfl⟩ := List.mem_map.mp hm
      obtain ⟨j, hj, hn⟩ := s.mem_numbers_encode hn
      exact ⟨j, List.mem_flatMap.mpr ⟨e.2, List.mem_map_of_mem he, hj⟩, hn⟩
  | .record _ _ fs =>
      obtain ⟨m, hm, hn⟩ := mem_memberNumbers.mp h
      exact fs.mem_numbers_encode hm hn
  | .either _ a b =>
      match v with
      | .inl w => exact a.mem_numbers_encode h
      | .inr w => exact b.mem_numbers_encode h

theorem Fields.mem_numbers_encode (fs : Fields) {vs : fs.Values} {m : String × Json.Value}
    {n : Decimal.Number} (hm : m ∈ fs.encode vs) (h : n ∈ m.2.numbers) :
    ∃ j ∈ fs.freeValues vs, n ∈ j.numbers := by
  match fs with
  | .nil => exact absurd hm List.not_mem_nil
  | .cons key presence s rest =>
      have hothers (hrest : m ∈ rest.encode vs.2) :
          ∃ j ∈ (Fields.cons key presence s rest).freeValues vs, n ∈ j.numbers := by
        obtain ⟨j, hj, hn⟩ := rest.mem_numbers_encode hrest h
        exact ⟨j, List.mem_append_right _ hj, hn⟩
      rw [Fields.encode] at hm
      split at hm
      · exact hothers hm
      · obtain rfl | hrest := List.mem_cons.mp hm
        · obtain ⟨j, hj, hn⟩ := s.mem_numbers_encode h
          exact ⟨j, List.mem_append_left _ hj, hn⟩
        · exact hothers hrest

end

/-! ## Values by their free values -/

mutual

/-- A value is canonical if its free values are, and none of them is null. -/
theorem Shape.isCanonical_of_freeValues (s : Shape) (hs : s.isRegular = true) {v : s.Value}
    (h : ∀ j ∈ s.freeValues v, j.IsCanonical ∧ j ≠ .null) : s.IsCanonical v := by
  match s with
  | .text _ | .flag | .choice _ _ _ => trivial
  | .free => exact (h v List.mem_cons_self).1
  | .optional s =>
      rw [Shape.isRegular, Bool.and_eq_true, Bool.not_eq_true'] at hs
      cases v with
      | none => trivial
      | some w =>
          refine ⟨?_, s.isCanonical_of_freeValues hs.2 h⟩
          by_cases hfree : s = .free
          · subst hfree
            exact (h w List.mem_cons_self).2
          · exact Shape.encode_ne_null hs.1 hfree w
  | .list s =>
      intro w hw
      exact s.isCanonical_of_freeValues hs fun j hj => h j (List.mem_flatMap.mpr ⟨w, hw, hj⟩)
  | .table s =>
      intro e he
      exact s.isCanonical_of_freeValues hs fun j hj =>
        h j (List.mem_flatMap.mpr ⟨e.2, List.mem_map_of_mem he, hj⟩)
  | .record _ _ fs =>
      rw [Shape.isRegular, Bool.and_eq_true] at hs
      exact fs.areCanonical_of_freeValues hs.2 h
  | .either _ a b =>
      rw [Shape.isRegular, Bool.and_eq_true, Bool.and_eq_true] at hs
      cases v with
      | inl w => exact a.isCanonical_of_freeValues hs.2.1 h
      | inr w => exact b.isCanonical_of_freeValues hs.2.2 h

theorem Fields.areCanonical_of_freeValues (fs : Fields) (hfs : fs.isRegular = true)
    {vs : fs.Values} (h : ∀ j ∈ fs.freeValues vs, j.IsCanonical ∧ j ≠ .null) :
    fs.AreCanonical vs := by
  match fs with
  | .nil => trivial
  | .cons _ _ s rest =>
      rw [Fields.isRegular, Bool.and_eq_true] at hfs
      exact ⟨s.isCanonical_of_freeValues hfs.1 fun j hj => h j (List.mem_append_left _ hj),
        rest.areCanonical_of_freeValues hfs.2 fun j hj => h j (List.mem_append_right _ hj)⟩

end

mutual

/-- Without free values inside it no value is deeper than its shape. -/
theorem Shape.depth_encode_le_height (s : Shape) (h : s.holdsFree = false) (v : s.Value) :
    (s.encode v).depth ≤ s.height := by
  match s with
  | .text _ | .flag | .choice _ _ _ => exact Nat.le_refl 0
  | .free => exact absurd h.symm Bool.false_ne_true
  | .optional s =>
      cases v with
      | none => exact Nat.zero_le _
      | some w => exact s.depth_encode_le_height h w
  | .list s =>
      refine Nat.succ_le_succ (itemsDepth_le_iff.mpr fun j hj => ?_)
      obtain ⟨w, -, rfl⟩ := List.mem_map.mp hj
      exact s.depth_encode_le_height h w
  | .table s =>
      refine Nat.succ_le_succ (membersDepth_le_iff.mpr fun m hm => ?_)
      obtain ⟨e, -, rfl⟩ := List.mem_map.mp hm
      exact s.depth_encode_le_height h e.2
  | .record _ _ fs => exact Nat.succ_le_succ (fs.membersDepth_encode_le_height h v)
  | .either _ a b =>
      obtain ⟨ha, hb⟩ := Bool.or_eq_false_iff.mp h
      cases v with
      | inl w => exact Nat.le_trans (a.depth_encode_le_height ha w) (Nat.le_max_left _ _)
      | inr w => exact Nat.le_trans (b.depth_encode_le_height hb w) (Nat.le_max_right _ _)

theorem Fields.membersDepth_encode_le_height (fs : Fields) (h : fs.holdFree = false)
    (vs : fs.Values) : membersDepth (fs.encode vs) ≤ fs.height := by
  match fs with
  | .nil => exact Nat.le_refl 0
  | .cons key presence s rest =>
      obtain ⟨hs, hrest⟩ := Bool.or_eq_false_iff.mp h
      have hcons := membersDepth_encode_cons key presence s rest vs.1 vs.2
      have hfirst := s.depth_encode_le_height hs vs.1
      have hothers := rest.membersDepth_encode_le_height hrest vs.2
      rw [Fields.height]
      exact Nat.le_trans hcons (by omega)

end

/-! ## Texts -/

/-- A value of a shape without free values is decoded from its own text in any layout, if the shape
is not too deep. -/
theorem decode_write {s : Shape} (hs : s.isRegular = true) (h : s.holdsFree = false)
    (hheight : s.height ≤ maxDepth) {sp : Spacing} (hsp : sp.IsBlank) (v : s.Value)
    {gap : List Char} (hgap : ∀ c ∈ gap, isGap c = true) :
    decode s (String.ofList (write sp 0 (s.encode v) ++ gap)) = .ok v := by
  have hintegral : (s.encode v).IsIntegral := by
    intro n hn
    obtain ⟨j, hj, -⟩ := s.mem_numbers_encode hn
    rw [s.freeValues_eq_nil h v] at hj
    exact absurd hj List.not_mem_nil
  have hcanonical : s.IsCanonical v := s.isCanonical_of_freeValues hs fun j hj => by
    rw [s.freeValues_eq_nil h v] at hj
    exact absurd hj List.not_mem_nil
  have hdepth := Nat.le_trans (s.depth_encode_le_height h v) hheight
  apply decode_eq_ok_iff.mpr
  rw [ofText_write hsp hintegral hgap]
  exact ⟨s.value?_tree hs hcanonical hdepth, rfl⟩

/-- A decoded value is canonical and not too deep, if its shape is not. -/
theorem isCanonical_of_decode {s : Shape} (hs : s.isRegular = true) (hheight : s.height ≤ maxDepth)
    {text : String} {v : s.Value} (h : decode s text = .ok v) :
    s.IsCanonical v ∧ (s.encode v).depth ≤ maxDepth := by
  have hvalue := (decode_eq_ok_iff.mp h).1
  have hdepth := s.depth_encode_le hs hvalue
  rw [Nat.max_eq_left hheight] at hdepth
  exact ⟨s.isCanonical_of_value? hs (isFinite_ofText text) hvalue, hdepth⟩

/-- A canonical value is decoded from its own text, if it is not too deep and the numbers in its
free values are integers: a double need not be read as the one that was printed. -/
theorem decode_compactText {s : Shape} (hs : s.isRegular = true) {v : s.Value}
    (hv : s.IsCanonical v) (hdepth : (s.encode v).depth ≤ maxDepth)
    (hnumbers : ∀ j ∈ s.freeValues v, j.IsIntegral) :
    decode s (s.encode v).compactText = .ok v := by
  have hintegral : (s.encode v).IsIntegral := by
    intro n hn
    obtain ⟨j, hj, hmem⟩ := s.mem_numbers_encode hn
    exact hnumbers j hj n hmem
  apply decode_eq_ok_iff.mpr
  rw [ofText_compactText hintegral]
  exact ⟨s.value?_tree hs hv hdepth, rfl⟩

end SwaggerRoutes.Document
