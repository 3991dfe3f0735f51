/-
  Proofs/Document/Decoding.lean --- what decoding gives, apart from its faults.

  `value?` forgets which fault stops a decoding.  Then two facts hold that faults would blur.  A
  tree held back as content fits a shape exactly if it decodes (`fits_eq_value?`), so a choice
  between two shapes is made by decoding twice.  And the value of a record written as an object
  depends on each field's own members alone (`value?_object`), not on the order in which the
  members stand.
-/
import SwaggerRoutes.Json.Decode

set_option autoImplicit false

namespace SwaggerRoutes.Json

open Document

/-! ## Outcomes without their faults -/

section

variable {ε α β : Type}

theorem eq_ok_iff {x : Except ε α} {a : α} : x = .ok a ↔ x.toOption = some a := by
  cases x <;> simp [Except.toOption]

@[simp] theorem toOption_bind (x : Except ε α) (f : α → Except ε β) :
    (x >>= f).toOption = x.toOption.bind fun a => (f a).toOption := by
  cases x <;> rfl

@[simp] theorem toOption_map (x : Except ε α) (f : α → β) :
    (x.map f).toOption = x.toOption.map f := by
  cases x <;> rfl

@[simp] theorem toOption_orMalformed (o : Option α) : (orMalformed o).toOption = o := by
  cases o <;> rfl

@[simp] theorem toOption_require (b : Bool) :
    (require b).toOption = if b = true then some () else none := by
  cases b <;> rfl

/-- What is required afterwards does not change the value. -/
theorem toOption_requiring (x : Except Fault α) (b : Bool) :
    (do let a ← x; require b; .ok a).toOption = if b = true then x.toOption else none := by
  cases x <;> cases b <;> rfl

theorem toOption_foldlM (f : β → α → Except ε β) (xs : List α) (b : β) :
    (xs.foldlM f b).toOption = xs.foldlM (fun b a => (f b a).toOption) b := by
  induction xs generalizing b with
  | nil => rfl
  | cons x xs ih =>
      rw [List.foldlM_cons, List.foldlM_cons, toOption_bind]
      exact congrArg _ (funext fun b => ih b)

theorem toOption_mapM (f : α → Except ε β) (xs : List α) :
    (xs.mapM f).toOption = xs.mapM fun a => (f a).toOption := by
  induction xs with
  | nil => rfl
  | cons x xs ih =>
      rw [List.mapM_cons, List.mapM_cons, toOption_bind]
      refine congrArg _ (funext fun b => ?_)
      rw [toOption_bind, ih]
      rfl

end

/-! ## Values -/

/-- The value of a shape that a tree shows, if it shows one. -/
def value? (s : Shape) (room : Nat) (t : Tree) : Option s.Value :=
  (decodeTree s room t).toOption

/-- A text decodes if its tree does and nothing follows it. -/
theorem decode_eq_ok_iff {s : Shape} {text : String} {v : s.Value} :
    decode s text = .ok v ↔
      value? s maxDepth (Tree.ofText text).1 = some v ∧ (Tree.ofText text).2 = true := by
  rw [eq_ok_iff]
  unfold decode value?
  obtain ⟨t, alone⟩ := Tree.ofText text
  dsimp only
  rw [toOption_requiring]
  cases alone <;> simp

theorem value?_free (room : Nat) (t : Tree) :
    value? .free room t = (gather room t).bind Content.toJson? := by
  unfold value? decodeTree
  rw [toOption_orMalformed]

theorem value?_null (s : Shape) (room : Nat) : value? (.optional s) room .null = some none := by
  unfold value? decodeTree
  rfl

theorem value?_optional (s : Shape) (room : Nat) {t : Tree} (h : t ≠ .null) :
    value? (.optional s) room t = (value? s room t).map some := by
  unfold value?
  rw [decodeTree.eq_def]
  dsimp only
  split
  · exact absurd rfl h
  · exact toOption_map _ some

theorem value?_list (s : Shape) (room : Nat) (items : List Tree) (closed : Bool) :
    value? (.list s) (room + 1) (.array items closed) =
      if closed = true then items.mapM (value? s room) else none := by
  unfold value?
  rw [decodeTree, toOption_requiring, toOption_mapM]

/-- Puts the value of a member into a table. -/
def insertValue (s : Shape) (room : Nat) (t : Table String s.Value) (m : Option String × Tree) :
    Option (Table String s.Value) := do
  let k ← m.1
  let v ← value? s room m.2
  some (t.insert k v)

theorem value?_table (s : Shape) (room : Nat) (members : List (Option String × Tree))
    (closed : Bool) :
    value? (.table s) (room + 1) (.object members closed) =
      if closed = true then members.foldlM (insertValue s room) .empty else none := by
  unfold value?
  rw [decodeTree, toOption_requiring, toOption_foldlM]
  simp only [toOption_bind, toOption_orMalformed]
  rfl

/-! ## Fields -/

/-- The values given for a key. -/
def valuesOf (key : String) (members : List (Option String × Tree)) : List Tree :=
  members.filterMap fun m => if m.1 = some key then some m.2 else none

@[simp] theorem valuesOf_nil (key : String) : valuesOf key [] = [] := rfl

theorem valuesOf_cons_self (key : String) (t : Tree) (members : List (Option String × Tree)) :
    valuesOf key ((some key, t) :: members) = t :: valuesOf key members := by
  simp [valuesOf]

theorem valuesOf_cons_of_ne {key : String} {m : Option String × Tree} (h : m.1 ≠ some key)
    (members : List (Option String × Tree)) :
    valuesOf key (m :: members) = valuesOf key members := by
  simp [valuesOf, h]

/-- The value of a field, read before or given by members, of which there is at most one. -/
def fieldValue? (presence : Presence) (s : Shape) (room : Nat) :
    Option s.Value → List Tree → Option s.Value
  | some v, [] => some v
  | none, [] => if presence = .needed then none else some s.absent
  | none, [t] => value? s room t
  | _, _ => none

/-- The values of fields, some of which have been read before, from the members of an object. -/
def fieldValues? : (fs : Fields) → Nat → fs.Slots → List (Option String × Tree) → Option fs.Values
  | .nil, _, _, _ => some ()
  | .cons key presence s rest, room, (slot, slots), members => do
    let v ← fieldValue? presence s room slot (valuesOf key members)
    let vs ← fieldValues? rest room slots members
    some (v, vs)

theorem exists_of_fieldValues?_cons {key : String} {presence : Presence} {s : Shape}
    {rest : Fields} {room : Nat} {slot : Option s.Value} {slots : rest.Slots}
    {members : List (Option String × Tree)} {vs : (Fields.cons key presence s rest).Values}
    (h : fieldValues? (.cons key presence s rest) room (slot, slots) members = some vs) :
    ∃ v ws, fieldValue? presence s room slot (valuesOf key members) = some v ∧
      fieldValues? rest room slots members = some ws ∧ vs = (v, ws) := by
  rw [fieldValues?] at h
  obtain ⟨v, hv, h⟩ := Option.bind_eq_some_iff.mp h
  obtain ⟨ws, hws, h⟩ := Option.bind_eq_some_iff.mp h
  exact ⟨v, ws, hv, hws, (Option.some.inj h).symm⟩

/-- A member that names none of the fields does not matter. -/
theorem fieldValues?_of_ne {fs : Fields} {m : Option String × Tree}
    (h : ∀ key ∈ fs.names, m.1 ≠ some key) (room : Nat) (slots : fs.Slots)
    (members : List (Option String × Tree)) :
    fieldValues? fs room slots (m :: members) = fieldValues? fs room slots members := by
  match fs, slots with
  | .nil, _ => rfl
  | .cons key presence s rest, (slot, slots) =>
      rw [fieldValues?, fieldValues?,
        valuesOf_cons_of_ne (h key List.mem_cons_self),
        fieldValues?_of_ne (fun k hk => h k (List.mem_cons_of_mem key hk))]

/-- Without members the fields that have been read before are collected. -/
theorem collect_eq (fs : Fields) (room : Nat) (slots : fs.Slots) :
    (fs.collect slots).toOption = fieldValues? fs room slots [] := by
  match fs, slots with
  | .nil, _ => rfl
  | .cons key presence s rest, (some v, slots) =>
      have ih := collect_eq rest room slots
      rw [Fields.collect, fieldValues?, valuesOf_nil, fieldValue?, ← ih]
      cases rest.collect slots <;> rfl
  | .cons key presence s rest, (none, slots) =>
      have ih := collect_eq rest room slots
      rw [fieldValues?, valuesOf_nil, fieldValue?, ← ih]
      generalize hothers : rest.collect slots = others
      cases presence with
      | needed => rfl
      | optional => simp only [Fields.collect, hothers]; cases others <;> rfl
      | defaulted => simp only [Fields.collect, hothers]; cases others <;> rfl

/-- What a member does to the fields read before it. -/
def readField? (fs : Fields) (room : Nat) (slots : fs.Slots) (k : String) (t : Tree) :
    Option fs.Slots :=
  (decodeField fs room slots k t).toOption

theorem readField?_nil (room : Nat) (k : String) (t : Tree) :
    readField? .nil room () k t = if t.isWhole = true then some () else none := by
  unfold readField?
  rw [decodeField, toOption_require]

section Cons

variable {key : String} {presence : Presence} {s : Shape} {rest : Fields}

theorem readField?_repeated (room : Nat) (v : s.Value) (slots : rest.Slots) (t : Tree) :
    readField? (.cons key presence s rest) room (some v, slots) key t = none := by
  unfold readField?
  rw [decodeField, if_pos rfl]
  rfl

theorem readField?_self (room : Nat) (slots : rest.Slots) (t : Tree) :
    readField? (.cons key presence s rest) room (none, slots) key t =
      (value? s room t).map fun v => (some v, slots) := by
  unfold readField? value?
  rw [decodeField, if_pos rfl]
  cases decodeTree s room t <;> rfl

theorem readField?_of_ne {k : String} (h : key ≠ k) (room : Nat) (slot : Option s.Value)
    (slots : rest.Slots) (t : Tree) :
    readField? (.cons key presence s rest) room (slot, slots) k t =
      (readField? rest room slots k t).map fun slots => (slot, slots) := by
  unfold readField?
  cases slot <;> rw [decodeField, if_neg h] <;> cases decodeField rest room slots k t <;> rfl

end Cons

/-- Reading a member and then the others is reading them all, where names are distinct. -/
theorem readField?_bind {fs : Fields} (hfs : fs.names.Nodup) (room : Nat) (slots : fs.Slots)
    (k : String) (t : Tree) (members : List (Option String × Tree)) :
    ((readField? fs room slots k t).bind fun slots => fieldValues? fs room slots members) =
      if k ∈ fs.names ∨ t.isWhole = true then
        fieldValues? fs room slots ((some k, t) :: members) else none := by
  match fs, slots with
  | .nil, _ =>
      rw [readField?_nil]
      simp only [Fields.names, List.not_mem_nil, false_or, fieldValues?]
      split <;> rfl
  | .cons key presence s rest, (slot, slots) =>
      obtain ⟨hkey, hrest⟩ := List.nodup_cons.mp hfs
      by_cases h : key = k
      · subst h
        have hothers : ∀ l ∈ rest.names, (some key, t).1 ≠ some l := fun l hl he =>
          hkey (Option.some.inj he ▸ hl)
        rw [if_pos (.inl List.mem_cons_self), fieldValues?, valuesOf_cons_self,
          fieldValues?_of_ne hothers]
        cases slot with
        | some v =>
            rw [readField?_repeated]
            rfl
        | none =>
            rw [readField?_self, Option.bind_map]
            cases hm : valuesOf key members with
            | nil =>
                cases hv : value? s room t with
                | none => simp [fieldValue?, hv]
                | some v => simp [fieldValues?, hm, fieldValue?, hv]
            | cons u us =>
                cases value? s room t with
                | none => simp [fieldValue?]
                | some v => simp [fieldValues?, hm, fieldValue?]
      · have hne : (some k, t).1 ≠ some key := fun he => h (Option.some.inj he).symm
        have ih := readField?_bind hrest room slots k t members
        have hiff : k ∈ (Fields.cons key presence s rest).names ∨ t.isWhole = true ↔
            k ∈ rest.names ∨ t.isWhole = true :=
          or_congr_left (List.mem_cons.trans (or_iff_right (Ne.symm h)))
        rw [readField?_of_ne h, fieldValues?, valuesOf_cons_of_ne hne, Option.bind_map]
        -- The field itself is not touched, so it may be decided first.
        cases hv : fieldValue? presence s room slot (valuesOf key members) with
        | none => cases readField? rest room slots k t <;> simp [fieldValues?, hv]
        | some v =>
            by_cases hk : k ∈ rest.names ∨ t.isWhole = true
            · rw [if_pos hk] at ih
              rw [if_pos (hiff.mpr hk), ← ih]
              cases readField? rest room slots k t <;> simp [fieldValues?, hv]
            · rw [if_neg hk] at ih
              rw [if_neg (fun hc => hk (hiff.mp hc))]
              cases hread : readField? rest room slots k t with
              | none => rfl
              | some slots =>
                  rw [hread, Option.bind_some] at ih
                  simp [fieldValues?, ih]

/-- Whether the names in a list of members are texts, and the values that no field takes are
whole. -/
def isReadable (fs : Fields) (members : List (Option String × Tree)) : Bool :=
  members.all fun m => m.1.any fun k => decide (k ∈ fs.names) || m.2.isWhole

/-- Reading members one after the other into the fields. -/
def readMembers? (fs : Fields) (room : Nat) (slots : fs.Slots)
    (members : List (Option String × Tree)) : Option fs.Slots :=
  members.foldlM (fun slots m => m.1.bind fun k => readField? fs room slots k m.2) slots

theorem readMembers?_bind {fs : Fields} (hfs : fs.names.Nodup) (room : Nat) (slots : fs.Slots)
    (members : List (Option String × Tree)) :
    ((readMembers? fs room slots members).bind fun slots => (fs.collect slots).toOption) =
      if isReadable fs members = true then fieldValues? fs room slots members else none := by
  induction members generalizing slots with
  | nil => exact collect_eq fs room slots
  | cons m members ih =>
      obtain ⟨k, t⟩ := m
      unfold readMembers? at ih ⊢
      rw [List.foldlM_cons]
      cases k with
      | none => rfl
      | some k =>
          have hsplit : isReadable fs ((some k, t) :: members) =
              ((decide (k ∈ fs.names) || t.isWhole) && isReadable fs members) := rfl
          have hstep := readField?_bind hfs room slots k t members
          change ((readField? fs room slots k t).bind _).bind _ = _
          rw [Option.bind_assoc]
          simp only [ih]
          rw [hsplit]
          cases isReadable fs members with
          | true => simpa using hstep
          | false => simp

theorem value?_object_eq (name : String) (form : Form) (fs : Fields) (room : Nat)
    (members : List (Option String × Tree)) (closed : Bool) :
    value? (.record name form fs) (room + 1) (.object members closed) =
      if closed = true then
        (readMembers? fs room fs.noSlots members).bind fun slots => (fs.collect slots).toOption
      else none := by
  unfold value?
  rw [decodeTree]
  simp only [toOption_bind, toOption_foldlM, toOption_orMalformed, toOption_require]
  change ((readMembers? fs room fs.noSlots members).bind _) = _
  cases closed with
  | true =>
      refine congrArg _ (funext fun slots => ?_)
      cases fs.collect slots <;> rfl
  | false => cases readMembers? fs room fs.noSlots members <;> rfl

/-- The value of an object is that of its fields, each from the members of its own name. -/
theorem value?_object {fs : Fields} (hfs : fs.names.Nodup) (name : String) (form : Form)
    (room : Nat) (members : List (Option String × Tree)) (closed : Bool) :
    value? (.record name form fs) (room + 1) (.object members closed) =
      if (closed && isReadable fs members) = true then fieldValues? fs room fs.noSlots members
      else none := by
  rw [value?_object_eq, readMembers?_bind hfs]
  cases closed <;> rfl

/-! ## Fields by place -/

/-- The values of fields given by place. -/
def itemValues? : (fs : Fields) → Nat → List Tree → Option fs.Values
  | .nil, _, items => if items.isEmpty = true then some () else none
  | .cons _ presence s rest, room, [] =>
    if presence = .defaulted then (itemValues? rest room []).map (s.absent, ·) else none
  | .cons _ _ s rest, room, t :: items => do
    let v ← value? s room t
    let vs ← itemValues? rest room items
    some (v, vs)

theorem exists_of_itemValues?_cons {key : String} {presence : Presence} {s : Shape}
    {rest : Fields} {room : Nat} {items : List Tree}
    {vs : (Fields.cons key presence s rest).Values}
    (h : itemValues? (.cons key presence s rest) room items = some vs) :
    ∃ v ws, itemValues? rest room items.tail = some ws ∧ vs = (v, ws) ∧
      (v = s.absent ∨ ∃ t ∈ items, value? s room t = some v) := by
  cases items with
  | nil =>
      rw [itemValues?] at h
      split at h
      · obtain ⟨ws, hws, rfl⟩ := Option.map_eq_some_iff.mp h
        exact ⟨s.absent, ws, hws, rfl, .inl rfl⟩
      · exact absurd h (by simp)
  | cons t items =>
      rw [itemValues?] at h
      obtain ⟨v, hv, h⟩ := Option.bind_eq_some_iff.mp h
      obtain ⟨ws, hws, h⟩ := Option.bind_eq_some_iff.mp h
      exact ⟨v, ws, hws, (Option.some.inj h).symm, .inr ⟨t, List.mem_cons_self, hv⟩⟩

theorem decodeItems_eq (fs : Fields) (room : Nat) (name : String) (count place : Nat)
    (items : List Tree) (closed : Bool) :
    (decodeItems fs room name count place items closed).toOption =
      if closed = true then itemValues? fs room items else none := by
  match fs, items with
  | .nil, items =>
      rw [decodeItems, toOption_require, itemValues?]
      cases items.isEmpty <;> cases closed <;> rfl
  | .cons key presence s rest, [] =>
      have ih := decodeItems_eq rest room name count (place + 1) [] closed
      rw [decodeItems, toOption_bind, toOption_require, itemValues?]
      cases closed with
      | false => rfl
      | true =>
          rw [if_pos rfl] at ih
          rw [if_pos rfl, if_pos rfl, Option.bind_some]
          split
          · rw [toOption_bind, ih]
            cases itemValues? rest room [] <;> rfl
          · rfl
  | .cons key presence s rest, t :: items =>
      have ih := decodeItems_eq rest room name count (place + 1) items closed
      rw [decodeItems, toOption_bind, itemValues?]
      simp only [toOption_bind, ih]
      cases closed with
      | true => rfl
      | false => cases (decodeTree s room t).toOption <;> rfl

theorem value?_array (name : String) (form : Form) (fs : Fields) (room : Nat) (items : List Tree)
    (closed : Bool) :
    value? (.record name form fs) (room + 1) (.array items closed) =
      if form = .placed ∧ closed = true then itemValues? fs room items else none := by
  unfold value?
  rw [decodeTree]
  cases form with
  | keyed => rfl
  | placed =>
      rw [if_pos rfl, decodeItems_eq]
      cases closed <;> rfl

/-! ## What decodes -/

/-- Whether a tree is a container of others. -/
def Tree.isContainer : Tree → Bool
  | .array _ _ => true
  | .object _ _ => true
  | _ => false

/-- Whether a shape is one of containers only. -/
def takesContainers : Shape → Bool
  | .list _ => true
  | .table _ => true
  | .record _ _ _ => true
  | _ => false

theorem value?_of_leaf {s : Shape} {room : Nat} {t : Tree} (hs : takesContainers s = true)
    (ht : t.isContainer = false) : value? s room t = none := by
  cases s <;> first | exact absurd hs Bool.false_ne_true | cases t <;>
    first | exact absurd ht.symm Bool.false_ne_true | rfl

theorem value?_of_no_room {s : Shape} {t : Tree} (hs : takesContainers s = true) :
    value? s 0 t = none := by
  cases s <;> first | exact absurd hs Bool.false_ne_true | cases t <;> rfl

theorem exists_of_value?_list {s : Shape} {room : Nat} {t : Tree} {vs : List s.Value}
    (h : value? (.list s) room t = some vs) :
    ∃ r items, room = r + 1 ∧ t = .array items true ∧ items.mapM (value? s r) = some vs := by
  cases room with
  | zero => exact absurd h (by rw [value?_of_no_room rfl]; simp)
  | succ r =>
      cases t with
      | array items closed =>
          rw [value?_list] at h
          cases closed with
          | true => exact ⟨r, items, rfl, rfl, h⟩
          | false => exact absurd h (by simp)
      | object members closed => exact absurd h.symm (Option.some_ne_none vs)
      | _ => exact absurd h (by rw [value?_of_leaf rfl rfl]; simp)

theorem exists_of_value?_table {s : Shape} {room : Nat} {t : Tree} {v : Table String s.Value}
    (h : value? (.table s) room t = some v) :
    ∃ r members, room = r + 1 ∧ t = .object members true ∧
      members.foldlM (insertValue s r) .empty = some v := by
  cases room with
  | zero => exact absurd h (by rw [value?_of_no_room rfl]; simp)
  | succ r =>
      cases t with
      | object members closed =>
          rw [value?_table] at h
          cases closed with
          | true => exact ⟨r, members, rfl, rfl, h⟩
          | false => exact absurd h (by simp)
      | array items closed => exact absurd h.symm (Option.some_ne_none v)
      | _ => exact absurd h (by rw [value?_of_leaf rfl rfl]; simp)

/-- A record is written as an array or as an object. -/
theorem exists_of_value?_record {name : String} {form : Form} {fs : Fields}
    (hfs : fs.names.Nodup) {room : Nat} {t : Tree} {vs : fs.Values}
    (h : value? (.record name form fs) room t = some vs) :
    ∃ r, room = r + 1 ∧ ((∃ items, t = .array items true ∧ itemValues? fs r items = some vs) ∨
      ∃ members, t = .object members true ∧
        fieldValues? fs r fs.noSlots members = some vs) := by
  cases room with
  | zero => exact absurd h (by rw [value?_of_no_room rfl]; simp)
  | succ r =>
      cases t with
      | array items closed =>
          rw [value?_array] at h
          obtain ⟨⟨-, rfl⟩, hitems⟩ := Option.ite_none_right_eq_some.mp h
          exact ⟨r, rfl, .inl ⟨items, rfl, hitems⟩⟩
      | object members closed =>
          rw [value?_object hfs] at h
          cases closed with
          | true =>
              cases hread : isReadable fs members with
              | true =>
                  rw [hread, Bool.true_and, if_pos rfl] at h
                  exact ⟨r, rfl, .inr ⟨members, rfl, h⟩⟩
              | false => exact absurd h (by simp [hread])
          | false => exact absurd h (by simp)
      | _ => exact absurd h (by rw [value?_of_leaf rfl rfl]; simp)

theorem value?_either (name : String) (a b : Shape) (room : Nat) (t : Tree) :
    value? (.either name a b) room t = (gather room t).bind fun c =>
      match Content.fits a c with
      | some v => some (.inl v)
      | none => (Content.fits b c).map .inr := by
  unfold value?
  rw [decodeTree, toOption_bind, toOption_orMalformed]
  refine congrArg _ (funext fun c => ?_)
  cases Content.fits a c with
  | some v => rfl
  | none => cases Content.fits b c <;> rfl

/-! ## Content -/

theorem gather_array {room : Nat} {items : List Tree} {closed : Bool} {c : Content}
    (h : gather room (.array items closed) = some c) :
    ∃ r cs, room = r + 1 ∧ closed = true ∧ gatherItems r items = some cs ∧ c = .sequence cs := by
  cases room with
  | zero => exact absurd h (by simp [gather])
  | succ r =>
      cases closed with
      | false => exact absurd h (by simp [gather])
      | true =>
          rw [gather, if_pos rfl] at h
          obtain ⟨cs, hcs, rfl⟩ := Option.map_eq_some_iff.mp h
          exact ⟨r, cs, rfl, rfl, hcs, rfl⟩

theorem gather_object {room : Nat} {members : List (Option String × Tree)} {closed : Bool}
    {c : Content} (h : gather room (.object members closed) = some c) :
    ∃ r es, room = r + 1 ∧ closed = true ∧ gatherMembers r members = some es ∧ c = .map es := by
  cases room with
  | zero => exact absurd h (by simp [gather])
  | succ r =>
      cases closed with
      | false => exact absurd h (by simp [gather])
      | true =>
          rw [gather, if_pos rfl] at h
          obtain ⟨es, hes, rfl⟩ := Option.map_eq_some_iff.mp h
          exact ⟨r, es, rfl, rfl, hes, rfl⟩

theorem gatherItems_cons {room : Nat} {t : Tree} {items : List Tree} {cs : List Content}
    (h : gatherItems room (t :: items) = some cs) :
    ∃ c rest, gather room t = some c ∧ gatherItems room items = some rest ∧ cs = c :: rest := by
  rw [gatherItems] at h
  obtain ⟨c, hc, h⟩ := Option.bind_eq_some_iff.mp h
  obtain ⟨rest, hrest, h⟩ := Option.bind_eq_some_iff.mp h
  exact ⟨c, rest, hc, hrest, (Option.some.inj h).symm⟩

theorem gatherMembers_cons {room : Nat} {m : Option String × Tree}
    {members : List (Option String × Tree)} {es : List (Content × Content)}
    (h : gatherMembers room (m :: members) = some es) :
    ∃ k c rest, m.1 = some k ∧ gather room m.2 = some c ∧
      gatherMembers room members = some rest ∧ es = (.text k, c) :: rest := by
  obtain ⟨k, t⟩ := m
  rw [gatherMembers] at h
  obtain ⟨k, hk, h⟩ := Option.bind_eq_some_iff.mp h
  obtain ⟨c, hc, h⟩ := Option.bind_eq_some_iff.mp h
  obtain ⟨rest, hrest, h⟩ := Option.bind_eq_some_iff.mp h
  exact ⟨k, c, rest, hk, hc, hrest, (Option.some.inj h).symm⟩

theorem gather_text {room : Nat} {s : Option String} {c : Content}
    (h : gather room (.text s) = some c) : ∃ u, s = some u ∧ c = .text u := by
  obtain ⟨u, hu, rfl⟩ := Option.map_eq_some_iff.mp h
  exact ⟨u, hu, rfl⟩

theorem gather_number {room : Nat} {n : Option Decimal.Number} {c : Content}
    (h : gather room (.number n) = some c) :
    (∃ k, c = .natural k) ∨ (∃ k, c = .negated k) ∨ ∃ d, c = .double d := by
  obtain ⟨m, -, rfl⟩ := Option.map_eq_some_iff.mp h
  cases m with
  | double d => exact .inr (.inr ⟨d, rfl⟩)
  | int i =>
      unfold Content.ofNumber
      by_cases hi : 0 ≤ i
      · exact .inl ⟨i.toNat, if_pos hi⟩
      · exact .inr (.inl ⟨i.natAbs, if_neg hi⟩)

/-- Only null is content that is null. -/
theorem gather_eq_null {room : Nat} {t : Tree} (h : gather room t = some .null) : t = .null := by
  cases t with
  | null => rfl
  | bool b => exact absurd h (by simp [gather])
  | number n =>
      obtain ⟨k, hc⟩ | ⟨k, hc⟩ | ⟨d, hc⟩ := gather_number h <;> exact absurd hc (by simp)
  | text s => exact absurd h (by simp [gather])
  | array items closed =>
      obtain ⟨r, cs, -, -, -, hc⟩ := gather_array h
      exact absurd hc (by simp)
  | object members closed =>
      obtain ⟨r, es, -, -, -, hc⟩ := gather_object h
      exact absurd hc (by simp)
  | broken => exact absurd h (by simp [gather])

mutual

/-- A tree held back as content is whole. -/
theorem isWhole_of_gather {room : Nat} (t : Tree) {c : Content} (h : gather room t = some c) :
    t.isWhole = true := by
  match t with
  | .null | .bool _ | .number _ | .text _ => rfl
  | .broken => exact absurd h (by simp [gather])
  | .array items closed =>
      obtain ⟨r, cs, -, rfl, hcs, -⟩ := gather_array h
      rw [Tree.isWhole, allWhole_of_gather items hcs, Bool.true_and]
  | .object members closed =>
      obtain ⟨r, es, -, rfl, hes, -⟩ := gather_object h
      rw [Tree.isWhole, allMembersWhole_of_gather members hes, Bool.true_and]

theorem allWhole_of_gather {room : Nat} (items : List Tree) {cs : List Content}
    (h : gatherItems room items = some cs) : allWhole items = true := by
  match items with
  | [] => rfl
  | t :: items =>
      obtain ⟨c, rest, hc, hrest, -⟩ := gatherItems_cons h
      rw [allWhole, isWhole_of_gather t hc, allWhole_of_gather items hrest, Bool.true_and]

theorem allMembersWhole_of_gather {room : Nat} (members : List (Option String × Tree))
    {es : List (Content × Content)} (h : gatherMembers room members = some es) :
    allMembersWhole members = true := by
  match members with
  | [] => rfl
  | (k, t) :: members =>
      obtain ⟨k, c, rest, -, hc, hrest, -⟩ := gatherMembers_cons h
      rw [allMembersWhole, isWhole_of_gather t hc, allMembersWhole_of_gather members hrest,
        Bool.true_and]

end

/-! ## Content decodes as its tree does -/

theorem mapM_fits {α : Type} {f : Content → Option α} {g : Tree → Option α} {room : Nat}
    (hfg : ∀ {t c}, gather room t = some c → f c = g t) {items : List Tree} {cs : List Content}
    (h : gatherItems room items = some cs) : cs.mapM f = items.mapM g := by
  induction items generalizing cs with
  | nil =>
      obtain rfl := Option.some.inj h
      rfl
  | cons t items ih =>
      obtain ⟨c, rest, hc, hrest, rfl⟩ := gatherItems_cons h
      rw [List.mapM_cons, List.mapM_cons, hfg hc, ih hrest]

theorem foldlM_fits {β : Type} {f : β → Content × Content → Option β}
    {g : β → Option String × Tree → Option β} {room : Nat}
    (hfg : ∀ {b k t c}, gather room t = some c → f b (.text k, c) = g b (some k, t))
    {members : List (Option String × Tree)} {es : List (Content × Content)}
    (h : gatherMembers room members = some es) (b : β) : es.foldlM f b = members.foldlM g b := by
  induction members generalizing es b with
  | nil =>
      obtain rfl := Option.some.inj h
      rfl
  | cons m members ih =>
      obtain ⟨k, t⟩ := m
      obtain ⟨k, c, rest, rfl, hc, hrest, rfl⟩ := gatherMembers_cons h
      rw [List.foldlM_cons, List.foldlM_cons, hfg hc]
      exact congrArg _ (funext fun b => ih hrest b)

theorem value?_choice_text (name first : String) (others : List String) (room : Nat)
    (s : String) :
    value? (.choice name first others) room (.text (some s)) = choiceIndex? first others s := by
  unfold value?
  rw [decodeTree, chosen]
  cases choiceIndex? first others s <;> rfl

theorem value?_choice_object (name first : String) (others : List String) (room : Nat)
    (k : String) (t : Tree) (members : List (Option String × Tree)) (closed : Bool) :
    value? (.choice name first others) (room + 1) (.object ((some k, t) :: members) closed) =
      match t, members, closed with
      | .null, [], true => choiceIndex? first others k
      | _, _, _ => none := by
  unfold value?
  rw [decodeTree, chosen]
  cases choiceIndex? first others k with
  | none => cases t <;> cases members <;> cases closed <;> rfl
  | some i => cases t <;> cases members <;> cases closed <;> rfl

/-- Neither a tree that is no container nor its content has a shape of containers. -/
theorem fits_of_leaf {s : Shape} {room : Nat} {t : Tree} {c : Content}
    (hs : takesContainers s = true) (ht : t.isContainer = false) (h : gather room t = some c) :
    Content.fits s c = value? s room t := by
  have hc : (∀ cs, c ≠ .sequence cs) ∧ ∀ es, c ≠ .map es := by
    cases t with
    | null => obtain rfl := Option.some.inj h; simp
    | bool b => obtain rfl := Option.some.inj h; simp
    | number n => obtain ⟨k, rfl⟩ | ⟨k, rfl⟩ | ⟨d, rfl⟩ := gather_number h <;> simp
    | text s => obtain ⟨u, rfl, rfl⟩ := gather_text h; simp
    | array items closed => cases ht
    | object members closed => cases ht
    | broken => exact absurd h (by simp [gather])
  have hfits : Content.fits s c = none := by
    cases s <;> first | exact absurd hs Bool.false_ne_true | simp [Content.fits, hc.1, hc.2]
  rw [hfits, value?_of_leaf hs ht]

/-- Content fits the shape exactly if the tree that it is gathered from decodes, to the same
value. -/
def FitsAsTree (s : Shape) : Prop :=
  ∀ (room : Nat) (t : Tree) (c : Content), gather room t = some c →
    Content.fits s c = value? s room t

theorem fitsAsTree_text (absent : String) : FitsAsTree (.text absent) := by
  intro room t c h
  cases t with
  | null => obtain rfl := Option.some.inj h; rfl
  | bool b => obtain rfl := Option.some.inj h; rfl
  | number n => obtain ⟨k, rfl⟩ | ⟨k, rfl⟩ | ⟨d, rfl⟩ := gather_number h <;> rfl
  | text s => obtain ⟨u, rfl, rfl⟩ := gather_text h; rfl
  | array items closed => obtain ⟨r, cs, -, -, -, rfl⟩ := gather_array h; rfl
  | object members closed => obtain ⟨r, es, -, -, -, rfl⟩ := gather_object h; rfl
  | broken => exact absurd h (by simp [gather])

theorem fitsAsTree_flag : FitsAsTree .flag := by
  intro room t c h
  cases t with
  | null => obtain rfl := Option.some.inj h; rfl
  | bool b => obtain rfl := Option.some.inj h; rfl
  | number n => obtain ⟨k, rfl⟩ | ⟨k, rfl⟩ | ⟨d, rfl⟩ := gather_number h <;> rfl
  | text s => obtain ⟨u, rfl, rfl⟩ := gather_text h; rfl
  | array items closed => obtain ⟨r, cs, -, -, -, rfl⟩ := gather_array h; rfl
  | object members closed => obtain ⟨r, es, -, -, -, rfl⟩ := gather_object h; rfl
  | broken => exact absurd h (by simp [gather])

/-- A choice that is written as an object with one member. -/
theorem fits_choice_object (name first : String) (others : List String) {room : Nat}
    {members : List (Option String × Tree)} {es : List (Content × Content)}
    (h : gatherMembers room members = some es) :
    Content.fits (.choice name first others) (.map es) =
      value? (.choice name first others) (room + 1) (.object members true) := by
  cases members with
  | nil => obtain rfl := Option.some.inj h; rfl
  | cons m members =>
      obtain ⟨k, u⟩ := m
      obtain ⟨k, c, rest, rfl, hc, hrest, rfl⟩ := gatherMembers_cons h
      rw [value?_choice_object]
      by_cases hnull : u = .null
      · subst hnull
        obtain rfl := Option.some.inj hc
        cases members with
        | nil => obtain rfl := Option.some.inj hrest; rfl
        | cons m members => obtain ⟨k, c, rest, -, -, -, rfl⟩ := gatherMembers_cons hrest; rfl
      · have hne : c ≠ .null := fun he => hnull (gather_eq_null (he ▸ hc))
        cases u with
        | null => exact absurd rfl hnull
        | _ => cases c <;> first | exact absurd rfl hne | rfl

theorem fitsAsTree_choice (name first : String) (others : List String) :
    FitsAsTree (.choice name first others) := by
  intro room t c h
  cases t with
  | null => obtain rfl := Option.some.inj h; rfl
  | bool b => obtain rfl := Option.some.inj h; rfl
  | number n => obtain ⟨k, rfl⟩ | ⟨k, rfl⟩ | ⟨d, rfl⟩ := gather_number h <;> rfl
  | text s =>
      obtain ⟨u, rfl, rfl⟩ := gather_text h
      rw [value?_choice_text, Content.fits]
  | array items closed => obtain ⟨r, cs, -, -, -, rfl⟩ := gather_array h; rfl
  | object members closed =>
      obtain ⟨r, es, rfl, rfl, hes, rfl⟩ := gather_object h
      exact fits_choice_object name first others hes
  | broken => exact absurd h (by simp [gather])

theorem fitsAsTree_optional {s : Shape} (ih : FitsAsTree s) : FitsAsTree (.optional s) := by
  intro room t c h
  by_cases ht : t = .null
  · subst ht
    obtain rfl := Option.some.inj h
    rw [value?_null, Content.fits]
  · have hc : c ≠ .null := fun hc => ht (gather_eq_null (hc ▸ h))
    rw [value?_optional s room ht, ← ih room t c h]
    cases c with
    | null => exact absurd rfl hc
    | _ => rfl

theorem fitsAsTree_list {s : Shape} (ih : FitsAsTree s) : FitsAsTree (.list s) := by
  intro room t c h
  cases t with
  | array items closed =>
      obtain ⟨r, cs, rfl, rfl, hcs, rfl⟩ := gather_array h
      rw [value?_list, if_pos rfl, Content.fits]
      exact mapM_fits (fun hc => ih _ _ _ hc) hcs
  | object members closed => obtain ⟨r, es, -, -, -, rfl⟩ := gather_object h; rfl
  | _ => exact fits_of_leaf rfl rfl h

theorem fitsAsTree_table {s : Shape} (ih : FitsAsTree s) : FitsAsTree (.table s) := by
  intro room t c h
  cases t with
  | array items closed => obtain ⟨r, cs, -, -, -, rfl⟩ := gather_array h; rfl
  | object members closed =>
      obtain ⟨r, es, rfl, rfl, hes, rfl⟩ := gather_object h
      rw [value?_table, if_pos rfl, Content.fits]
      refine foldlM_fits (fun hc => ?_) hes Table.empty
      rw [insertValue, ← ih _ _ _ hc]
      cases Content.fits s _ <;> rfl
  | _ => exact fits_of_leaf rfl rfl h

theorem fitsAsTree_record (name : String) (form : Form) {fs : Fields}
    (hitems : ∀ (room : Nat) (items : List Tree) (cs : List Content),
      gatherItems room items = some cs → Content.fitItems fs cs = itemValues? fs room items)
    (hfield : ∀ (room : Nat) (slots : fs.Slots) (k : String) (t : Tree) (c : Content),
      gather room t = some c → Content.fitField fs slots k c = readField? fs room slots k t) :
    FitsAsTree (.record name form fs) := by
  intro room t c h
  cases t with
  | array items closed =>
      obtain ⟨r, cs, rfl, rfl, hcs, rfl⟩ := gather_array h
      rw [value?_array, Content.fits]
      simp only [hitems r items cs hcs, and_true]
  | object members closed =>
      obtain ⟨r, es, rfl, rfl, hes, rfl⟩ := gather_object h
      rw [value?_object_eq, if_pos rfl, Content.fits, readMembers?]
      exact congrArg (Option.bind · _) (foldlM_fits (fun hc => hfield _ _ _ _ _ hc) hes _)
  | _ => exact fits_of_leaf rfl rfl h

mutual

/-- Content fits a shape exactly if the tree that it is gathered from decodes, to the same value. -/
theorem fits_eq_value? (s : Shape) {room : Nat} {t : Tree} {c : Content}
    (h : gather room t = some c) : Content.fits s c = value? s room t := by
  match s with
  | .text absent => exact fitsAsTree_text absent room t c h
  | .flag => exact fitsAsTree_flag room t c h
  | .choice name first others => exact fitsAsTree_choice name first others room t c h
  | .free => rw [value?_free, h]; rfl
  | .optional s => exact fitsAsTree_optional (fun _ _ _ hc => fits_eq_value? s hc) room t c h
  | .list s => exact fitsAsTree_list (fun _ _ _ hc => fits_eq_value? s hc) room t c h
  | .table s => exact fitsAsTree_table (fun _ _ _ hc => fits_eq_value? s hc) room t c h
  | .record name form fs =>
      exact fitsAsTree_record name form (fun _ _ _ hcs => fitItems_eq fs hcs)
        (fun _ slots k _ _ hc => fitField_eq fs slots k hc) room t c h
  | .either name a b =>
      rw [value?_either, h, Content.fits]
      rfl

theorem fitItems_eq (fs : Fields) {room : Nat} {items : List Tree} {cs : List Content}
    (h : gatherItems room items = some cs) :
    Content.fitItems fs cs = itemValues? fs room items := by
  match fs, items with
  | .nil, [] => obtain rfl := Option.some.inj h; rfl
  | .nil, t :: items => obtain ⟨c, rest, -, -, rfl⟩ := gatherItems_cons h; rfl
  | .cons key presence s rest, [] =>
      obtain rfl := Option.some.inj h
      have ih : Content.fitItems rest [] = itemValues? rest room [] := fitItems_eq rest rfl
      rw [Content.fitItems, itemValues?, ih]
  | .cons key presence s rest, t :: items =>
      obtain ⟨c, cs, hc, hcs, rfl⟩ := gatherItems_cons h
      rw [Content.fitItems, itemValues?, fits_eq_value? s hc, fitItems_eq rest hcs]
      rfl

theorem fitField_eq (fs : Fields) {room : Nat} (slots : fs.Slots) (k : String) {t : Tree}
    {c : Content} (h : gather room t = some c) :
    Content.fitField fs slots k c = readField? fs room slots k t := by
  match fs, slots with
  | .nil, _ =>
      rw [readField?_nil, isWhole_of_gather t h]
      rfl
  | .cons key presence s rest, (slot, slots) =>
      by_cases hk : key = k
      · subst hk
        cases slot with
        | some v => rw [readField?_repeated, Content.fitField, if_pos rfl]
        | none => rw [readField?_self, ← fits_eq_value? s h, Content.fitField, if_pos rfl]
      · rw [readField?_of_ne hk, ← fitField_eq rest slots k h]
        cases slot <;> rw [Content.fitField, if_neg hk]

end

end SwaggerRoutes.Json
