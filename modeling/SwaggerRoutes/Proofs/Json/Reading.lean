/-
  Proofs/Json/Reading.lean --- a printed value is read back as it is.

  `Value.tree` says what reading the text of a value shows.  The statement holds for every layout
  whose spacing is white space, at every level and in front of every rest that does not carry a
  numeral on, and the fuel that the reader gives itself suffices.  The induction is on that fuel;
  what stands in front of a value is only known up to white space, since a reader of items skips
  none.
-/
import Mathlib.Data.List.DropRight
import SwaggerRoutes.Proofs.Json.Scalars

set_option autoImplicit false

namespace SwaggerRoutes.Json

open Decimal

/-! ## Trees of values -/

mutual

/-- The tree that the text of a value shows. -/
def Value.tree : Value → Tree
  | .null => .null
  | .bool b => .bool b
  | .number n => .number (some n)
  | .text s => .text (some s)
  | .array items => .array (itemTrees items) true
  | .object members => .object (memberTrees members) true

/-- The trees of the items of an array. -/
def itemTrees : List Value → List Tree
  | [] => []
  | v :: rest => v.tree :: itemTrees rest

/-- The trees of the members of an object. -/
def memberTrees : List (String × Value) → List (Option String × Tree)
  | [] => []
  | (k, v) :: rest => (some k, v.tree) :: memberTrees rest

end

theorem memberTrees_eq_map (members : List (String × Value)) :
    memberTrees members = members.map fun m => (some m.1, m.2.tree) := by
  induction members with
  | nil => rfl
  | cons m rest ih => rw [memberTrees, ih, List.map_cons]

mutual

/-- The numbers inside a value. -/
def Value.numbers : Value → List Number
  | .number n => [n]
  | .array items => itemNumbers items
  | .object members => memberNumbers members
  | _ => []

/-- The numbers inside the items of an array. -/
def itemNumbers : List Value → List Number
  | [] => []
  | v :: rest => v.numbers ++ itemNumbers rest

/-- The numbers inside the members of an object. -/
def memberNumbers : List (String × Value) → List Number
  | [] => []
  | (_, v) :: rest => v.numbers ++ memberNumbers rest

end

/-- Whether all numbers inside a value are integers of at most sixty-four bits. -/
def Value.IsIntegral (v : Value) : Prop :=
  ∀ n ∈ v.numbers, n.IsIntegral

/-! ## White space -/

/-- Whether a layout puts nothing but white space between the parts of a text. -/
structure Spacing.IsBlank (s : Spacing) : Prop where
  afterColon : ∀ c ∈ s.afterColon, isGap c = true
  lineBreak : ∀ level, ∀ c ∈ s.lineBreak level, isGap c = true

theorem Spacing.isBlank_compact : Spacing.compact.IsBlank where
  afterColon _ h := absurd h List.not_mem_nil
  lineBreak _ _ h := absurd h List.not_mem_nil

theorem Spacing.isBlank_indented : Spacing.indented.IsBlank where
  afterColon c h := by
    obtain rfl := List.mem_singleton.mp h
    rfl
  lineBreak level c h := by
    obtain rfl | h := List.mem_cons.mp h
    · rfl
    · obtain rfl := List.eq_of_mem_replicate h
      rfl

theorem skipGap_append {gap : List Char} (h : ∀ c ∈ gap, isGap c = true) (cs : List Char) :
    skipGap (gap ++ cs) = skipGap cs :=
  List.dropWhile_append_of_pos h

theorem skipGap_cons {c : Char} (h : isGap c = false) (cs : List Char) :
    skipGap (c :: cs) = c :: cs :=
  List.dropWhile_cons_of_neg (by rw [h]; decide)

theorem skipGap_skipGap (cs : List Char) : skipGap (skipGap cs) = skipGap cs :=
  List.dropWhile_idempotent ..

theorem stopsNumeral_cons {c : Char} (h : c.isDigit = false ∧ c ≠ '.' ∧ c ≠ 'e' ∧ c ≠ 'E')
    (cs : List Char) : StopsNumeral (c :: cs) := by
  intro d hd
  obtain rfl : c = d := Option.some.inj hd
  exact h

theorem stopsNumeral_append {gap rest : List Char} (hgap : ∀ c ∈ gap, isGap c = true)
    (h : StopsNumeral rest) : StopsNumeral (gap ++ rest) := by
  cases gap with
  | nil => exact h
  | cons c gap =>
      refine stopsNumeral_cons ?_ (gap ++ rest)
      have hc := hgap c List.mem_cons_self
      simp only [isGap, Bool.or_eq_true, beq_iff_eq] at hc
      obtain ((rfl | rfl) | rfl) | rfl := hc <;> decide

/-! ## One step of the reader -/

theorem readValue_number {fuel : Nat} {cs rest : List Char} {c : Char}
    (h : skipGap cs = c :: rest) (hc : c.isDigit = true ∨ c = '-') :
    readValue (fuel + 1) cs = readNumber (c :: rest) := by
  have hne : ∀ d : Char, d.isDigit = false → d ≠ '-' → c ≠ d := by
    intro d hdigit hminus hcd
    subst hcd
    obtain hc | hc := hc
    · exact absurd hc (by rw [hdigit]; decide)
    · exact hminus hc
  unfold readValue
  rw [h]
  split
  · next heq => exact absurd (List.cons.inj heq).1 (hne '"' (by decide) (by decide))
  · next heq => exact absurd (List.cons.inj heq).1 (hne '[' (by decide) (by decide))
  · next heq => exact absurd (List.cons.inj heq).1 (hne '{' (by decide) (by decide))
  · next heq => exact absurd (List.cons.inj heq).1 (hne 'n' (by decide) (by decide))
  · next heq => exact absurd (List.cons.inj heq).1 (hne 't' (by decide) (by decide))
  · next heq => exact absurd (List.cons.inj heq).1 (hne 'f' (by decide) (by decide))
  · rfl

theorem readValue_text {fuel : Nat} {cs rest after : List Char} {s : Option String}
    (h : skipGap cs = '"' :: rest) (hs : readString rest = some (s, after)) :
    readValue (fuel + 1) cs = (.text s, some after) := by
  simp only [readValue, h, hs]

theorem readValue_emptyArray {fuel : Nat} {cs rest : List Char}
    (h : skipGap cs = '[' :: ']' :: rest) :
    readValue (fuel + 1) cs = (.array [] true, some rest) := by
  have hbracket : skipGap (']' :: rest) = ']' :: rest := skipGap_cons (by decide) rest
  simp only [readValue, h, hbracket]

theorem readValue_emptyObject {fuel : Nat} {cs rest : List Char}
    (h : skipGap cs = '\x7b' :: '\x7d' :: rest) :
    readValue (fuel + 1) cs = (.object [] true, some rest) := by
  have hbrace : skipGap ('\x7d' :: rest) = '\x7d' :: rest := skipGap_cons (by decide) rest
  simp only [readValue, h, hbrace]

theorem readValue_array {fuel : Nat} {cs rest after : List Char} {items : List Tree}
    (h : skipGap cs = '[' :: rest) (hne : ∀ tail, skipGap rest ≠ ']' :: tail)
    (hitems : readItems fuel (skipGap rest) = (items, some after)) :
    readValue (fuel + 1) cs = (.array items true, some after) := by
  simp only [readValue, h, hitems, Option.isSome_some]

theorem readValue_object {fuel : Nat} {cs rest after : List Char}
    {members : List (Option String × Tree)}
    (h : skipGap cs = '\x7b' :: rest) (hne : ∀ tail, skipGap rest ≠ '\x7d' :: tail)
    (hmembers : readMembers fuel (skipGap rest) = (members, some after)) :
    readValue (fuel + 1) cs = (.object members true, some after) := by
  simp only [readValue, h, hmembers, Option.isSome_some]

theorem readItems_last {fuel : Nat} {cs rest after : List Char} {t : Tree}
    (h : readValue fuel cs = (t, some rest)) (hrest : skipGap rest = ']' :: after) :
    readItems (fuel + 1) cs = ([t], some after) := by
  simp only [readItems, h, hrest]

theorem readItems_more {fuel : Nat} {cs rest more after : List Char} {t : Tree} {ts : List Tree}
    (h : readValue fuel cs = (t, some rest)) (hrest : skipGap rest = ',' :: more)
    (hmore : readItems fuel more = (ts, some after)) :
    readItems (fuel + 1) cs = (t :: ts, some after) := by
  simp only [readItems, h, hrest, hmore]

section Members

variable {fuel : Nat} {cs name value rest after : List Char} {k : Option String} {t : Tree}

theorem readMembers_last (hcs : skipGap cs = '"' :: name)
    (hname : readString name = some (k, ':' :: value))
    (h : readValue fuel value = (t, some rest)) (hrest : skipGap rest = '\x7d' :: after) :
    readMembers (fuel + 1) cs = ([(k, t)], some after) := by
  have hcolon : skipGap (':' :: value) = ':' :: value := skipGap_cons (by decide) value
  simp only [readMembers, hcs, hname, hcolon, h, hrest]

theorem readMembers_more {more : List Char} {ms : List (Option String × Tree)}
    (hcs : skipGap cs = '"' :: name) (hname : readString name = some (k, ':' :: value))
    (h : readValue fuel value = (t, some rest)) (hrest : skipGap rest = ',' :: more)
    (hmore : readMembers fuel more = (ms, some after)) :
    readMembers (fuel + 1) cs = ((k, t) :: ms, some after) := by
  have hcolon : skipGap (':' :: value) = ':' :: value := skipGap_cons (by decide) value
  simp only [readMembers, hcs, hname, hcolon, h, hrest, hmore]

end Members

/-! ## Printed values -/

/-- The head of a printed value is no white space and closes no array. -/
theorem head_write (sp : Spacing) (level : Nat) {v : Value} (h : v.IsIntegral) :
    ∃ c cs, write sp level v = c :: cs ∧ isGap c = false ∧ c ≠ ']' := by
  cases v with
  | null => exact ⟨'n', _, rfl, by decide, by decide⟩
  | bool b => cases b <;> exact ⟨_, _, rfl, by decide, by decide⟩
  | number n =>
      obtain ⟨c, cs, hcs, hc⟩ := head_text_of_isIntegral (h n List.mem_cons_self)
      refine ⟨c, cs, hcs, ?_, ?_⟩
      · obtain hc | rfl := hc
        · simp only [isGap, Bool.or_eq_false_iff, beq_eq_false_iff_ne]
          refine ⟨⟨⟨?_, ?_⟩, ?_⟩, ?_⟩ <;> rintro rfl <;> exact absurd hc (by decide)
        · decide
      · rintro rfl
        exact absurd hc (by decide)
  | text s => exact ⟨'"', _, rfl, by decide, by decide⟩
  | array items => exact ⟨'[', _, rfl, by decide, by decide⟩
  | object members => exact ⟨'\x7b', _, rfl, by decide, by decide⟩

theorem skipGap_write (sp : Spacing) (level : Nat) {v : Value} (h : v.IsIntegral)
    (rest : List Char) : skipGap (write sp level v ++ rest) = write sp level v ++ rest := by
  obtain ⟨c, cs, hcs, hgap, -⟩ := head_write sp level h
  rw [hcs, List.cons_append, skipGap_cons hgap]

theorem length_write_pos (sp : Spacing) (level : Nat) {v : Value} (h : v.IsIntegral) :
    0 < (write sp level v).length := by
  obtain ⟨c, cs, hcs, -, -⟩ := head_write sp level h
  rw [hcs]
  exact Nat.succ_pos _

/-- What stands behind an item or a member, up to the next one or the end of the container. -/
def Spacing.between (sp : Spacing) (level : Nat) (last : Bool) (more : List Char) : List Char :=
  if last then sp.lineBreak level else ',' :: more

@[simp] theorem Spacing.between_true (sp : Spacing) (level : Nat) (more : List Char) :
    sp.between level true more = sp.lineBreak level := rfl

@[simp] theorem Spacing.between_false (sp : Spacing) (level : Nat) (more : List Char) :
    sp.between level false more = ',' :: more := rfl

theorem stopsNumeral_between {sp : Spacing} (hsp : sp.IsBlank) (level : Nat) (last : Bool)
    (more : List Char) {rest : List Char} (h : StopsNumeral rest) :
    StopsNumeral (sp.between level last more ++ rest) := by
  cases last with
  | true => exact stopsNumeral_append (hsp.lineBreak level) h
  | false => exact stopsNumeral_cons (by decide) _

theorem skipGap_writeItems {sp : Spacing} (hsp : sp.IsBlank) (level : Nat) {v : Value}
    (hv : v.IsIntegral) (items : List Value) (rest : List Char) :
    skipGap (writeItems sp level (v :: items) ++ rest) = write sp (level + 1) v ++
      (sp.between level items.isEmpty (writeItems sp level items) ++ rest) := by
  rw [writeItems, List.append_assoc, List.append_assoc, skipGap_append (hsp.lineBreak _),
    skipGap_write sp (level + 1) hv]
  rfl

theorem skipGap_writeMembers {sp : Spacing} (hsp : sp.IsBlank) (level : Nat) (k : String)
    (v : Value) (members : List (String × Value)) (rest : List Char) :
    skipGap (writeMembers sp level ((k, v) :: members) ++ rest) =
      '"' :: (k.toList.flatMap escapedChar ++ '"' :: (':' :: (sp.afterColon ++
        (write sp (level + 1) v ++
          (sp.between level members.isEmpty (writeMembers sp level members) ++ rest))))) := by
  simp only [writeMembers, stringText, List.cons_append, List.append_assoc, List.nil_append]
  rw [skipGap_append (hsp.lineBreak _), skipGap_cons (by decide)]
  rfl

theorem isIntegral_item {v : Value} {items : List Value}
    (h : (Value.array (v :: items)).IsIntegral) :
    v.IsIntegral ∧ (Value.array items).IsIntegral :=
  ⟨fun n hn => h n (List.mem_append_left _ hn), fun n hn => h n (List.mem_append_right _ hn)⟩

theorem isIntegral_member {k : String} {v : Value} {members : List (String × Value)}
    (h : (Value.object ((k, v) :: members)).IsIntegral) :
    v.IsIntegral ∧ (Value.object members).IsIntegral :=
  ⟨fun n hn => h n (List.mem_append_left _ hn), fun n hn => h n (List.mem_append_right _ hn)⟩

/-! ### What a fuel suffices for

The fuel of a value is twice the length of its text, and that of the items or members of a container
one more, since reading a container spends a step before it reads them. -/

/-- With a fuel, printed values are read back, whatever white space stands in front of them. -/
def ReadsValues (sp : Spacing) (fuel : Nat) : Prop :=
  ∀ {v : Value} {level : Nat} {cs rest : List Char}, v.IsIntegral → StopsNumeral rest →
    2 * (write sp level v).length ≤ fuel → skipGap cs = write sp level v ++ rest →
    readValue fuel cs = (v.tree, some rest)

/-- With a fuel, the printed items of an array are read back, with the bracket behind them. -/
def ReadsItems (sp : Spacing) (fuel : Nat) : Prop :=
  ∀ {v : Value} {items : List Value} {level : Nat} {cs rest : List Char},
    (Value.array (v :: items)).IsIntegral →
    2 * (writeItems sp level (v :: items)).length + 1 ≤ fuel →
    skipGap cs = skipGap (writeItems sp level (v :: items) ++ ']' :: rest) →
    readItems fuel cs = (itemTrees (v :: items), some rest)

/-- With a fuel, the printed members of an object are read back, with the brace behind them. -/
def ReadsMembers (sp : Spacing) (fuel : Nat) : Prop :=
  ∀ {k : String} {v : Value} {members : List (String × Value)} {level : Nat}
    {cs rest : List Char}, (Value.object ((k, v) :: members)).IsIntegral →
    2 * (writeMembers sp level ((k, v) :: members)).length + 1 ≤ fuel →
    skipGap cs = skipGap (writeMembers sp level ((k, v) :: members) ++ '\x7d' :: rest) →
    readMembers fuel cs = (memberTrees ((k, v) :: members), some rest)

section

variable {sp : Spacing} {fuel : Nat}

theorem readsValues_succ (hsp : sp.IsBlank) (hitems : ReadsItems sp fuel)
    (hmembers : ReadsMembers sp fuel) : ReadsValues sp (fuel + 1) := by
  intro v level cs rest hv hrest hfuel hcs
  cases v with
  | null => simp [readValue, hcs, write, Value.tree]
  | bool b => cases b <;> simp [readValue, hcs, write, Value.tree]
  | number n =>
      have hn : n.IsIntegral := hv n List.mem_cons_self
      obtain ⟨c, ds, hds, hc⟩ := head_text_of_isIntegral hn
      rw [write] at hcs
      rw [readValue_number (hcs.trans (by rw [hds, List.cons_append])) hc, ← List.cons_append,
        ← hds, readNumber_text hn hrest, Value.tree]
  | text s =>
      have hquote : skipGap cs = '"' :: (s.toList.flatMap escapedChar ++ '"' :: rest) := by
        rw [hcs, write, stringText]
        simp
      rw [readValue_text hquote (readString_escaped s rest), Value.tree]
  | array items =>
      have hbracket : skipGap cs = '[' :: (writeItems sp level items ++ ']' :: rest) := by
        rw [hcs, write]
        simp
      have hlength : (write sp level (.array items)).length =
          (writeItems sp level items).length + 2 := by simp [write]
      cases items with
      | nil => exact readValue_emptyArray hbracket
      | cons v items =>
          obtain ⟨c, ds, hds, -, hc⟩ := head_write sp (level + 1) (isIntegral_item hv).1
          have hne : ∀ tail, skipGap (writeItems sp level (v :: items) ++ ']' :: rest) ≠
              ']' :: tail := by
            intro tail htail
            rw [skipGap_writeItems hsp level (isIntegral_item hv).1, hds, List.cons_append] at htail
            exact hc (List.cons.inj htail).1
          exact readValue_array hbracket hne
            (hitems hv (by omega) (skipGap_skipGap _))
  | object members =>
      have hbrace : skipGap cs = '\x7b' :: (writeMembers sp level members ++ '\x7d' :: rest) := by
        rw [hcs, write]
        simp
      have hlength : (write sp level (.object members)).length =
          (writeMembers sp level members).length + 2 := by simp [write]
      cases members with
      | nil => exact readValue_emptyObject hbrace
      | cons m members =>
          obtain ⟨k, v⟩ := m
          have hne : ∀ tail, skipGap (writeMembers sp level ((k, v) :: members) ++ '\x7d' :: rest) ≠
              '\x7d' :: tail := by
            intro tail htail
            rw [skipGap_writeMembers hsp] at htail
            exact absurd (List.cons.inj htail).1 (by decide)
          exact readValue_object hbrace hne
            (hmembers hv (by omega) (skipGap_skipGap _))

theorem readsItems_succ (hsp : sp.IsBlank) (hvalues : ReadsValues sp fuel)
    (hitems : ReadsItems sp fuel) : ReadsItems sp (fuel + 1) := by
  intro v items level cs rest hv hfuel hcs
  obtain ⟨hfirst, hothers⟩ := isIntegral_item hv
  have hlength : (writeItems sp level (v :: items)).length = (sp.lineBreak (level + 1)).length +
      (write sp (level + 1) v).length +
      (sp.between level items.isEmpty (writeItems sp level items)).length := by
    simp [writeItems, Spacing.between, Nat.add_assoc]
  have hread : readValue fuel cs = (v.tree,
      some (sp.between level items.isEmpty (writeItems sp level items) ++ ']' :: rest)) :=
    hvalues hfirst
      (stopsNumeral_between hsp level _ _ (stopsNumeral_cons (by decide) rest)) (by omega)
      (hcs.trans (skipGap_writeItems hsp level hfirst items (']' :: rest)))
  cases items with
  | nil =>
      refine readItems_last hread ?_
      rw [List.isEmpty_nil, Spacing.between_true, skipGap_append (hsp.lineBreak level),
        skipGap_cons (by decide)]
  | cons w items =>
      have hmore : 2 * (writeItems sp level (w :: items)).length + 1 ≤ fuel := by
        rw [List.isEmpty_cons, Spacing.between_false, List.length_cons] at hlength
        omega
      exact readItems_more hread (skipGap_cons (by decide) _)
        (hitems hothers hmore rfl)

theorem readsMembers_succ (hsp : sp.IsBlank) (hvalues : ReadsValues sp fuel)
    (hmembers : ReadsMembers sp fuel) : ReadsMembers sp (fuel + 1) := by
  intro k v members level cs rest hv hfuel hcs
  obtain ⟨hfirst, hothers⟩ := isIntegral_member hv
  have hlength : (writeMembers sp level ((k, v) :: members)).length =
      (sp.lineBreak (level + 1)).length + (stringText k).length + 1 + sp.afterColon.length +
      (write sp (level + 1) v).length +
      (sp.between level members.isEmpty (writeMembers sp level members)).length := by
    simp [writeMembers, Spacing.between]
    omega
  rw [skipGap_writeMembers hsp] at hcs
  have hvalue : 2 * (write sp (level + 1) v).length ≤ fuel := by omega
  have hread : readValue fuel (sp.afterColon ++ (write sp (level + 1) v ++
      (sp.between level members.isEmpty (writeMembers sp level members) ++ '\x7d' :: rest))) =
      (v.tree,
        some (sp.between level members.isEmpty (writeMembers sp level members) ++
          '\x7d' :: rest)) :=
    hvalues hfirst
      (stopsNumeral_between hsp level _ _ (stopsNumeral_cons (by decide) rest)) hvalue
      (by rw [skipGap_append hsp.afterColon, skipGap_write sp (level + 1) hfirst])
  cases members with
  | nil =>
      refine readMembers_last hcs (readString_escaped k _) hread ?_
      rw [List.isEmpty_nil, Spacing.between_true, skipGap_append (hsp.lineBreak level),
        skipGap_cons (by decide)]
  | cons m members =>
      obtain ⟨l, w⟩ := m
      have hmore : 2 * (writeMembers sp level ((l, w) :: members)).length + 1 ≤ fuel := by
        rw [List.isEmpty_cons, Spacing.between_false, List.length_cons] at hlength
        omega
      exact readMembers_more hcs (readString_escaped k _) hread (skipGap_cons (by decide) _)
        (hmembers hothers hmore rfl)

/-- Every fuel suffices for the texts that it is long enough for. -/
theorem reads (hsp : sp.IsBlank) (fuel : Nat) :
    ReadsValues sp fuel ∧ ReadsItems sp fuel ∧ ReadsMembers sp fuel := by
  induction fuel with
  | zero =>
      refine ⟨?_, ?_, ?_⟩
      · intro v level cs rest hv hrest hfuel
        have hpos := length_write_pos sp level hv
        omega
      · intro v items level cs rest hv hfuel
        omega
      · intro k v members level cs rest hv hfuel
        omega
  | succ fuel ih =>
      obtain ⟨hvalues, hitems, hmembers⟩ := ih
      exact ⟨readsValues_succ hsp hitems hmembers, readsItems_succ hsp hvalues hitems,
        readsMembers_succ hsp hvalues hmembers⟩

end

/-! ## Whole texts -/

/-- The text of a value, in any layout and with white space behind it, reads as the tree of the value
and holds nothing else. -/
theorem ofText_write {sp : Spacing} (hsp : sp.IsBlank) {v : Value} (hv : v.IsIntegral)
    {gap : List Char} (hgap : ∀ c ∈ gap, isGap c = true) :
    Tree.ofText (String.ofList (write sp 0 v ++ gap)) = (v.tree, true) := by
  have hstops : StopsNumeral gap := by
    have hend : StopsNumeral [] := fun c hc => by simp at hc
    simpa using stopsNumeral_append hgap hend
  have hread : readValue (2 * (write sp 0 v ++ gap).length + 2) (write sp 0 v ++ gap) =
      (v.tree, some gap) := by
    have hfuel : 2 * (write sp 0 v).length ≤ 2 * (write sp 0 v ++ gap).length + 2 := by
      rw [List.length_append]
      omega
    exact (reads hsp _).1 hv hstops hfuel (skipGap_write sp 0 hv gap)
  unfold Tree.ofText
  rw [String.toList_ofList]
  dsimp only
  rw [hread, Option.any_some, List.all_eq_true.mpr hgap]

theorem ofText_compactText {v : Value} (hv : v.IsIntegral) :
    Tree.ofText v.compactText = (v.tree, true) := by
  have hread := ofText_write Spacing.isBlank_compact hv (List.forall_mem_nil _)
  rwa [List.append_nil] at hread

end SwaggerRoutes.Json
