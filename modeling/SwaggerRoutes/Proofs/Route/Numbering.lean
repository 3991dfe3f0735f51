/-
  Proofs/Route/Numbering.lean --- the destinations that the default strategy gives.

  The names depend on the ids of the operations only.  An operation without an id is given a number,
  which counts the operations without an id up to and including it.
-/
import SwaggerRoutes.Proofs.Route.Translation

set_option autoImplicit false

namespace SwaggerRoutes.Route

open Swagger

/-! ## Made-up names -/

/-- The name that is made up for a number. -/
def synthesized (n : Nat) : String :=
  "rest" ++ String.ofList (Text.decimal n)

theorem decimal_injective {m n : Nat} (h : Text.decimal m = Text.decimal n) : m = n := by
  have hread := congrArg (Nat.ofDigitChars 10 · 0) h
  simpa only [Text.decimal, Nat.ofDigitChars_ten_toDigits] using hread

theorem synthesized_injective {m n : Nat} (h : synthesized m = synthesized n) : m = n :=
  decimal_injective (String.ofList_injective ((String.append_right_inj "rest").mp h))

theorem numbered_eq (n : UInt32) : Namer.numbered n = Namer.scheme ++ synthesized n.toNat :=
  String.append_assoc

/-! ## Numbers -/

/-- The number of the operation at a place: how many operations up to there have no id. -/
def numberAt (ids : List (Option String)) (i : Nat) : Nat :=
  (ids.take (i + 1)).count none

/-- A later operation without an id has a greater number. -/
theorem numberAt_lt {ids : List (Option String)} {i j : Nat} (hij : i < j)
    (hj : ids[j]? = some none) : numberAt ids i < numberAt ids j := by
  have hprefix : (ids.take (i + 1)).count none ≤ (ids.take j).count none :=
    (List.take_prefix_take_left hij).sublist.count_le none
  have hsucc : (ids.take (j + 1)).count none = (ids.take j).count none + 1 := by
    rw [List.take_add_one, hj, List.count_append]
    rfl
  rw [numberAt, numberAt, hsucc]
  omega

/-- The name of the operation at a place: its id or, if it has none, one made up for its number. -/
def nameAt (ids : List (Option String)) (i : Nat) (id : Option String) : String :=
  id.getD (synthesized (numberAt ids i))

/-- Two operations have one name only if they have one id, or if one has the id that is made up for
the other. -/
theorem nameAt_eq_iff {ids : List (Option String)} {i j : Nat} (hij : i ≠ j)
    {a b : Option String} (ha : ids[i]? = some a) (hb : ids[j]? = some b) :
    nameAt ids i a = nameAt ids j b ↔
      (∃ c, a = some c ∧ b = some c) ∨
      (a = none ∧ b = some (synthesized (numberAt ids i))) ∨
      (b = none ∧ a = some (synthesized (numberAt ids j))) := by
  cases a with
  | some a =>
      cases b with
      | some b => simp [nameAt, eq_comm]
      | none => simp [nameAt]
  | none =>
      cases b with
      | some b => simp [nameAt, eq_comm]
      | none =>
          have hne : numberAt ids i ≠ numberAt ids j := by
            rcases Nat.lt_or_gt_of_ne hij with hlt | hgt
            · exact Nat.ne_of_lt (numberAt_lt hlt hb)
            · exact Nat.ne_of_gt (numberAt_lt hgt ha)
          have hnames : synthesized (numberAt ids i) ≠ synthesized (numberAt ids j) := fun h =>
            hne (synthesized_injective h)
          simp [nameAt, hnames]

/-! ## Destinations -/

/-- What a namer that has made up some names gives to further operations. -/
theorem getElem?_consult_direct (n : Namer) (ps : List Place)
    (h : n.count.toNat + (ps.map Place.id?).count none < UInt32.size) (i : Nat) :
    (consult Namer.direct n ps).1[i]? = (ps.map Place.id?)[i]?.map fun id =>
      Namer.scheme ++
        id.getD (synthesized (n.count.toNat + ((ps.map Place.id?).take (i + 1)).count none)) := by
  induction ps generalizing n i with
  | nil => rfl
  | cons p ps ih =>
      cases hid : p.id? with
      | some a =>
          rw [List.map_cons, hid, List.count_cons_of_ne (by simp)] at h
          rw [consult, Namer.direct_of_id n hid, List.map_cons, hid]
          cases i with
          | zero => rfl
          | succ i =>
              rw [List.getElem?_cons_succ, List.getElem?_cons_succ, ih n h i, List.take_succ_cons,
                List.count_cons_of_ne (by simp)]
      | none =>
          rw [List.map_cons, hid, List.count_cons_self] at h
          have hnext : (n.count + 1).toNat = n.count.toNat + 1 := by
            have hlt : n.count.toNat + 1 < UInt32.size := by omega
            rw [UInt32.toNat_add]
            exact Nat.mod_eq_of_lt hlt
          rw [consult, Namer.direct_of_no_id n hid, List.map_cons, hid, numbered_eq, hnext]
          cases i with
          | zero => rfl
          | succ i =>
              have hrest : (Namer.mk (n.count + 1)).count.toNat +
                  (ps.map Place.id?).count none < UInt32.size := by
                rw [hnext]
                omega
              rw [List.getElem?_cons_succ, List.getElem?_cons_succ, ih _ hrest i, hnext,
                List.take_succ_cons, List.count_cons_self]
              congr 1
              funext id
              rw [Nat.add_assoc, Nat.add_comm 1]

/-- A fresh namer gives each operation the destination of its name. -/
theorem getElem?_consult_fresh (ps : List Place) (h : (ps.map Place.id?).count none < UInt32.size)
    (i : Nat) :
    (consult Namer.direct .fresh ps).1[i]? = (ps.map Place.id?)[i]?.map fun id =>
      Namer.scheme ++ nameAt (ps.map Place.id?) i id := by
  have hzero : Namer.fresh.count.toNat = 0 := rfl
  have hall := getElem?_consult_direct .fresh ps (by rwa [hzero, Nat.zero_add]) i
  simp only [hzero, Nat.zero_add] at hall
  exact hall

/-! ## Whole descriptions -/

/-- The ids of the operations that a description declares, in their order. -/
def ids (spec : Spec) : List (Option String) :=
  (declared spec).map fun x => x.place.id?

theorem map_id_rulesFor (spec : Spec) {xs : List Site} {ts : List String}
    (h : ts.length = xs.length) :
    (rulesFor spec xs ts).map Rule.id = xs.map fun x => x.place.id? := by
  induction xs generalizing ts with
  | nil => rfl
  | cons x xs ih =>
      cases ts with
      | nil => exact absurd h (by simp)
      | cons t ts => exact congrArg (x.place.id? :: ·) (ih (Nat.succ.inj h))

/-- Unless there are more operations without an id than there are numbers, the rules of a
description have the ids of its operations and go to the destinations of their names. -/
theorem exists_rules_direct {spec : Spec} (hpaths : spec.paths ≠ none)
    (hblank : ¬ HasBlankPath spec) (hcount : (ids spec).count none < UInt32.size) :
    ∃ rules, (derive spec Namer.direct .fresh).result = .ok rules ∧
      rules.map Rule.id = ids spec ∧
      ∀ k r, rules[k]? = some r → (ids spec)[k]? = some r.id ∧
        r.destination = Namer.scheme ++ nameAt (ids spec) k r.id := by
  have hplaces : ((declared spec).map Site.place).map Place.id? = ids spec := by
    rw [List.map_map]
    rfl
  have hlength := length_consult Namer.direct .fresh ((declared spec).map Site.place)
  rw [List.length_map] at hlength
  have hids := map_id_rulesFor spec hlength
  refine ⟨_, result_derive_of_paths hpaths hblank _ _, hids, ?_⟩
  generalize hrules : rulesFor spec (declared spec)
    (consult Namer.direct .fresh ((declared spec).map Site.place)).1 = rules at hids ⊢
  have hdestinations := ((eq_rulesFor_iff spec hlength rules).mp hrules.symm).2
  intro k r hr
  have hid : (ids spec)[k]? = some r.id := by
    rw [ids, ← hids, List.getElem?_map, hr]
    rfl
  have hnames := getElem?_consult_fresh ((declared spec).map Site.place) (by rwa [hplaces]) k
  rw [← hdestinations, List.getElem?_map, hr, hplaces, hid] at hnames
  exact ⟨hid, Option.some.inj hnames⟩

end SwaggerRoutes.Route
