/-
  Proofs/Route/Sharing.lean --- which operations share a destination.

  Ids are used as they are, and names are made up without a look at the ids that a description
  declares.  So there are two ways to share a destination: by an id that is declared twice, of which
  a notice is given, and by an id that is the name made up for another operation, of which there is
  none.
-/
import SwaggerRoutes.Proofs.Route.Numbering

set_option autoImplicit false

namespace SwaggerRoutes.Route

open Swagger

/-- Of two operations with one id notice is given. -/
theorem repeatedId_mem_notices {σ : Type} {spec : Spec} (hblank : ¬ HasBlankPath spec)
    (d : Strategy σ) (s : σ) {i j : Nat} (hij : i ≠ j) {a : String}
    (hi : (ids spec)[i]? = some (some a)) (hj : (ids spec)[j]? = some (some a)) :
    .repeatedId a ∈ (derive spec d s).notices := by
  have hsite : ∀ {k : Nat}, (ids spec)[k]? = some (some a) →
      ∃ hk : k < (declared spec).length, (declared spec)[k].place.id? = some a := by
    intro k hk
    rw [ids, List.getElem?_map, Option.map_eq_some_iff] at hk
    obtain ⟨x, hx, hid⟩ := hk
    obtain ⟨hlt, rfl⟩ := List.getElem?_eq_some_iff.mp hx
    exact ⟨hlt, hid⟩
  obtain ⟨hilt, hi⟩ := hsite hi
  obtain ⟨hjlt, hj⟩ := hsite hj
  rw [notices_derive, reached_eq_declared hblank]
  rcases Nat.lt_or_gt_of_ne hij with hlt | hgt
  · exact Progress.repeatedId_mem_notices_walk spec d _ hlt hjlt hi hj
  · exact Progress.repeatedId_mem_notices_walk spec d _ hgt hilt hj hi

/-- A description with two paths, each of which declares one operation, with these ids. -/
def twoPaths (first second : Option String) : Spec :=
  let declaring (id : Option String) : PathItem :=
    { PathItem.blank with get := some { Operation.blank with operationId := id } }
  { Spec.blank with
    paths := some ⟨[("/a", declaring first), ("/b", declaring second)], by simp⟩ }

theorem not_hasBlankPath_twoPaths (first second : Option String) :
    ¬ HasBlankPath (twoPaths first second) := by
  have hfirst : Text.trim "/a" ≠ "" := by decide
  have hsecond : Text.trim "/b" ≠ "" := by decide
  rw [hasBlankPath_iff rfl]
  simp [hfirst, hsecond]

/-- Two operations of a description share a destination exactly if they declare one id, of which
notice is given, or if one of them declares no id and the other one declares the name that is made
up for its number. -/
theorem destination_eq_iff (spec : Spec) (hpaths : spec.paths ≠ none)
    (hblank : ¬ HasBlankPath spec) (hcount : (ids spec).count none < UInt32.size) :
    ∃ rules, (derive spec Namer.direct .fresh).result = .ok rules ∧
      rules.map Rule.id = ids spec ∧
      ∀ i j r t, i ≠ j → rules[i]? = some r → rules[j]? = some t →
        (r.destination = t.destination ↔
          (∃ a, r.id = some a ∧ t.id = some a ∧
            .repeatedId a ∈ (derive spec Namer.direct .fresh).notices) ∨
          (r.id = none ∧ t.id = some (synthesized (numberAt (ids spec) i))) ∨
          (t.id = none ∧ r.id = some (synthesized (numberAt (ids spec) j)))) := by
  obtain ⟨rules, hresult, hids, hrules⟩ := exists_rules_direct hpaths hblank hcount
  refine ⟨rules, hresult, hids, ?_⟩
  intro i j r t hij hr ht
  obtain ⟨hri, hrname⟩ := hrules i r hr
  obtain ⟨htj, htname⟩ := hrules j t ht
  rw [hrname, htname, String.append_right_inj, nameAt_eq_iff hij hri htj]
  refine or_congr_left (exists_congr fun a => ?_)
  constructor
  · rintro ⟨ha, hb⟩
    refine ⟨ha, hb, repeatedId_mem_notices hblank _ _ hij (a := a) ?_ ?_⟩
    · rw [hri, ha]
    · rw [htj, hb]
  · rintro ⟨ha, hb, -⟩
    exact ⟨ha, hb⟩

/-- An id that is declared twice: one destination, and a notice of it. -/
theorem destination_eq_iff_of_twice :
    let spec := twoPaths (some "a") (some "a")
    spec.paths ≠ none ∧ ¬ HasBlankPath spec ∧ (ids spec).count none < UInt32.size ∧
      (∃ r t, (derive spec Namer.direct .fresh).result = .ok [r, t] ∧
        r.destination = "direct:a" ∧ t.destination = "direct:a") ∧
      .repeatedId "a" ∈ (derive spec Namer.direct .fresh).notices := by
  intro spec
  have hpaths : spec.paths ≠ none := Option.some_ne_none _
  have hblank : ¬ HasBlankPath spec := not_hasBlankPath_twoPaths _ _
  have hcount : (ids spec).count none < UInt32.size := by decide
  obtain ⟨r, t, hpair, hr, ht, hid⟩ : ∃ r t, (derive spec Namer.direct .fresh).result = .ok [r, t] ∧
      r.destination = "direct:a" ∧ t.destination = "direct:a" ∧ r.id = some "a" ∧ t.id = some "a" :=
    ⟨_, _, rfl, by decide, by decide, by decide, by decide⟩
  refine ⟨hpaths, hblank, hcount, ⟨r, t, hpair, hr, ht⟩, ?_⟩
  obtain ⟨rules, hrules, -, hshare⟩ := destination_eq_iff spec hpaths hblank hcount
  obtain rfl : rules = [r, t] := Except.ok.inj (hrules.symm.trans hpair)
  obtain ⟨a, ha, -, hnotice⟩ | ⟨hnone, -⟩ | ⟨hnone, -⟩ :=
    (hshare 0 1 r t (by decide) rfl rfl).mp (hr.trans ht.symm)
  · obtain rfl : "a" = a := Option.some.inj (hid.1.symm.trans ha)
    exact hnotice
  · exact absurd (hid.1.symm.trans hnone) (by simp)
  · exact absurd (hid.2.symm.trans hnone) (by simp)

/-- A name that is made up, and declared by another operation: one destination, and no notice. -/
theorem destination_shared_without_notice :
    let spec := twoPaths (some "rest1") none
    spec.paths ≠ none ∧ ¬ HasBlankPath spec ∧ (ids spec).count none < UInt32.size ∧
      ∃ r t, (derive spec Namer.direct .fresh).result = .ok [r, t] ∧
        r.id = some "rest1" ∧ t.id = none ∧ r.destination = t.destination ∧
        ∀ a, .repeatedId a ∉ (derive spec Namer.direct .fresh).notices := by
  intro spec
  refine ⟨Option.some_ne_none _, not_hasBlankPath_twoPaths _ _, by decide, _, _, rfl, rfl, rfl,
    by decide, fun a => ?_⟩
  have hnotices : (derive spec Namer.direct .fresh).notices =
      [.routed .get "/a" "direct:rest1", .routed .get "/b" "direct:rest1"] := by decide
  simp [hnotices]

end SwaggerRoutes.Route
