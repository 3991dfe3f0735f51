/-
  Proofs/Route/Merging.lean --- the parameters of a path and of its operations, put together.

  Parameters are merged by a table made of a list, under their names and locations: `Merges` says of
  a list of parameters, without a table, that it is the outcome.
-/
import SwaggerRoutes.Proofs.Table.OfList
import SwaggerRoutes.Route.Derivation

set_option autoImplicit false

namespace SwaggerRoutes.Route

open Swagger

/-! ## What merging comes to -/

/-- The name of a parameter of a description and its location, which tell it from others. -/
def keyOf (p : Parameter) : String × Location :=
  (p.name, p.location)

/-- The name of a parameter of a route and its location. -/
def Param.key (p : Param) : String × Location :=
  (p.name, p.location)

/-- The keys of the parameters that are given in place, one after another. -/
def inlineKeys (es : List ParameterEntry) : List (String × Location) :=
  (inlineParameters es).map keyOf

/-- A parameter is the last one of a list, of those in place, with its key. -/
def IsLastOf (es : List ParameterEntry) (p : Parameter) : Prop :=
  ∃ before after, inlineParameters es = before ++ p :: after ∧ keyOf p ∉ after.map keyOf

/-- The parameters of a route that stand for those in a list: one for each key, in the order of
first occurrence, and each of them for the last with its key. -/
structure Merges (es : List ParameterEntry) (ps : List Param) : Prop where
  mem_keys_iff : ∀ k, k ∈ ps.map Param.key ↔ k ∈ inlineKeys es
  ordered : ps.Pairwise fun r s => (inlineKeys es).idxOf r.key < (inlineKeys es).idxOf s.key
  last : ∀ r ∈ ps, ∃ p, IsLastOf es p ∧ r = .ofParameter p

/-! ## Parameters with their keys -/

/-- The parameters in place with their keys. -/
def keyedParameters (es : List ParameterEntry) : List ((String × Location) × Parameter) :=
  (inlineParameters es).map fun p => (keyOf p, p)

theorem map_fst_keyedParameters (es : List ParameterEntry) :
    (keyedParameters es).map Prod.fst = inlineKeys es := by
  unfold keyedParameters inlineKeys
  rw [List.map_map]
  rfl

theorem keyedParameters_append (es fs : List ParameterEntry) :
    keyedParameters (es ++ fs) = keyedParameters es ++ keyedParameters fs := by
  unfold keyedParameters inlineParameters
  rw [List.filterMap_append, List.map_append]

theorem isLast_keyedParameters_iff (es : List ParameterEntry) (k : String × Location)
    (p : Parameter) :
    Table.IsLast (keyedParameters es) k p ↔ keyOf p = k ∧ IsLastOf es p := by
  constructor
  · rintro ⟨before, after, heq, hnone⟩
    obtain ⟨before', rest, hes, rfl, hrest⟩ := List.map_eq_append_iff.mp heq
    obtain ⟨q, after', rfl, hq, rfl⟩ := List.map_eq_cons_iff.mp hrest
    obtain ⟨rfl, rfl⟩ := Prod.mk.inj hq
    rw [List.map_map] at hnone
    exact ⟨rfl, before', after', hes, hnone⟩
  · rintro ⟨rfl, before, after, heq, hnone⟩
    refine ⟨before.map fun p => (keyOf p, p), after.map fun p => (keyOf p, p), ?_, ?_⟩
    · rw [keyedParameters, heq, List.map_append, List.map_cons]
    · rwa [List.map_map]

theorem IsLastOf.unique {es : List ParameterEntry} {p q : Parameter} (hp : IsLastOf es p)
    (hq : IsLastOf es q) (h : keyOf p = keyOf q) : p = q := by
  have hplast := (isLast_keyedParameters_iff es (keyOf q) p).mpr ⟨h, hp⟩
  have hqlast := (isLast_keyedParameters_iff es (keyOf q) q).mpr ⟨rfl, hq⟩
  exact hplast.unique hqlast

theorem Merges.nodup {es : List ParameterEntry} {ps : List Param} (h : Merges es ps) :
    ps.Nodup := by
  refine List.Pairwise.imp (fun {r s} hlt heq => ?_) h.ordered
  rw [heq] at hlt
  exact absurd hlt (Nat.lt_irrefl _)

/-- No two lists stand for one. -/
theorem Merges.unique {es : List ParameterEntry} {ps qs : List Param} (hp : Merges es ps)
    (hq : Merges es qs) : ps = qs := by
  have hsubset {rs ts : List Param} (hr : Merges es rs) (ht : Merges es ts) : rs ⊆ ts := by
    intro r hmem
    have hkey := (hr.mem_keys_iff r.key).mp (List.mem_map_of_mem hmem)
    obtain ⟨t, htmem, htkey⟩ := List.mem_map.mp ((ht.mem_keys_iff r.key).mpr hkey)
    obtain ⟨p, hlast, rfl⟩ := hr.last r hmem
    obtain ⟨q, hlast', rfl⟩ := ht.last t htmem
    rwa [hlast.unique hlast' htkey.symm]
  refine List.Perm.eq_of_pairwise (fun r s _ _ hlt hgt => ?_) hp.ordered hq.ordered ?_
  · exact absurd (Nat.lt_trans hlt hgt) (Nat.lt_irrefl _)
  · exact (List.perm_ext_iff_of_nodup hp.nodup hq.nodup).mpr fun r =>
      ⟨fun h => hsubset hp hq h, fun h => hsubset hq hp h⟩

/-! ## The table of parameters -/

theorem mergeParameters_eq (shared own : List ParameterEntry) :
    mergeParameters shared own =
      (Table.ofList (keyedParameters (shared ++ own))).entries.map fun e =>
        Param.ofParameter e.2 := by
  unfold mergeParameters Table.values
  rw [List.map_map]
  rfl

/-- An entry of the table holds the last parameter with its key. -/
theorem isLastOf_of_mem_entries {es : List ParameterEntry} {k : String × Location} {p : Parameter}
    (h : (k, p) ∈ (Table.ofList (keyedParameters es)).entries) : keyOf p = k ∧ IsLastOf es p := by
  rw [Table.mem_entries_iff, Table.get?_ofList_eq_some_iff, isLast_keyedParameters_iff] at h
  exact h

theorem map_key_mergeParameters (shared own : List ParameterEntry) :
    (mergeParameters shared own).map Param.key =
      (Table.ofList (keyedParameters (shared ++ own))).keys := by
  rw [mergeParameters_eq, List.map_map, Table.keys]
  exact List.map_congr_left fun e he => (isLastOf_of_mem_entries he).1

theorem merges_mergeParameters (shared own : List ParameterEntry) :
    Merges (shared ++ own) (mergeParameters shared own) := by
  constructor
  · intro k
    rw [map_key_mergeParameters, Table.mem_keys_ofList, map_fst_keyedParameters]
  · have hordered := Table.pairwise_keys_ofList (keyedParameters (shared ++ own))
    rw [← map_key_mergeParameters, map_fst_keyedParameters, List.pairwise_map] at hordered
    exact hordered
  · intro r hr
    rw [mergeParameters_eq] at hr
    obtain ⟨⟨k, p⟩, he, rfl⟩ := List.mem_map.mp hr
    exact ⟨p, (isLastOf_of_mem_entries he).2, rfl⟩

/-! ## Own parameters and shared ones -/

theorem inlineParameters_append (es fs : List ParameterEntry) :
    inlineParameters (es ++ fs) = inlineParameters es ++ inlineParameters fs :=
  List.filterMap_append

/-- The last of the parameters of an operation is the last of all. -/
theorem IsLastOf.append_left {own : List ParameterEntry} {p : Parameter} (h : IsLastOf own p)
    (shared : List ParameterEntry) : IsLastOf (shared ++ own) p := by
  obtain ⟨before, after, heq, hnone⟩ := h
  refine ⟨inlineParameters shared ++ before, after, ?_, hnone⟩
  rw [inlineParameters_append, heq, List.append_assoc]

/-- The last of the shared parameters is the last of all if the operation has none with its key. -/
theorem IsLastOf.append_right {shared own : List ParameterEntry} {p : Parameter}
    (h : IsLastOf shared p) (hown : keyOf p ∉ inlineKeys own) : IsLastOf (shared ++ own) p := by
  obtain ⟨before, after, heq, hnone⟩ := h
  refine ⟨before, after ++ inlineParameters own, ?_, ?_⟩
  · rw [inlineParameters_append, heq, List.append_assoc, List.cons_append]
  · rw [List.map_append, List.mem_append, not_or]
    exact ⟨hnone, hown⟩

/-- A parameter of a route stands for the last parameter with its key, and for no other. -/
theorem eq_of_mem_mergeParameters {shared own : List ParameterEntry} {r : Param}
    (hr : r ∈ mergeParameters shared own) {p : Parameter} (hp : IsLastOf (shared ++ own) p)
    (hkey : keyOf p = r.key) : r = .ofParameter p := by
  obtain ⟨q, hq, rfl⟩ := (merges_mergeParameters shared own).last r hr
  rw [hp.unique hq hkey]

/-- The keys of the shared parameters come first, whatever the operation adds. -/
theorem map_key_prefix_mergeParameters (shared own : List ParameterEntry) :
    (mergeParameters shared []).map Param.key <+: (mergeParameters shared own).map Param.key := by
  rw [map_key_mergeParameters, map_key_mergeParameters, List.append_nil, keyedParameters_append,
    Table.ofList_append]
  exact Table.keys_prefix_keys_foldl _ _

/-- What stands in a place when the operation declares nothing keeps that place: the last parameter
of the operation with its key takes it, and if there is none nothing changes. -/
theorem getElem?_mergeParameters {shared : List ParameterEntry} {i : Nat} {r : Param}
    (hr : (mergeParameters shared [])[i]? = some r) (own : List ParameterEntry) :
    ∃ r', (mergeParameters shared own)[i]? = some r' ∧ r'.key = r.key ∧
      (∀ p, IsLastOf own p → keyOf p = r.key → r' = .ofParameter p) ∧
      (r.key ∉ inlineKeys own → r' = r) := by
  obtain ⟨more, hmore⟩ := map_key_prefix_mergeParameters shared own
  have hlt : i < ((mergeParameters shared []).map Param.key).length := by
    rw [List.length_map]
    exact (List.getElem?_eq_some_iff.mp hr).1
  have hkey : ((mergeParameters shared own).map Param.key)[i]? = some r.key := by
    rw [← hmore, List.getElem?_append_left hlt, List.getElem?_map, hr]
    rfl
  rw [List.getElem?_map, Option.map_eq_some_iff] at hkey
  obtain ⟨r', hr', hkey⟩ := hkey
  have hmem : r' ∈ mergeParameters shared own := List.mem_of_getElem? hr'
  refine ⟨r', hr', hkey, fun p hp hpkey => ?_, fun hown => ?_⟩
  · exact eq_of_mem_mergeParameters hmem (hp.append_left shared) (hpkey.trans hkey.symm)
  · obtain ⟨p, hp, rfl⟩ := (merges_mergeParameters shared []).last r (List.mem_of_getElem? hr)
    rw [List.append_nil] at hp
    exact eq_of_mem_mergeParameters hmem (hp.append_right hown) hkey.symm

/-! ## References -/

theorem inlineParameters_reference (before after : List ParameterEntry) (target : String) :
    inlineParameters (before ++ .reference target :: after) = inlineParameters (before ++ after) := by
  rw [inlineParameters_append, inlineParameters_append]
  rfl

/-- Only parameters in place count. -/
theorem mergeParameters_congr {shared own shared' own' : List ParameterEntry}
    (h : inlineParameters (shared ++ own) = inlineParameters (shared' ++ own')) :
    mergeParameters shared own = mergeParameters shared' own' := by
  unfold mergeParameters
  rw [h]

/-! ## All that merging does -/

theorem mem_inlineParameters_iff (es : List ParameterEntry) (p : Parameter) :
    p ∈ inlineParameters es ↔ .inline p ∈ es := by
  unfold inlineParameters
  rw [List.mem_filterMap]
  constructor
  · rintro ⟨e, he, hp⟩
    cases e with
    | reference target => exact nomatch hp
    | inline q => rwa [← Option.some.inj hp]
  · exact fun h => ⟨_, h, rfl⟩

theorem exists_mem_mergeParameters {shared own : List ParameterEntry} {p : Parameter}
    (h : .inline p ∈ shared ++ own) : ∃ r ∈ mergeParameters shared own, r.key = keyOf p := by
  have hkey : keyOf p ∈ inlineKeys (shared ++ own) :=
    List.mem_map_of_mem ((mem_inlineParameters_iff _ p).mpr h)
  rw [← (merges_mergeParameters shared own).mem_keys_iff] at hkey
  exact List.mem_map.mp hkey

/-- Merging gives one parameter for each name and location, in the order in which these are first
met in the shared parameters and then in those of the operation, and each of them stands for the
last parameter with its name and location.  So a parameter of the operation wins over a shared one
and takes its place, parameters with one name at two locations are both kept, and references make no
difference, wherever they are. -/
theorem mergeParameters_eq_iff (shared own : List ParameterEntry) :
    (∀ ps, mergeParameters shared own = ps ↔ Merges (shared ++ own) ps) ∧
    (∀ (i : Nat) (r : Param), (mergeParameters shared [])[i]? = some r →
      ∃ r', (mergeParameters shared own)[i]? = some r' ∧ r'.key = r.key ∧
        (∀ p, IsLastOf own p → keyOf p = r.key → r' = .ofParameter p) ∧
        (r.key ∉ inlineKeys own → r' = r)) ∧
    (∀ p, IsLastOf own p → .ofParameter p ∈ mergeParameters shared own) ∧
    (∀ p q, .inline p ∈ shared ++ own → .inline q ∈ shared ++ own → p.name = q.name →
      p.location ≠ q.location → ∃ r ∈ mergeParameters shared own,
        ∃ s ∈ mergeParameters shared own, r.key = keyOf p ∧ s.key = keyOf q ∧ r ≠ s) ∧
    (∀ before after target,
      (shared = before ++ .reference target :: after →
        mergeParameters shared own = mergeParameters (before ++ after) own) ∧
      (own = before ++ .reference target :: after →
        mergeParameters shared own = mergeParameters shared (before ++ after))) := by
  refine ⟨fun ps => ⟨?_, ?_⟩, fun i r hr => getElem?_mergeParameters hr own, fun p hp => ?_,
    fun p q hp hq hname hlocation => ?_, fun before after target => ⟨?_, ?_⟩⟩
  · rintro rfl
    exact merges_mergeParameters shared own
  · exact fun h => (merges_mergeParameters shared own).unique h
  · have hmem : p ∈ inlineParameters own := by
      obtain ⟨before, after, heq, -⟩ := hp
      simp [heq]
    have hinline := List.mem_append_right shared ((mem_inlineParameters_iff own p).mp hmem)
    obtain ⟨r, hr, hkey⟩ := exists_mem_mergeParameters hinline
    rwa [← eq_of_mem_mergeParameters hr (hp.append_left shared) hkey.symm]
  · obtain ⟨r, hr, hrkey⟩ := exists_mem_mergeParameters hp
    obtain ⟨s, hs, hskey⟩ := exists_mem_mergeParameters hq
    refine ⟨r, hr, s, hs, hrkey, hskey, fun heq => hlocation ?_⟩
    rw [heq, hskey] at hrkey
    exact (Prod.mk.inj hrkey).2.symm
  · rintro rfl
    refine mergeParameters_congr ?_
    rw [inlineParameters_append, inlineParameters_reference, ← inlineParameters_append]
  · rintro rfl
    refine mergeParameters_congr ?_
    rw [inlineParameters_append, inlineParameters_reference, ← inlineParameters_append]

/-- A path that shares two parameters and a reference between them, and an operation that declares
one of the two twice, and the other name at another location. -/
theorem mergeParameters_eq_iff_of_overrides :
    let own (p : Parameter) (text : String) : Parameter := { p with description := some text }
    let path := Parameter.named "id" .path
    let query := Parameter.named "limit" .query
    let header := Parameter.named "limit" .header
    let shared : List ParameterEntry := [.inline path, .reference "#/parameters/a", .inline query]
    let declared : List ParameterEntry :=
      [.inline header, .inline (own path "first"), .inline (own path "second")]
    (mergeParameters shared declared)[0]? = some (.ofParameter (own path "second")) ∧
    (mergeParameters shared declared)[1]? = some (.ofParameter query) ∧
    .ofParameter header ∈ mergeParameters shared declared ∧
    mergeParameters shared declared = mergeParameters [.inline path, .inline query] declared := by
  intro own path query header shared declared
  obtain ⟨-, hplaces, hwins, -, hreferences⟩ := mergeParameters_eq_iff shared declared
  have hlast : IsLastOf declared (own path "second") :=
    ⟨[header, own path "first"], [], rfl, List.not_mem_nil⟩
  obtain ⟨r, hr, -, hown, -⟩ := hplaces 0 (.ofParameter path) rfl
  obtain ⟨s, hs, -, -, hshared⟩ := hplaces 1 (.ofParameter query) rfl
  refine ⟨?_, ?_, hwins header ?_, (hreferences [.inline path] [.inline query] _).1 rfl⟩
  · rw [hr, hown _ hlast rfl]
  · rw [hs, hshared (by decide)]
  · exact ⟨[], [own path "first", own path "second"], rfl, by decide⟩

end SwaggerRoutes.Route
