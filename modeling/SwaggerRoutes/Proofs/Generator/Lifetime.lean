/-
  Proofs/Generator/Lifetime.lean --- the numbers that one namer gives over its whole life.

  A namer knows of its operations only by the calls it gets, so all that matters is which calls
  these are, in a row: `consulted` lists them for any number of derivations, whether these succeed
  or stop at a blank path.  Over such a list the numbers run from one on without a gap, and the
  count of the namer is always the number of operations without an id so far.
-/
import SwaggerRoutes.Proofs.Generator.Session
import SwaggerRoutes.Proofs.Route.Numbering

set_option autoImplicit false

namespace SwaggerRoutes.Route

open Swagger

variable {σ : Type}

/-! ## Calls in a row -/

/-- How many operations of a list have no id. -/
def unnamed (ps : List Place) : Nat :=
  (ps.map Place.id?).count none

theorem unnamed_append (ps qs : List Place) : unnamed (ps ++ qs) = unnamed ps + unnamed qs := by
  unfold unnamed
  rw [List.map_append, List.count_append]

theorem unnamed_cons (p : Place) (ps : List Place) :
    unnamed (p :: ps) = unnamed ps + if p.id? = none then 1 else 0 := by
  unfold unnamed
  rw [List.map_cons, List.count_cons]
  cases p.id? <;> rfl

/-- The calls for further operations begin where those before them have left the strategy. -/
theorem consult_append (d : Strategy σ) (s : σ) (ps qs : List Place) :
    consult d s (ps ++ qs) =
      ((consult d s ps).1 ++ (consult d (consult d s ps).2 qs).1,
        (consult d (consult d s ps).2 qs).2) := by
  induction ps generalizing s with
  | nil => rfl
  | cons p ps ih =>
      rw [List.cons_append, consult, ih, consult]
      rfl

/-- A namer counts the operations without an id, and no others. -/
theorem count_consult_direct (n : Namer) (ps : List Place)
    (h : n.count.toNat + unnamed ps < UInt32.size) :
    (consult Namer.direct n ps).2.count.toNat = n.count.toNat + unnamed ps := by
  induction ps generalizing n with
  | nil => rfl
  | cons p ps ih =>
      rw [unnamed_cons] at h ⊢
      rw [consult]
      cases hid : p.id? with
      | some i =>
          rw [hid, if_neg (by simp)] at h
          rw [Namer.direct_of_id n hid, ih n h, if_neg (by simp)]
          rfl
      | none =>
          rw [hid, if_pos rfl] at h
          have hnext : (n.count + 1).toNat = n.count.toNat + 1 := by
            have hlt : n.count.toNat + 1 < UInt32.size := by omega
            rw [UInt32.toNat_add]
            exact Nat.mod_eq_of_lt hlt
          rw [Namer.direct_of_no_id n hid, ih _ (by rw [hnext]; omega), hnext, if_pos rfl]
          omega

/-- Over its whole life a namer gives an operation its id, or the number that it has among those
without one. -/
theorem getElem?_consult_of_place {ps : List Place} (h : unnamed ps < UInt32.size) {i : Nat}
    {p : Place} (hp : ps[i]? = some p) :
    (consult Namer.direct .fresh ps).1[i]? =
      some (Namer.scheme ++ p.id?.getD (synthesized (unnamed (ps.take (i + 1))))) := by
  have hid : (ps.map Place.id?)[i]? = some p.id? := by rw [List.getElem?_map, hp]; rfl
  rw [getElem?_consult_fresh ps h i, hid, Option.map_some, nameAt, numberAt, ← List.map_take]
  rfl

/-- Names that are made up are different, however far they are apart. -/
theorem getElem?_consult_ne {ps : List Place} (h : unnamed ps < UInt32.size) {i j : Nat}
    (hij : i ≠ j) {p q : Place} (hp : ps[i]? = some p) (hq : ps[j]? = some q)
    (hpid : p.id? = none) (hqid : q.id? = none) :
    (consult Namer.direct .fresh ps).1[i]? ≠ (consult Namer.direct .fresh ps).1[j]? := by
  have hi : (ps.map Place.id?)[i]? = some none := by rw [List.getElem?_map, hp, ← hpid]; rfl
  have hj : (ps.map Place.id?)[j]? = some none := by rw [List.getElem?_map, hq, ← hqid]; rfl
  rw [getElem?_consult_fresh ps h i, getElem?_consult_fresh ps h j, hi, hj]
  intro heq
  have hname := (String.append_right_inj Namer.scheme).mp (Option.some.inj heq)
  rcases (nameAt_eq_iff hij hi hj).mp hname with ⟨a, ha, -⟩ | ⟨-, ha⟩ | ⟨-, ha⟩ <;> exact nomatch ha

/-! ## One derivation -/

/-- The operations of the paths before a blank one, where that is the first. -/
theorem reached_eq_sites {spec : Spec} {paths : Table String PathItem}
    (hpaths : spec.paths = some paths) {before after : List (String × PathItem)} {path : String}
    {item : PathItem} (hentries : paths.entries = before ++ (path, item) :: after)
    (hbefore : ∀ e ∈ before, Text.trim e.1 ≠ "") (hblank : Text.trim path = "") :
    reached spec = sites before := by
  unfold reached
  rw [hpaths]
  refine congrArg sites ?_
  rw [hentries, List.takeWhile_append_of_pos fun e he => decide_eq_true (hbefore e he),
    List.takeWhile_cons_of_neg (by simpa using hblank), List.append_nil]

/-- The calls of a strategy that a derivation makes: all declared operations if it succeeds, those
of the paths before the first blank one if that stops it, and none if there are no paths. -/
structure Consults (spec : Spec) (d : Strategy σ) (s : σ) : Prop where
  noPaths : spec.paths = none →
    (derive spec d s).result = .error .noPaths ∧ (derive spec d s).state = s
  blankPath : ∀ (paths : Table String PathItem) (before after : List (String × PathItem))
    (path : String) (item : PathItem), spec.paths = some paths →
    paths.entries = before ++ (path, item) :: after → (∀ e ∈ before, Text.trim e.1 ≠ "") →
    Text.trim path = "" →
      (derive spec d s).result = .error .blankPath ∧
      (derive spec d s).state = (consult d s ((sites before).map Site.place)).2
  rules : ∀ rules, (derive spec d s).result = .ok rules →
    (rules.map Rule.destination, (derive spec d s).state) =
      consult d s ((declared spec).map Site.place)

theorem consults (spec : Spec) (d : Strategy σ) (s : σ) : Consults spec d s := by
  constructor
  · intro hpaths
    refine ⟨result_derive_of_no_paths hpaths d s, ?_⟩
    rw [state_derive, reached, hpaths]
    rfl
  · intro paths before after path item hpaths hentries hbefore hblank
    have hmem : (path, item) ∈ paths.entries := by
      rw [hentries]
      exact List.mem_append_right before List.mem_cons_self
    refine ⟨result_derive_of_blank ⟨paths, hpaths, _, hmem, hblank⟩ d s, ?_⟩
    rw [state_derive, reached_eq_sites hpaths hentries hbefore hblank]
  · intro rules hrules
    obtain ⟨-, hblank, -, hdestinations⟩ := (result_eq_ok_iff spec d s rules).mp hrules
    have hstate := state_derive spec d s
    rw [reached_eq_declared hblank] at hstate
    exact Prod.ext hdestinations hstate

end SwaggerRoutes.Route

namespace SwaggerRoutes.Generator

open Files Route Swagger

variable {σ : Type}

/-! ## Derivations in a row -/

/-- The operations for which a number of derivations in a row call their strategy. -/
def consulted (spec : Spec) (n : Nat) : List Place :=
  (List.replicate n ((reached spec).map Site.place)).flatten

theorem consulted_succ (spec : Spec) (n : Nat) :
    consulted spec (n + 1) = consulted spec n ++ (reached spec).map Site.place := by
  unfold consulted
  rw [List.replicate_succ', List.flatten_append, List.flatten_singleton]

theorem unnamed_consulted (spec : Spec) (n : Nat) :
    unnamed (consulted spec n) = n * unnamed ((reached spec).map Site.place) := by
  induction n with
  | zero => rw [Nat.zero_mul]; rfl
  | succ n ih => rw [consulted_succ, unnamed_append, ih, Nat.succ_mul]

theorem stateAfter_eq (spec : Spec) (d : Strategy σ) (s : σ) (n : Nat) :
    stateAfter spec d s n = (consult d s (consulted spec n)).2 := by
  induction n with
  | zero => rfl
  | succ n ih => rw [stateAfter, state_derive, consulted_succ, consult_append, ih]

/-- The destinations of a derivation that succeeds come behind those of the derivations before it,
in one row of calls. -/
theorem consult_consulted_succ {spec : Spec} {d : Strategy σ} {s : σ} {k : Nat} {rules : List Rule}
    (h : (translation spec d s k).result = .ok rules) :
    (consult d s (consulted spec (k + 1))).1 =
      (consult d s (consulted spec k)).1 ++ rules.map Rule.destination := by
  obtain ⟨-, hblank, -, hdestinations⟩ := (result_eq_ok_iff spec d _ rules).mp h
  rw [consulted_succ, consult_append, reached_eq_declared hblank, hdestinations, stateAfter_eq]

/-- A namer numbers the operations without an id from one on, without a gap and without regard to
the others, as long as there are numbers; its count is that of the numbers given, and no two of them
are the same.  This is said of any operations in a row.  Those of a derivation are all that are
declared if it succeeds, those before the first blank path if that stops it, and none if there are
no paths, for any strategy, be it one that keeps a list of its calls.  Derivations in a row give
their operations to the strategy one after another, and so do the calls of a session. -/
theorem numbered_without_gap :
    (∀ ps : List Place, unnamed ps < UInt32.size →
      (∀ (i : Nat) (p : Place), ps[i]? = some p → (consult Namer.direct .fresh ps).1[i]? =
        some (Namer.scheme ++ p.id?.getD (synthesized (unnamed (ps.take (i + 1)))))) ∧
      (consult Namer.direct .fresh ps).2.count.toNat = unnamed ps ∧
      ∀ (i j : Nat) (p q : Place), i ≠ j → ps[i]? = some p → ps[j]? = some q →
        p.id? = none → q.id? = none →
        (consult Namer.direct .fresh ps).1[i]? ≠ (consult Namer.direct .fresh ps).1[j]?) ∧
    (∀ (spec : Spec) (σ : Type) (d : Strategy σ) (s : σ), Consults spec d s ∧
      ∀ n, stateAfter spec d s n = (consult d s (consulted spec n)).2 ∧
        unnamed (consulted spec n) = n * unnamed ((reached spec).map Site.place) ∧
        ∀ rules, (translation spec d s n).result = .ok rules →
          (consult d s (consulted spec (n + 1))).1 =
            (consult d s (consulted spec n)).1 ++ rules.map Rule.destination) ∧
    ∀ (m : Type → Type) [Monad m] [LawfulMonad m] (σ : Type) (g : Generator σ)
      (os : List (Output m)), session g os = (do
        let answers ←
          deliverAll g.plain (translations g.spec g.strategy g.state os.length) os
        return (answers,
          g.withState (consult g.strategy g.state (consulted g.spec os.length)).2)) := by
  refine ⟨fun ps hps => ⟨fun i p hp => getElem?_consult_of_place hps hp, ?_, ?_⟩, ?_, ?_⟩
  · have hzero : Namer.fresh.count.toNat = 0 := rfl
    have hcount := count_consult_direct .fresh ps (by rwa [hzero, Nat.zero_add])
    rwa [hzero, Nat.zero_add] at hcount
  · intro i j p q hij hp hq hpid hqid
    exact getElem?_consult_ne hps hij hp hq hpid hqid
  · intro spec σ d s
    refine ⟨consults spec d s, fun n => ⟨stateAfter_eq spec d s n, unnamed_consulted spec n, ?_⟩⟩
    intro rules hrules
    exact consult_consulted_succ hrules
  · intro m _ _ σ g os
    rw [session_eq_deliverAll, stateAfter_eq]

/-- Two calls on a description in which an id is empty and a path is blank. -/
theorem numbered_without_gap_of_blank_path :
    let o (id : Option String) : Operation := { Operation.blank with operationId := id }
    let before : List (String × PathItem) :=
      [("/a", { PathItem.blank with get := some (o none), put := some (o "a") }),
        ("/b", { PathItem.blank with post := some (o "") })]
    let paths : Table String PathItem := ⟨before ++ [(" ", .blank)], by simp [before]⟩
    let spec : Spec := { Spec.blank with paths := some paths }
    let ps := consulted spec 2
    unnamed ps < UInt32.size ∧ (consult Namer.direct .fresh ps).2.count.toNat = 4 ∧
      (∀ (i : Nat) (p : Place), ps[i]? = some p → (consult Namer.direct .fresh ps).1[i]? =
        some (Namer.scheme ++ p.id?.getD (synthesized (unnamed (ps.take (i + 1)))))) ∧
      (stateAfter spec Namer.direct .fresh 2).count.toNat = 4 ∧
      (Route.derive spec Namer.direct .fresh).result = .error .blankPath := by
  intro o before paths spec ps
  obtain ⟨hnumbers, hcalls, -⟩ := numbered_without_gap
  have hbefore : ∀ e ∈ before, Text.trim e.1 ≠ "" := by decide
  have hpaths : spec.paths = some paths := rfl
  have hreached : reached spec = sites before := reached_eq_sites hpaths rfl hbefore (by decide)
  have hps : unnamed ps = 4 := by
    rw [unnamed_consulted, hreached]
    rfl
  have hlt : unnamed ps < UInt32.size := by
    rw [hps]
    decide
  obtain ⟨hnames, hcount, -⟩ := hnumbers ps hlt
  obtain ⟨hconsults, hrow⟩ := hcalls spec Namer Namer.direct .fresh
  obtain ⟨hstopped, -⟩ :=
    hconsults.blankPath paths before [] " " .blank rfl rfl hbefore (by decide)
  rw [hps] at hcount
  exact ⟨hlt, hcount, hnames, by rw [(hrow 2).1, hcount], hstopped⟩

end SwaggerRoutes.Generator
