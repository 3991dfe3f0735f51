/-
  Proofs/Generator/Directory.lean --- what writing a source under a directory leaves in a tree.

  Nothing is written before there is a source.  Then its file is written, with the directories
  around it, on a machine that may fail at any time; whatever happens, nothing else is changed.
-/
import SwaggerRoutes.Proofs.Files.Overwriting
import SwaggerRoutes.Proofs.Generator.Delivery
import SwaggerRoutes.Proofs.Generator.Placement

set_option autoImplicit false

namespace SwaggerRoutes.Generator

open Files Route Tree

variable {σ W : Type}

/-! ## Sources -/

/-- The result of writing under a path, and the notice that a source was written. -/
def placed (path : String) : Except Fault Unit → Except GenerateFault String × List Notice
  | .error f => (.error (.files f), [])
  | .ok () => (.ok path, [.wrote path])

theorem run_toDirectory {g : Generator σ} {text : String} (h : g.render.result = .ok text)
    (s : Store (StateM W)) (dir : String) (w : W) :
    g.toDirectory s dir w =
      (⟨(placed (g.pathUnder dir) (writeFile s (g.pathUnder dir) text w).1).1,
        g.render.notices ++ (placed (g.pathUnder dir) (writeFile s (g.pathUnder dir) text w).1).2,
        g.render.state⟩, (writeFile s (g.pathUnder dir) text w).2) := by
  unfold toDirectory
  rw [Run.run_andThenM_of_ok h, run_bind]
  generalize writeFile s (g.pathUnder dir) text w = written
  obtain ⟨r, w'⟩ := written
  cases r <;> rfl

/-- What a call that writes a source under a directory comes to, and what it makes of a tree. -/
structure Places (g : Generator σ) (here : Address) (dir text : String) (t : Tree)
    (run : Run GenerateFault σ String) (t' : Tree) : Prop where
  result : run.result = .ok (g.pathUnder dir) ∨ ∃ f, IsStoreFault f ∧ run.result = .error (.files f)
  state : run.state = g.render.state
  /-- Whether or not it succeeds, nothing is changed but at one address, except that directories may
  have been made around it. -/
  only : WritesOnly here (g.pathUnder dir) t t'
  kept : ∀ a e, a ≠ addressOf here (g.pathUnder dir) → t.at? a = some e → t'.at? a = some e
  /-- If it succeeds the file holds the source and nothing else, and stands in directories. -/
  holds : ∀ path, run.result = .ok path → path = g.pathUnder dir ∧
    t'.read here path = .ok (Text.utf8 text) ∧
    ∀ up, up <:+ addressOf here path → up ≠ addressOf here path → t'.at? up = some .directory

/-- A call that writes a source succeeds with its path, and only if the file could be written. -/
theorem writeFile_of_toDirectory {g : Generator σ} {text dir path : String}
    (h : g.render.result = .ok text) {s : Store (StateM W)} {w : W}
    (hpath : (g.toDirectory s dir w).1.result = .ok path) :
    path = g.pathUnder dir ∧ writeFile s (g.pathUnder dir) text w =
      (.ok (), (g.toDirectory s dir w).2) := by
  rw [run_toDirectory h] at hpath ⊢
  generalize writeFile s (g.pathUnder dir) text w = written at hpath ⊢
  obtain ⟨r, w'⟩ := written
  cases r with
  | error f => exact nomatch hpath
  | ok u => exact ⟨(Except.ok.inj hpath).symm, rfl⟩

/-- On a machine that carries a tree, a source is placed. -/
theorem places {g : Generator σ} {text : String} (h : g.render.result = .ok text)
    {s : Store (StateM W)} {here : Address} {tree : W → Tree} (hs : s.Carries here tree)
    (dir : String) (w : W) :
    Places g here dir text (tree w) (g.toDirectory s dir w).1 (tree (g.toDirectory s dir w).2) := by
  have hcareful := careful_writeFile_of_carries hs (g.pathUnder dir) text
  have hfault : ∀ f, (writeFile s (g.pathUnder dir) text w).1 = .error f → IsStoreFault f :=
    hcareful.fault w
  have hleaves : WritesOnly here (g.pathUnder dir) (tree w)
      (tree (writeFile s (g.pathUnder dir) text w).2) := hcareful.leaves w
  have hrun := run_toDirectory h s dir w
  have honly : WritesOnly here (g.pathUnder dir) (tree w) (tree (g.toDirectory s dir w).2) := by
    rw [hrun]
    dsimp only
    exact hleaves
  refine ⟨?_, ?_, honly, fun a e ha he => honly.at?_eq ha he, fun path hpath => ?_⟩
  · rw [hrun]
    cases hr : (writeFile s (g.pathUnder dir) text w).1 with
    | error f => exact .inr ⟨f, hfault f hr, rfl⟩
    | ok u => exact .inl rfl
  · rw [hrun]
  · obtain ⟨rfl, hwritten⟩ := writeFile_of_toDirectory h hpath
    have hread := read_of_writeFile hs hwritten
    refine ⟨rfl, hread, fun up hsuffix hne => ?_⟩
    have hfile := ((read_eq_ok_iff _ here _ _).mp hread).2
    exact directory_of_suffix (by rw [hfile]; rfl) hsuffix hne

/-- A source that has been written is not changed by writing it once more. -/
theorem toDirectory_again {g : Generator σ} {text : String} (h : g.render.result = .ok text)
    {here : Address} {dir path : String} {t : Tree}
    (hpath : (g.toDirectory (Tree.store here) dir t).1.result = .ok path) :
    g.toDirectory (Tree.store here) dir (g.toDirectory (Tree.store here) dir t).2 =
      g.toDirectory (Tree.store here) dir t := by
  obtain ⟨rfl, hwritten⟩ := writeFile_of_toDirectory h hpath
  generalize (g.toDirectory (Tree.store here) dir t).2 = t' at hwritten
  rw [run_toDirectory h, run_toDirectory h, writeFile_again hwritten, hwritten]

/-- Where there is no source nothing is done, and the call fails as rendering does.  Where there is
one, the call may fail with a fault of the store, at any time and on any machine; but nothing that
was in the tree is changed, except that a file may have been put at the address of the source, and
nothing is added besides directories around it.  If the call succeeds the file at its path holds the
source, whatever it held before, and all directories around it are there.  A second call then has
the same result and leaves the same tree. -/
theorem toDirectory_changes_one_file (g : Generator σ) (dir : String) :
    (∀ e, g.render.result = .error e → ∀ (m : Type → Type) [Monad m] (s : Store m),
      g.toDirectory s dir = pure ⟨.error e, g.render.notices, g.render.state⟩) ∧
    ∀ text, g.render.result = .ok text → ∀ here : Address,
      (∀ (W : Type) (s : Store (StateM W)) (tree : W → Tree), s.Carries here tree → ∀ w,
        Places g here dir text (tree w) (g.toDirectory s dir w).1
          (tree (g.toDirectory s dir w).2)) ∧
      ∀ t path, (g.toDirectory (Tree.store here) dir t).1.result = .ok path →
        g.toDirectory (Tree.store here) dir (g.toDirectory (Tree.store here) dir t).2 =
          g.toDirectory (Tree.store here) dir t := by
  refine ⟨fun e he m _ s => Run.andThenM_of_error he _, fun text htext here => ⟨?_, ?_⟩⟩
  · intro W s tree hs w
    exact places htext hs dir w
  · intro t path hpath
    exact toDirectory_again htext hpath

/-- A machine that has no room left as soon as a byte is added to a file. -/
def narrowDisk (here : Address) : Store (StateM Tree) :=
  { Tree.store here with
    append := fun path bytes t =>
      (.error (.os (.other 28 "No space left on device")),
        ((Tree.store here).append path (bytes.take 1) t).2) }

theorem carries_narrowDisk (here : Address) : (narrowDisk here).Carries here id where
  isDirectory _ _ := rfl
  create := (carries_store here).create
  append path bytes := by
    refine ⟨fun t ht => (nomatch ht), fun t e he => ?_⟩
    obtain rfl := Except.error.inj he
    refine ⟨.inr ⟨_, rfl⟩, ?_⟩
    change ((Tree.store here).append path (bytes.take 1) t).2 = t ∨
      ∃ part, part <+: bytes ∧
        t.append here path part = .ok ((Tree.store here).append path (bytes.take 1) t).2
    rcases attempt_cases path (fun t => t.append here path (bytes.take 1)) t with
      ⟨t', -, happend, heq⟩ | ⟨f, -, heq⟩
    · refine .inr ⟨_, List.take_prefix 1 bytes, ?_⟩
      rw [happend]
      exact congrArg Except.ok (congrArg Prod.snd heq).symm
    · exact .inl (congrArg Prod.snd heq)
  createDirectory := (carries_store here).createDirectory

/-- A tree with another file beside the package, and an older and longer file at the place of the
source. -/
def staleTree : Tree :=
  let t := (writeFile (Tree.store []) "out/a/other" "as it was" .empty).2
  (writeFile (Tree.store []) "out/a/b/C.java" (String.ofList (.replicate 1000 'x')) t).2

/-- The older file is replaced and the other one left alone, also if there is no room for the
source; and a description without paths. -/
theorem toDirectory_changes_one_file_of_stale_file :
    (∃ text, plainNames.render.result = .ok text ∧
      let run := plainNames.toDirectory (Tree.store []) "out" staleTree
      run.1.result = .ok "out/a/b/C.java" ∧
      run.2.read [] "out/a/b/C.java" = .ok (Text.utf8 text) ∧
      run.2.at? ["other", "a", "out"] = some (.file (Text.utf8 "as it was")) ∧
      plainNames.toDirectory (Tree.store []) "out" run.2 = run ∧
      (plainNames.toDirectory (narrowDisk []) "out" staleTree).2.at? ["other", "a", "out"] =
        some (.file (Text.utf8 "as it was"))) ∧
    (ofSpec Swagger.Spec.blank).toDirectory (Tree.store []) "out" staleTree =
      (⟨.error (.spec .noPaths), [], .fresh⟩, staleTree) := by
  obtain ⟨-, hok⟩ := toDirectory_changes_one_file plainNames "out"
  obtain ⟨herror, -⟩ := toDirectory_changes_one_file (ofSpec Swagger.Spec.blank) "out"
  have htext : ∃ text, plainNames.render.result = .ok text := ⟨_, rfl⟩
  have hother : staleTree.at? ["other", "a", "out"] = some (.file (Text.utf8 "as it was")) := by
    decide +kernel
  have hpath : (plainNames.toDirectory (Tree.store []) "out" staleTree).1.result =
      .ok "out/a/b/C.java" := by decide +kernel
  obtain ⟨text, htext⟩ := htext
  obtain ⟨hplaces, hagain⟩ := hok text htext []
  have hhere : ["other", "a", "out"] ≠ addressOf [] (plainNames.pathUnder "out") := by decide
  have hwhole := hplaces _ _ _ (carries_store []) staleTree
  have hnarrow := hplaces _ _ _ (carries_narrowDisk []) staleTree
  rw [id, id] at hwhole hnarrow
  obtain ⟨-, hread, -⟩ := hwhole.holds _ hpath
  refine ⟨⟨text, htext, hpath, hread, hwhole.kept _ _ hhere hother, ?_,
    hnarrow.kept _ _ hhere hother⟩, congrFun (herror _ rfl _ (Tree.store [])) staleTree⟩
  exact hagain staleTree "out/a/b/C.java" hpath

end SwaggerRoutes.Generator
