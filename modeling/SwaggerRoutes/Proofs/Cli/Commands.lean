/-
  Proofs/Cli/Commands.lean --- what commands do to the files of a session.

  A session carries out on its tree what a store of files asks for, and keeps what is said beside
  it.  So a command does to the files what its computation does to a tree.  All commands that make
  something of a description prepare it alike, and up to there they only read.
-/
import SwaggerRoutes.Cli.Run
import SwaggerRoutes.Proofs.Generator.Names
import SwaggerRoutes.Proofs.Generator.Placement

set_option autoImplicit false

namespace SwaggerRoutes.Cli

open Files Route Swagger

/-! ## Computations on the tree of a session -/

namespace Session

variable {α β : Type}

theorem onTree_bind (x : StateM Tree α) (f : α → StateM Tree β) :
    onTree (x >>= f) = onTree x >>= fun a => onTree (f a) := rfl

theorem run_onTree (x : StateM Tree α) (s : Session) :
    onTree x s = ((x s.tree).1, { s with tree := (x s.tree).2 }) := rfl

/-- A tree as a store, worked on inside a session. -/
def store (here : Address) : Store (StateM Session) :=
  (Tree.store here).inMonad onTree

theorem createDirectories_store (here : Address) (ps : List String) :
    (store here).createDirectories ps = onTree ((Tree.store here).createDirectories ps) := by
  induction ps with
  | nil => rfl
  | cons p outer ih =>
      -- a directory that cannot be made may be there, which is asked before giving up
      have hthere (e : Fault) : (do
          if ← (store here).isDirectory p then return .ok () else return .error e :
            StateM Session (Except Fault Unit)) = onTree (do
          if ← (Tree.store here).isDirectory p then return .ok () else return .error e) := by
        rw [onTree_bind]
        refine bind_congr fun there => ?_
        split <;> rfl
      unfold Store.createDirectories
      rw [onTree_bind]
      refine bind_congr fun made => ?_
      split
      · rfl
      · rw [ih, onTree_bind]
        refine bind_congr fun around => ?_
        split
        · rfl
        · rw [onTree_bind]
          refine bind_congr fun again => ?_
          split
          · rfl
          · exact hthere _
      · exact hthere _

theorem writeFile_store (here : Address) (path text : String) :
    Generator.writeFile (store here) path text =
      onTree (Generator.writeFile (Tree.store here) path text) := by
  unfold Generator.writeFile
  rw [createDirectories_store, onTree_bind]
  refine bind_congr fun around => ?_
  split
  · rfl
  · rw [onTree_bind]
    refine bind_congr fun made => ?_
    split <;> rfl

theorem toDirectory_store {σ : Type} (g : Generator σ) (here : Address) (dir : String) :
    g.toDirectory (store here) dir = onTree (g.toDirectory (Tree.store here) dir) := by
  unfold Generator.toDirectory Run.andThenM
  split
  · rfl
  · rw [onTree_bind]
    refine congrArg (· >>= _) ?_
    dsimp only
    rw [writeFile_store, onTree_bind]
    refine bind_congr fun written => ?_
    split <;> rfl

/-! ## The output of a session -/

/-- The output takes all that it is offered, and keeps it behind what it has. -/
theorem writeAll_output (here : Address) (bytes : List UInt8) (s : Session) :
    (host here).output.writeAll bytes s = (.ok (), { s with output := s.output ++ bytes }) := by
  cases bytes with
  | nil =>
      rw [Sink.writeAll, List.append_nil]
      rfl
  | cons b bs =>
      rw [Sink.writeAll, run_bind]
      simp only [host, Fin.val_last, List.length_cons, Nat.add_one_ne_zero, if_false,
        Nat.add_sub_cancel, List.drop_length]
      rw [Sink.writeAll]
      rfl

theorem deliver_output (here : Address) (text : String) (s : Session) :
    (host here).output.deliver text s =
      (.ok (), { s with output := s.output ++ Text.utf8 text }) := by
  unfold Sink.deliver
  rw [run_bind, writeAll_output]
  rfl

end Session

/-! ## Preparing -/

theorem ok_of_mapError {ε δ α : Type} {f : ε → δ} {x : Except ε α} {a : α}
    (h : x.mapError f = .ok a) : x = .ok a := by
  cases x with
  | error e => exact nomatch h
  | ok b => exact congrArg Except.ok (Except.ok.inj h)

variable (here : Address) (t : Tree)

theorem state_readText (path : String) (s : Session) :
    ((Session.host here).store.readText path s).2 = s := by
  unfold Store.readText
  refine (state_bind (fun bytes u => ?_) s).trans rfl
  cases bytes with
  | error f => rfl
  | ok b =>
      dsimp only
      cases Text.ofUtf8? b <;> rfl

theorem state_loadConfig (s : Session) : (loadConfig (Session.host here) s).2 = s := by
  have hload : (Config.load (Session.host here).store Config.fileName s).2 = s := by
    unfold Config.load
    refine (state_bind (fun there u => ?_) s).trans rfl
    cases there with
    | false => rfl
    | true =>
        refine (state_bind (fun text v => ?_) u).trans (state_readText here _ u)
        cases text <;> rfl
  unfold loadConfig
  refine (state_bind (fun c u => ?_) s).trans hload
  cases c <;> rfl

theorem state_loadSpec (path : String) (s : Session) :
    (loadSpec (Session.host here) path s).2 = s := by
  unfold loadSpec
  refine (state_bind (fun text u => ?_) s).trans (state_readText here path s)
  cases text <;> rfl

/-- Preparing only reads. -/
theorem state_prepare (input : Option String) (s : Session) :
    (prepare (Session.host here) input s).2 = s := by
  unfold prepare
  have hconfig := state_loadConfig here s
  rw [run_bind]
  cases (loadConfig (Session.host here) s).1 with
  | error f => exact hconfig
  | ok c =>
      dsimp only
      rw [hconfig]
      refine (state_bind (fun spec u => ?_) s).trans (state_loadSpec here _ s)
      cases spec <;> rfl

/-- What is prepared for an input in a tree: the configuration of the project, and the generator. -/
def prepared (input : Option String) : Except Failure (Config × Generator Namer) :=
  (prepare (Session.host here) input (.start t)).1

theorem prepare_eq (input : Option String) :
    prepare (Session.host here) input (.start t) = (prepared here t input, .start t) :=
  Prod.ext rfl (state_prepare here input (.start t))

/-- The generator with the package that a project asks for, if it asks for one. -/
def choosePackage (c : Config) (g : Generator Namer) : Except Failure (Generator Namer) :=
  match c.packageName with
  | none => .ok g
  | some n => (g.withPackageName n).mapError fun f => .ofGenerate (.names f)

/-- The generator with the class name that a project asks for, if it asks for one. -/
def chooseClass (c : Config) (g : Generator Namer) : Except Failure (Generator Namer) :=
  match c.className with
  | none => .ok g
  | some n => (g.withClassName n).mapError fun f => .ofGenerate (.names f)

/-- The generator with the destinations that a project asks for. -/
def chooseDestinations (c : Config) (g : Generator Namer) : Except Failure (Generator Namer) :=
  match c.strategy with
  | .direct => .ok g
  | .fixed => (fixedUri c).map fun uri => g.withStrategy (.fixed uri) g.state

theorem generatorFor_eq (c : Config) (spec : Spec) :
    generatorFor c spec =
      (choosePackage c ((Generator.ofSpec spec).withIndent c.indent) >>= chooseClass c) >>=
        chooseDestinations c := by
  unfold generatorFor choosePackage chooseClass chooseDestinations
  cases c.packageName with
  | none => cases c.className <;> cases c.strategy <;> cases fixedUri c <;> rfl
  | some p =>
      dsimp only
      cases ((Generator.ofSpec spec).withIndent c.indent).withPackageName p <;>
        cases c.className <;> cases c.strategy <;> cases fixedUri c <;> rfl

variable {c : Config} {spec : Spec} {g g' : Generator Namer}

theorem configured_of_choosePackage (hg : Generator.Configured spec Namer g)
    (h : choosePackage c g = .ok g') : Generator.Configured spec Namer g' := by
  unfold choosePackage at h
  split at h
  · rwa [← Except.ok.inj h]
  · exact .withPackageName hg (ok_of_mapError h)

theorem configured_of_chooseClass (hg : Generator.Configured spec Namer g)
    (h : chooseClass c g = .ok g') : Generator.Configured spec Namer g' := by
  unfold chooseClass at h
  split at h
  · rwa [← Except.ok.inj h]
  · exact .withClassName hg (ok_of_mapError h)

theorem configured_of_chooseDestinations (hg : Generator.Configured spec Namer g)
    (h : chooseDestinations c g = .ok g') : Generator.Configured spec Namer g' := by
  unfold chooseDestinations at h
  split at h
  · rwa [← Except.ok.inj h]
  · cases huri : fixedUri c with
    | error f =>
        rw [huri] at h
        exact nomatch h
    | ok uri =>
        rw [huri] at h
        rw [← Except.ok.inj h]
        exact .withStrategy (.fixed uri) g.state hg

theorem configured_of_generatorFor (h : generatorFor c spec = .ok g) :
    Generator.Configured spec Namer g := by
  rw [generatorFor_eq] at h
  obtain ⟨named, h, hdestinations⟩ := ok_of_bind h
  obtain ⟨packaged, hpackage, hclass⟩ := ok_of_bind h
  have hpackaged := configured_of_choosePackage (.withIndent c.indent .ofSpec) hpackage
  exact configured_of_chooseDestinations (configured_of_chooseClass hpackaged hclass) hdestinations

/-- What is prepared comes from the configuration of the project, and has valid names. -/
theorem configured_of_prepared {here : Address} {t : Tree} {input : Option String}
    (h : prepared here t input = .ok (c, g)) :
    (loadConfig (Session.host here) (.start t)).1 = .ok c ∧
      ∃ spec, Generator.Configured spec Namer g := by
  unfold prepared prepare at h
  rw [run_bind] at h
  cases hconfig : (loadConfig (Session.host here) (.start t)).1 with
  | error f =>
      rw [hconfig] at h
      exact nomatch h
  | ok c' =>
      rw [hconfig] at h
      dsimp only at h
      rw [run_bind] at h
      generalize (loadSpec (Session.host here) (input.getD c'.input) _).1 = loaded at h
      cases loaded with
      | error f => exact nomatch h
      | ok spec =>
          have hpair : (generatorFor c' spec).map (c', ·) = .ok (c, g) := h
          cases hg : generatorFor c' spec with
          | error f =>
              rw [hg] at hpair
              exact nomatch hpair
          | ok g' =>
              rw [hg] at hpair
              obtain ⟨rfl, rfl⟩ := Prod.mk.inj (Except.ok.inj hpair)
              exact ⟨rfl, spec, configured_of_generatorFor hg⟩

/-! ## Carrying out -/

variable {input : Option String} {here : Address} {t : Tree}

/-- Where nothing can be prepared, a command only says so. -/
theorem perform_of_unprepared {f : Failure} (h : prepared here t input = .error f)
    (output : Option String) (toOutput : Bool) (format : DumpFormat) :
    perform (Session.host here) (.generate input output toOutput) (.start t) =
      (.error (.failed f), .start t) ∧
    perform (Session.host here) (.inspect input format) (.start t) =
      (.error (.failed f), .start t) := by
  constructor <;> rw [perform, run_bind, prepare_eq, h] <;> rfl

theorem perform_toOutput (h : prepared here t input = .ok (c, g)) (output : Option String) :
    perform (Session.host here) (.generate input output true) (.start t) =
      match g.render.result with
      | .error e =>
        (.error (.failed ((Failure.ofGenerate e).within "failed to write generated source")),
          .start t)
      | .ok text => (.ok (), { Session.start t with output := Text.utf8 text }) := by
  rw [perform, run_bind, prepare_eq, h]
  dsimp only
  rw [if_pos rfl, run_bind, generateToOutput, run_bind, Generator.toSink, Run.andThenM]
  cases g.render.result with
  | error e => rfl
  | ok text =>
      dsimp only
      rw [run_bind, run_bind, Session.deliver_output]
      rfl

theorem perform_inspect (h : prepared here t input = .ok (c, g)) (format : DumpFormat) :
    perform (Session.host here) (.inspect input format) (.start t) =
      match g.define.result with
      | .error e => (.error (.failed (.ofGenerate e)), .start t)
      | .ok d => (.ok (), { Session.start t with output := Text.utf8 (dump format d) }) := by
  rw [perform, run_bind, prepare_eq, h]
  dsimp only
  rw [inspect]
  cases g.define.result with
  | error e => rfl
  | ok d =>
      dsimp only
      rw [run_bind, Session.deliver_output]
      rfl

/-- What the user is told before a source is written under a directory. -/
def announcement (g : Generator Namer) (dir : String) : String :=
  "Generating " ++ g.qualifiedName ++ " → " ++ dir ++ "\n"

/-- How writing under a directory fails. -/
def failureUnder (dir : String) (e : GenerateFault) : Failure :=
  (Failure.ofGenerate e).within ("failed to generate into " ++ dir)

theorem perform_toFile (h : prepared here t input = .ok (c, g)) (output : Option String) :
    perform (Session.host here) (.generate input output false) (.start t) =
      let dir := output.getD c.output
      match g.render.result with
      | .error e => (.error (.failed (failureUnder dir e)), ⟨t, [], announcement g dir⟩)
      | .ok text =>
        let written := Generator.writeFile (Tree.store here) (g.pathUnder dir) text t
        match written.1 with
        | .error e =>
          (.error (.failed (failureUnder dir (.files e))), ⟨written.2, [], announcement g dir⟩)
        | .ok () =>
          (.ok (), ⟨written.2, [],
            announcement g dir ++ ("  wrote " ++ g.pathUnder dir ++ "\n")⟩) := by
  have hstore : (Session.host here).store = Session.store here := rfl
  have htell : (Session.host here).tell (announcement g (output.getD c.output)) (.start t) =
      ((), ⟨t, [], announcement g (output.getD c.output)⟩) := by
    rw [← String.empty_append (s := announcement g (output.getD c.output))]
    rfl
  rw [perform, run_bind, prepare_eq, h]
  dsimp only
  rw [if_neg Bool.false_ne_true, run_bind, generateUnder, run_bind, ← announcement, htell, run_bind,
    hstore, Session.toDirectory_store, Session.run_onTree, Generator.toDirectory, Run.andThenM]
  cases g.render.result with
  | error e => rfl
  | ok text =>
      dsimp only
      rw [run_bind, run_bind]
      generalize Generator.writeFile (Tree.store here) (g.pathUnder (output.getD c.output)) text t
        = written
      obtain ⟨r, t'⟩ := written
      cases r <;> rfl

end SwaggerRoutes.Cli
