/-
  Proofs/Cli/Outcomes.lean --- how command lines for one description end.

  The same source is written to the output or to a file, and everything that can stand in its way
  is looked at before the first file is touched, save what the files themselves do.  So a run that
  prints and a run that writes differ in one file and the directories around it, and in their
  success only where that file cannot be made.
-/
import SwaggerRoutes.Proofs.Cli.Commands

set_option autoImplicit false

namespace SwaggerRoutes.Cli

open Files Naming Route Source Swagger Tree

/-! ## Whole runs -/

/-- How a command line ends on a tree: its exit code, and the session that it leaves. -/
def outcome (here : Address) (t : Tree) (arguments : List String) : UInt32 × Session :=
  run (Session.host here) arguments (.start t)

theorem outcome_of_command {arguments : List String} {c : Command}
    (h : Command.ofArguments? arguments = some c) (here : Address) (t : Tree) :
    outcome here t arguments =
      match perform (Session.host here) c (.start t) with
      | (.error stop, s) => (stop.exitCode, { s with told := s.told ++ stop.render })
      | (.ok (), s) => (success, s) := by
  unfold outcome run
  rw [h]
  dsimp only
  rw [run_bind]
  generalize perform (Session.host here) c (.start t) = performed
  obtain ⟨r, s⟩ := performed
  cases r <;> rfl

theorem failure_ne_success : failure ≠ success := by decide

theorem Stop.exitCode_ne_success (s : Stop) : s.exitCode ≠ success := by
  cases s with
  | failed f => exact failure_ne_success
  | broken f => exact (by decide : breakdown ≠ success)

/-- A command line succeeds exactly if it is understood and its command does what it is asked for,
wherever it runs. -/
theorem run_eq_success_iff {W : Type} (h : Host (StateM W)) (arguments : List String) (w : W) :
    (run h arguments w).1 = success ↔
      ∃ c, Command.ofArguments? arguments = some c ∧ (perform h c w).1 = .ok () := by
  unfold run
  cases Command.ofArguments? arguments with
  | none => exact iff_of_false (show misuse ≠ success by decide) (by simp)
  | some c =>
      dsimp only
      rw [run_bind]
      cases hperform : (perform h c w).1 with
      | error s =>
          refine iff_of_false s.exitCode_ne_success ?_
          rintro ⟨c', hc, hok⟩
          obtain rfl := Option.some.inj hc
          exact absurd (hperform.symm.trans hok) (by simp)
      | ok u => exact iff_of_true rfl ⟨c, rfl, hperform⟩

/-- A definition counts as printed only if the output has taken all of it. -/
theorem delivered_of_run_inspect {W : Type} {h : Host (StateM W)} {arguments : List String}
    {input : Option String} {format : DumpFormat} {w : W}
    (hcommand : Command.ofArguments? arguments = some (.inspect input format))
    (hrun : (run h arguments w).1 = success) :
    ∃ (g : Generator Namer) (d : Definition) (w' : W),
      g.define.result = .ok d ∧ (h.output.deliver (dump format d) w').1 = .ok () := by
  obtain ⟨c, hc, hperform⟩ := (run_eq_success_iff h arguments w).mp hrun
  obtain rfl := Option.some.inj (hcommand.symm.trans hc)
  rw [perform, run_bind] at hperform
  generalize prepare h input w = prepared at hperform
  obtain ⟨r, w'⟩ := prepared
  cases r with
  | error f =>
      have hfailed : (.error (.failed f) : Except Stop Unit) = .ok () := hperform
      exact absurd hfailed (by simp)
  | ok made =>
      obtain ⟨c, g⟩ := made
      dsimp only at hperform
      rw [inspect] at hperform
      cases hdefine : g.define.result with
      | error f =>
          rw [hdefine] at hperform
          have hfailed : (.error (.failed (.ofGenerate f)) : Except Stop Unit) = .ok () := hperform
          exact absurd hfailed (by simp)
      | ok d =>
          rw [hdefine] at hperform
          dsimp only at hperform
          rw [run_bind] at hperform
          exact ⟨g, d, w', hdefine, ok_of_mapError hperform⟩

/-! ## The target -/

/-- A path is that of a class under a directory: it goes down by the parts of a package and the name
of the class, plain identifiers all of them, which the source declares. -/
def IsTarget (dir path : String) (source : List UInt8) : Prop :=
  ∃ (package : List String) (name text : String),
    (∀ s ∈ package, isIdentifier s = true) ∧ isIdentifier name = true ∧
    GoesDown dir path (package ++ [name ++ ".java"]) ∧
    source = Text.utf8 text ∧ Declares text package name

theorem isTarget_of_render {g : Generator Namer} {text : String}
    (h : g.render.result = .ok text) (dir : String) :
    IsTarget dir (g.pathUnder dir) (Text.utf8 text) := by
  obtain ⟨hp, hc, hdeclares⟩ := Generator.declares_of_render h
  have hdown := goesDown_sourcePath dir (Generator.isQualifiedName_qualifiedName hp hc)
  rw [Generator.qualifiedName, sourceNames_qualify _ hc] at hdown
  exact ⟨_, _, text, isIdentifier_of_mem_segments hp, hc, hdown, rfl, hdeclares⟩

/-- With valid names there is a source exactly where there is a definition. -/
theorem exists_render_iff_exists_define {spec : Spec} {g : Generator Namer}
    (h : Generator.Configured spec Namer g) :
    (∃ text, g.render.result = .ok text) ↔ ∃ d, g.define.result = .ok d := by
  obtain ⟨-, hp, hc⟩ := h.valid
  constructor
  · rintro ⟨text, htext⟩
    obtain ⟨rules, l, hrules, -, -⟩ := (Generator.render_eq_ok_iff g text).mp htext
    exact ⟨_, (Generator.define_eq_ok_iff g _).mpr ⟨rules, hrules, rfl⟩⟩
  · rintro ⟨d, hd⟩
    obtain ⟨rules, hrules, -⟩ := (Generator.define_eq_ok_iff g d).mp hd
    have hlayout := (Generator.layout_eq_ok_iff g _).mpr ⟨hp, hc, rfl⟩
    exact ⟨_, (Generator.render_eq_ok_iff g _).mpr ⟨rules, _, hrules, hlayout, rfl⟩⟩

/-! ## Runs side by side -/

/-- What a run that writes comes to where the one that prints succeeds. -/
inductive Written (here : Address) (t : Tree) (path dir : String) (printed : List UInt8) :
    UInt32 × Session → Prop
  /-- The file holds what is printed. -/
  | whole (s : Session) : s.tree.at? (addressOf here path) = some (.file printed) →
      Written here t path dir printed (success, s)
  /-- The file or a directory around it cannot be made, and the user is told why. -/
  | refused (s : Session) (e : Fault) (front : String) : IsStoreFault e →
      ((Tree.store here).make path t).1 = .error e →
      s.told = front ++ (failureUnder dir (.files e)).render →
      Written here t path dir printed (failure, s)

section

variable {here : Address} {t : Tree} {input : Option String} {c : Config} {g : Generator Namer}
  {text : String}

theorem outcome_printing (hprepared : prepared here t input = .ok (c, g))
    (hrender : g.render.result = .ok text) {output : Option String} {arguments : List String}
    (h : Command.ofArguments? arguments = some (.generate input output true)) :
    outcome here t arguments = (success, { Session.start t with output := Text.utf8 text }) := by
  rw [outcome_of_command h, perform_toOutput hprepared, hrender]

theorem outcome_writing (hprepared : prepared here t input = .ok (c, g))
    (hrender : g.render.result = .ok text) {output : Option String} {arguments : List String}
    (h : Command.ofArguments? arguments = some (.generate input output false)) :
    WritesOnly here (g.pathUnder (output.getD c.output)) t (outcome here t arguments).2.tree ∧
      Written here t (g.pathUnder (output.getD c.output)) (output.getD c.output) (Text.utf8 text)
        (outcome here t arguments) := by
  rw [outcome_of_command h, perform_toFile hprepared, hrender]
  dsimp only
  have hcases := writeFile_cases here (g.pathUnder (output.getD c.output)) text t
  have hleaves := (careful_writeFile here (g.pathUnder (output.getD c.output)) text).leaves t
  generalize Generator.writeFile (store here) (g.pathUnder (output.getD c.output)) text t = w
    at hcases hleaves ⊢
  obtain ⟨r, t'⟩ := w
  rcases hcases with ⟨e, he, hmake, heq⟩ | ⟨t'', heq, hfile⟩
  · obtain ⟨rfl, -⟩ := Prod.mk.inj heq
    exact ⟨hleaves, .refused _ e _ he hmake rfl⟩
  · obtain ⟨rfl, rfl⟩ := Prod.mk.inj heq
    exact ⟨hleaves, .whole _ hfile⟩

/-- A run that has no source to show leaves its tree alone. -/
theorem outcome_without_source {output : Option String} {toOutput : Bool}
    {arguments : List String}
    (hnone : ∀ c g, prepared here t input = .ok (c, g) → ∃ e, g.render.result = .error e)
    (h : Command.ofArguments? arguments = some (.generate input output toOutput)) :
    (outcome here t arguments).1 = failure ∧ (outcome here t arguments).2.tree = t := by
  rw [outcome_of_command h]
  cases hprepared : prepared here t input with
  | error f =>
      rw [(perform_of_unprepared hprepared output toOutput .json).1]
      exact ⟨rfl, rfl⟩
  | ok made =>
      obtain ⟨c, g⟩ := made
      obtain ⟨e, he⟩ := hnone c g hprepared
      cases toOutput with
      | true =>
          rw [perform_toOutput hprepared, he]
          exact ⟨rfl, rfl⟩
      | false =>
          rw [perform_toFile hprepared, he]
          exact ⟨rfl, rfl⟩

/-- A definition is printed exactly where there is a source, and no file is touched for it. -/
theorem outcome_dumping {format : DumpFormat} {arguments : List String}
    (h : Command.ofArguments? arguments = some (.inspect input format)) :
    (outcome here t arguments).2.tree = t ∧
      ((outcome here t arguments).1 = success ↔
        ∃ c g text, prepared here t input = .ok (c, g) ∧ g.render.result = .ok text) := by
  rw [outcome_of_command h]
  cases hprepared : prepared here t input with
  | error f =>
      rw [(perform_of_unprepared hprepared none true format).2]
      refine ⟨rfl, fun h => absurd h failure_ne_success, ?_⟩
      rintro ⟨c, g, text, h, -⟩
      exact nomatch h
  | ok made =>
      obtain ⟨c, g⟩ := made
      obtain ⟨-, spec, hg⟩ := configured_of_prepared hprepared
      have hdefines := exists_render_iff_exists_define hg
      rw [perform_inspect hprepared]
      cases hdefine : g.define.result with
      | error e =>
          refine ⟨rfl, fun h => absurd h failure_ne_success, ?_⟩
          rintro ⟨c', g', text, h, htext⟩
          obtain ⟨rfl, rfl⟩ := Prod.mk.inj (Except.ok.inj h)
          obtain ⟨d, hd⟩ := hdefines.mp ⟨text, htext⟩
          exact absurd (hdefine.symm.trans hd) (by simp)
      | ok d =>
          obtain ⟨text, htext⟩ := hdefines.mpr ⟨d, hdefine⟩
          exact ⟨rfl, fun _ => ⟨c, g, text, rfl, htext⟩, fun _ => rfl⟩

end

/-- Three runs on one tree for one description: one that prints the source, one that writes it and
one that prints the definition.  Those that print touch no file, and succeed or fail together; where
they fail, so does the one that writes, and it touches no file either.  Where they succeed, the one
that writes changes no more than writing its target takes, the file of the class that the source
declares; if it succeeds, that file holds byte for byte what is printed, and otherwise that file or
a directory around it could not be made. -/
theorem output_and_file_agree (here : Address) (t : Tree) {input output : Option String}
    {format : DumpFormat} {printing writing dumping : List String}
    (hprinting : Command.ofArguments? printing = some (.generate input output true))
    (hwriting : Command.ofArguments? writing = some (.generate input output false))
    (hdumping : Command.ofArguments? dumping = some (.inspect input format)) :
    let printed := outcome here t printing
    let written := outcome here t writing
    let dumped := outcome here t dumping
    (printed.2.tree = t ∧ dumped.2.tree = t ∧ (dumped.1 = success ↔ printed.1 = success)) ∧
    (printed.1 ≠ success → written.1 ≠ success ∧ written.2.tree = t) ∧
    (printed.1 = success → ∃ c path,
      (loadConfig (Session.host here) (.start t)).1 = .ok c ∧
      IsTarget (output.getD c.output) path printed.2.output ∧
      WritesOnly here path t written.2.tree ∧
      Written here t path (output.getD c.output) printed.2.output written) := by
  intro printed written dumped
  obtain ⟨hkept, hsource⟩ := @outcome_dumping here t _ _ _ hdumping
  by_cases hmade : ∃ c g text, prepared here t input = .ok (c, g) ∧ g.render.result = .ok text
  · obtain ⟨c, g, text, hprepared, hrender⟩ := hmade
    have hprinted : printed = _ := outcome_printing hprepared hrender hprinting
    have hdumped : dumped.1 = success := hsource.mpr ⟨c, g, text, hprepared, hrender⟩
    rw [hprinted]
    refine ⟨⟨rfl, hkept, iff_of_true hdumped rfl⟩, fun h => absurd rfl h, fun _ => ?_⟩
    exact ⟨c, _, (configured_of_prepared hprepared).1, isTarget_of_render hrender _,
      outcome_writing hprepared hrender hwriting⟩
  · have hnone : ∀ c g, prepared here t input = .ok (c, g) → ∃ e, g.render.result = .error e := by
      intro c g hprepared
      cases hrender : g.render.result with
      | error e => exact ⟨e, rfl⟩
      | ok text => exact absurd ⟨c, g, text, hprepared, hrender⟩ hmade
    obtain ⟨hprinted, htree⟩ := outcome_without_source hnone hprinting
    obtain ⟨hwritten, hunwritten⟩ := outcome_without_source hnone hwriting
    have hfailed : printed.1 ≠ success := hprinted ▸ failure_ne_success
    refine ⟨⟨htree, hkept, iff_of_false (fun h => hmade (hsource.mp h)) hfailed⟩, fun _ => ?_,
      fun h => absurd h hfailed⟩
    exact ⟨hwritten ▸ failure_ne_success, hunwritten⟩

/-- A tree with a description and no configuration. -/
def described : Tree :=
  Tree.empty.put "a.json" [] (.file (Text.utf8 "\x7b\"paths\": \x7b\x7d\x7d")) rfl
    (.inr (by decide))

theorem outcome_writing_described :
    (outcome [] described ["generate", "-i", "a.json", "-o", "out"]).1 = success := by
  decide +kernel

theorem outcome_printing_missing :
    (outcome [] described ["generate", "-i", "b.json", "--stdout"]).1 ≠ success := by
  decide +kernel

/-- A description that is there, and one that is not. -/
theorem output_and_file_agree_of_described :
    ((outcome [] described ["generate", "-i", "a.json", "-o", "out", "--stdout"]).1 = success ∧
      ∃ path, IsTarget "out" path
          (outcome [] described ["generate", "-i", "a.json", "-o", "out", "--stdout"]).2.output ∧
        WritesOnly [] path described
          (outcome [] described ["generate", "-i", "a.json", "-o", "out"]).2.tree) ∧
    ((outcome [] described ["generate", "-i", "b.json"]).1 ≠ success ∧
      (outcome [] described ["generate", "-i", "b.json"]).2.tree = described) := by
  have hprinting : Command.ofArguments? ["generate", "-i", "a.json", "-o", "out", "--stdout"] =
      some (.generate "a.json" "out" true) := by decide
  have hwriting : Command.ofArguments? ["generate", "-i", "a.json", "-o", "out"] =
      some (.generate "a.json" "out" false) := by decide
  have hdumping : Command.ofArguments? ["inspect", "--input=a.json", "--format", "json"] =
      some (.inspect "a.json" .json) := by decide
  have hmissing : Command.ofArguments? ["generate", "-i", "b.json", "--stdout"] =
      some (.generate "b.json" none true) := by decide
  have hmissed : Command.ofArguments? ["generate", "-i", "b.json"] =
      some (.generate "b.json" none false) := by decide
  have hdumpingMissed : Command.ofArguments? ["inspect", "-i", "b.json"] =
      some (.inspect "b.json" .yaml) := by decide
  have hdescribed := output_and_file_agree [] described hprinting hwriting hdumping
  have hundescribed := output_and_file_agree [] described hmissing hmissed hdumpingMissed
  have hwritten := outcome_writing_described
  have hunprinted := outcome_printing_missing
  -- The runs are named before anything is taken apart: they are never to be evaluated here.
  generalize outcome [] described ["generate", "-i", "a.json", "-o", "out", "--stdout"] = printed
    at hdescribed ⊢
  generalize outcome [] described ["generate", "-i", "a.json", "-o", "out"] = written
    at hdescribed hwritten ⊢
  generalize outcome [] described ["generate", "-i", "b.json", "--stdout"] = unprinted
    at hundescribed hunprinted
  generalize outcome [] described ["generate", "-i", "b.json"] = unwritten at hundescribed ⊢
  obtain ⟨-, hfails, hsucceeds⟩ := hdescribed
  have hprinted : printed.1 = success :=
    Classical.not_not.mp fun h => (hfails h).1 hwritten
  obtain ⟨c, path, -, htarget, hwrites, -⟩ := hsucceeds hprinted
  exact ⟨⟨hprinted, path, htarget, hwrites⟩, hundescribed.2.1 hunprinted⟩

end SwaggerRoutes.Cli
