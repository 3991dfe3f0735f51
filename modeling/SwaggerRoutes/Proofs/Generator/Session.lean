/-
  Proofs/Generator/Session.lean --- calls on one generator, one after another.

  Every call begins with a derivation and goes on with nothing but its result: `deliver` makes an
  output of a result, and has neither a strategy nor a state of one.  So a session of calls, of any
  kinds and with any effects, works from the results of as many derivations in a row.
-/
import SwaggerRoutes.Generator
import SwaggerRoutes.Proofs.Route.Translation

set_option autoImplicit false

namespace SwaggerRoutes.Generator

open Files Route Source Swagger

variable {σ : Type} {m : Type → Type}

/-! ## Calls -/

/-- A call for an output. -/
inductive Output (m : Type → Type) where
  /-- The definition, without any effect. -/
  | definition
  /-- The source, without any effect. -/
  | source
  /-- The source into a sink. -/
  | sink (s : Sink m)
  /-- The source into a file under a directory. -/
  | directory (s : Store m) (dir : String)
  /-- The source into the sink that a filer gives. -/
  | filer (f : Filer m)

/-- What a call gives back. -/
inductive Answer where
  | definition (result : Except GenerateFault Definition)
  | source (result : Except GenerateFault String)
  | sink (result : Except GenerateFault Unit)
  | directory (result : Except GenerateFault String)
  | filer (result : Except GenerateFault Unit)

variable [Monad m]

/-- A call, with its answer, the notices it gives, and the generator that goes on after it. -/
def perform (g : Generator σ) : Output m → m (Answer × List Notice × Generator σ)
  | .definition =>
    let run := g.define
    pure (.definition run.result, run.notices, g.withState run.state)
  | .source =>
    let run := g.render
    pure (.source run.result, run.notices, g.withState run.state)
  | .sink s => do
    let run ← g.toSink s
    return (.sink run.result, run.notices, g.withState run.state)
  | .directory s dir => do
    let run ← g.toDirectory s dir
    return (.directory run.result, run.notices, g.withState run.state)
  | .filer f => do
    let run ← g.toFiler f
    return (.filer run.result, run.notices, g.withState run.state)

/-- Calls one after another, with their answers and notices, and the generator that is left. -/
def session (g : Generator σ) : List (Output m) → m (List (Answer × List Notice) × Generator σ)
  | [] => pure ([], g)
  | o :: os => do
    let (answer, notices, g) ← g.perform o
    let (answers, g) ← session g os
    return ((answer, notices) :: answers, g)

/-! ## Results -/

/-- The generator with no strategy to speak of. -/
def plain (g : Generator σ) : Generator Unit :=
  g.withStrategy (.fixed "") ()

/-- The source that the result of a derivation leads to. -/
def sourceOf (c : Generator Unit) :
    Except SpecFault (List Rule) → Except GenerateFault String × List Notice
  | .error f => (.error (.spec f), [])
  | .ok rules => c.source rules

/-- What is done with the source, if there is one. -/
def withSource {α : Type} (c : Generator Unit) (result : Except SpecFault (List Rule))
    (stage : String → m (Except GenerateFault α × List Notice)) :
    m (Except GenerateFault α × List Notice) :=
  match sourceOf c result with
  | (.error f, notices) => pure (.error f, notices)
  | (.ok text, notices) => do
    let (result, more) ← stage text
    return (result, notices ++ more)

/-- The output that the result of a derivation leads to. -/
def deliver (c : Generator Unit) (result : Except SpecFault (List Rule)) :
    Output m → m (Answer × List Notice)
  | .definition =>
    pure (.definition ((result.map (.ofRules c.spec.basePath)).mapError .spec), [])
  | .source => pure (.source (sourceOf c result).1, (sourceOf c result).2)
  | .sink s => do
    let (result, notices) ← withSource c result fun text => do
      return ((← s.deliver text).mapError .files, [])
    return (.sink result, notices)
  | .directory s dir => do
    let (result, notices) ← withSource c result fun text => do
      match ← writeFile s (c.pathUnder dir) text with
      | .error f => return (.error (.files f), [])
      | .ok () => return (.ok (c.pathUnder dir), [.wrote (c.pathUnder dir)])
    return (.directory result, notices)
  | .filer f => do
    let (result, notices) ← withSource c result fun text => do
      let (opened, notices) ← f.openSource c.qualifiedName
      match opened with
      | .error e => return (.error (.files e), notices)
      | .ok s =>
        match ← s.deliver text with
        | .error e => return (.error (.files e), notices)
        | .ok () => return (.ok (), notices ++ [.generated c.qualifiedName])
    return (.filer result, notices)

/-- The outputs that results lead to, each with the notices of its derivation in front. -/
def deliverAll (c : Generator Unit) :
    List (Except SpecFault (List Rule) × List Notice) → List (Output m) →
      m (List (Answer × List Notice))
  | (result, notices) :: rs, o :: os => do
    let (answer, more) ← deliver c result o
    let answers ← deliverAll c rs os
    return ((answer, notices ++ more) :: answers)
  | _, _ => pure []

/-! ## Derivations in a row -/

/-- The state in which a number of derivations leave the strategy. -/
def stateAfter (spec : Spec) (d : Strategy σ) (s : σ) : Nat → σ
  | 0 => s
  | k + 1 => (Route.derive spec d (stateAfter spec d s k)).state

/-- A derivation after a number of derivations. -/
def translation (spec : Spec) (d : Strategy σ) (s : σ) (k : Nat) :
    Run SpecFault σ (List Rule) :=
  Route.derive spec d (stateAfter spec d s k)

/-- The results and notices of a number of derivations. -/
def translations (spec : Spec) (d : Strategy σ) (s : σ) (n : Nat) :
    List (Except SpecFault (List Rule) × List Notice) :=
  (List.range n).map fun k =>
    ((translation spec d s k).result, (translation spec d s k).notices)

theorem stateAfter_succ (spec : Spec) (d : Strategy σ) (s : σ) (k : Nat) :
    stateAfter spec d s (k + 1) = stateAfter spec d (Route.derive spec d s).state k := by
  induction k with
  | zero => rfl
  | succ k ih => rw [stateAfter, ih, stateAfter]

theorem translations_succ (spec : Spec) (d : Strategy σ) (s : σ) (n : Nat) :
    translations spec d s (n + 1) =
      ((Route.derive spec d s).result, (Route.derive spec d s).notices) ::
        translations spec d (Route.derive spec d s).state n := by
  rw [translations, List.range_succ_eq_map, List.map_cons, List.map_map]
  refine congrArg (_ :: ·) (List.map_congr_left fun k _ => ?_)
  simp only [Function.comp, translation, stateAfter_succ]

/-! ## One call -/

theorem render_eq (g : Generator σ) :
    g.render =
      ⟨(sourceOf g.plain (Route.derive g.spec g.strategy g.state).result).1,
        (Route.derive g.spec g.strategy g.state).notices ++
          (sourceOf g.plain (Route.derive g.spec g.strategy g.state).result).2,
        (Route.derive g.spec g.strategy g.state).state⟩ := by
  unfold render Generator.derive Run.andThen Run.mapError
  cases (Route.derive g.spec g.strategy g.state).result with
  | error f => simp [Except.mapError, sourceOf]
  | ok rules => rfl

variable [LawfulMonad m]

theorem andThenM_render (g : Generator σ) {α : Type}
    (stage : String → m (Except GenerateFault α × List Notice)) :
    g.render.andThenM stage = (do
      let (result, notices) ←
        withSource g.plain (Route.derive g.spec g.strategy g.state).result stage
      return ⟨result, (Route.derive g.spec g.strategy g.state).notices ++ notices,
        (Route.derive g.spec g.strategy g.state).state⟩) := by
  rw [render_eq]
  unfold Run.andThenM withSource
  obtain ⟨result, notices⟩ :=
    sourceOf g.plain (Route.derive g.spec g.strategy g.state).result
  cases result with
  | error f => simp
  | ok text => simp

/-- A call delivers what the result of its derivation leads to, and leaves the strategy where the
derivation leaves it. -/
theorem perform_eq (g : Generator σ) (o : Output m) :
    g.perform o = (do
      let (answer, notices) ←
        deliver g.plain (Route.derive g.spec g.strategy g.state).result o
      return (answer, (Route.derive g.spec g.strategy g.state).notices ++ notices,
        g.withState (Route.derive g.spec g.strategy g.state).state)) := by
  cases o with
  | definition =>
      simp [perform, deliver, define, Route.define, Run.mapError, Run.map, plain, withStrategy]
  | source => simp [perform, deliver, render_eq]
  | sink s =>
      rw [perform, toSink, andThenM_render]
      simp only [deliver, bind_assoc, pure_bind]
  | directory s dir =>
      rw [perform, toDirectory, andThenM_render]
      simp only [deliver, bind_assoc, pure_bind]
      rfl
  | filer f =>
      rw [perform, toFiler, andThenM_render]
      simp only [deliver, bind_assoc, pure_bind]
      rfl

/-! ## Whole sessions -/

/-- The calls of a session deliver what the results of as many derivations in a row lead to,
whatever the calls are and whatever becomes of them. -/
theorem session_eq_deliverAll (g : Generator σ) (os : List (Output m)) :
    session g os = (do
      let answers ←
        deliverAll g.plain (translations g.spec g.strategy g.state os.length) os
      return (answers, g.withState (stateAfter g.spec g.strategy g.state os.length))) := by
  induction os generalizing g with
  | nil => simp [session, deliverAll, translations, stateAfter, withState]
  | cons o os ih =>
      rw [session, perform_eq, List.length_cons, translations_succ, stateAfter_succ, deliverAll]
      simp only [bind_assoc, pure_bind, ih]
      rfl

/-- Where a derivation in the row has rules, their destinations come from one call of the strategy
for each declared operation, and these calls are all that moves the strategy on. -/
theorem consult_of_translation {spec : Spec} {d : Strategy σ} {s : σ} {k : Nat} {rules : List Rule}
    (h : (translation spec d s k).result = .ok rules) :
    (rules.map Rule.destination, stateAfter spec d s (k + 1)) =
      consult d (stateAfter spec d s k) ((declared spec).map Site.place) := by
  obtain ⟨-, hblank, -, hdestinations⟩ := (result_eq_ok_iff spec d _ rules).mp h
  have hstate := state_derive spec d (stateAfter spec d s k)
  rw [reached_eq_declared hblank] at hstate
  exact Prod.ext hdestinations hstate

/-- A session works from the results of derivations in a row: its answers are what `deliver` makes
of them, call by call, and the generator that is left is the one after as many derivations.  The
results depend neither on what the calls are nor on how they fail, and each derivation that succeeds
calls the strategy once for each declared operation. -/
theorem session_eq (g : Generator σ) (os : List (Output m)) :
    session g os = (do
      let answers ←
        deliverAll g.plain (translations g.spec g.strategy g.state os.length) os
      return (answers, g.withState (stateAfter g.spec g.strategy g.state os.length))) ∧
    ∀ k rules, (translation g.spec g.strategy g.state k).result = .ok rules →
      (rules.map Rule.destination, stateAfter g.spec g.strategy g.state (k + 1)) =
        consult g.strategy (stateAfter g.spec g.strategy g.state k)
          ((declared g.spec).map Site.place) :=
  ⟨session_eq_deliverAll g os, fun _ _ h => consult_of_translation h⟩

/-- A sink that fails, and then the definition: the first call has used up a number. -/
theorem session_eq_of_failing_sink :
    let sink : Sink Id := ⟨fun _ => .error .nothingWritten, .ok ()⟩
    let g := ofSpec
      { Spec.blank with
        paths := some ⟨[("/a", { PathItem.blank with get := some .blank })], by simp⟩ }
    session g [.sink sink, .definition] =
      ([(.sink (.error (.files .nothingWritten)), [.routed .get "/a" "direct:rest1"]),
        (.definition (.ok ⟨[⟨none, [⟨.get, "/a", none, none, none, none, [], "direct:rest2"⟩]⟩]⟩),
          [.routed .get "/a" "direct:rest2"])],
        g.withState ⟨2⟩) ∧
      consult g.strategy ⟨1⟩ ((declared g.spec).map Site.place) = (["direct:rest2"], ⟨2⟩) := by
  intro sink g
  have hfails {text : String} (h : Text.utf8 text ≠ []) :
      sink.deliver text = .error .nothingWritten := by
    unfold Sink.deliver
    cases hbytes : Text.utf8 text with
    | nil => exact absurd hbytes h
    | cons b bs =>
        rw [Sink.writeAll]
        rfl
  let rule (destination : String) : Rule := ⟨.get, "/a", none, none, [], [], [], destination⟩
  have hderived : translations g.spec g.strategy g.state 2 =
      [(.ok [rule "direct:rest1"], [.routed .get "/a" "direct:rest1"]),
        (.ok [rule "direct:rest2"], [.routed .get "/a" "direct:rest2"])] := by decide
  have hshown : (sourceOf g.plain (.ok [rule "direct:rest1"])).2 = [] ∧
      (sourceOf g.plain (.ok [rule "direct:rest1"])).1.toOption.any
        (fun text => !(Text.utf8 text).isEmpty) = true := by
    decide +kernel
  obtain ⟨text, hsource, htext⟩ : ∃ text,
      sourceOf g.plain (.ok [rule "direct:rest1"]) = (.ok text, []) ∧ Text.utf8 text ≠ [] := by
    generalize sourceOf g.plain (.ok [rule "direct:rest1"]) = source at hshown ⊢
    obtain ⟨result, notices⟩ := source
    obtain ⟨rfl, htext⟩ := hshown
    cases result with
    | error f => exact absurd htext (by simp [Except.toOption])
    | ok text =>
        have hbytes : (!(Text.utf8 text).isEmpty) = true := htext
        exact ⟨text, rfl, by simpa using hbytes⟩
  have hsink : deliver g.plain (.ok [rule "direct:rest1"]) (.sink sink) =
      (.sink (.error (.files .nothingWritten)), []) := by
    rw [deliver, withSource, hsource]
    dsimp only
    rw [hfails htext]
    rfl
  have hanswers : deliverAll g.plain (translations g.spec g.strategy g.state 2)
      [.sink sink, .definition] =
      [(.sink (.error (.files .nothingWritten)), [.routed .get "/a" "direct:rest1"]),
        (.definition (.ok ⟨[⟨none, [⟨.get, "/a", none, none, none, none, [], "direct:rest2"⟩]⟩]⟩),
          [.routed .get "/a" "direct:rest2"])] := by
    rw [hderived, deliverAll, hsink]
    rfl
  have hsecond : (translation g.spec g.strategy g.state 1).result = .ok [rule "direct:rest2"] := by
    decide
  obtain ⟨hsession, hconsult⟩ := session_eq g [.sink sink, .definition]
  constructor
  · rw [hsession, List.length_cons, List.length_singleton, hanswers]
    rfl
  · exact (hconsult 1 _ hsecond).symm

end SwaggerRoutes.Generator
