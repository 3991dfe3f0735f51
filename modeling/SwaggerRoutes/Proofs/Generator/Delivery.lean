/-
  Proofs/Generator/Delivery.lean --- what a sink has taken when a source was written to it.

  A sink takes bytes in pieces of its own choosing and may fail at any piece, or when it is flushed.
  `recording` keeps the bytes that it has taken beside it, and `Took` follows the pieces one by one:
  whatever the sink does, they are the first bytes of what was to be written.  Where there is no
  source the sink is never asked.
-/
import SwaggerRoutes.Proofs.Files.Writing

set_option autoImplicit false

namespace SwaggerRoutes.Files

variable {W : Type}

/-! ## Sinks with a record -/

/-- The sink with a record of the bytes that it takes, behind those that are recorded already. -/
def Sink.recording (s : Sink (StateM W)) : Sink (StateM (W × List UInt8)) where
  write bytes := fun (w, taken) =>
    match s.write bytes w with
    | (.error f, w') => (.error f, (w', taken))
    | (.ok n, w') => (.ok n, (w', taken ++ bytes.take n.val))
  flush := fun (w, taken) => ((s.flush w).1, ((s.flush w).2, taken))

/-- The filer with a record of the bytes that its sinks take. -/
def Filer.recording (f : Filer (StateM W)) : Filer (StateM (W × List UInt8)) where
  openSource name := fun (w, taken) =>
    (((f.openSource name w).1.1.map Sink.recording, (f.openSource name w).1.2),
      ((f.openSource name w).2, taken))

theorem run_writeAll_cons (s : Sink (StateM W)) (b : UInt8) (bs : List UInt8) (w : W) :
    s.writeAll (b :: bs) w =
      match s.write (b :: bs) w with
      | (.error f, w') => (.error f, w')
      | (.ok n, w') =>
        if n.val = 0 then (.error .nothingWritten, w')
        else s.writeAll ((b :: bs).drop n.val) w' := by
  rw [Sink.writeAll, run_bind]
  obtain ⟨r, w'⟩ := s.write (b :: bs) w
  cases r with
  | error f => rfl
  | ok n =>
      dsimp only
      by_cases hn : n.val = 0
      · rw [if_pos hn, if_pos hn]
        rfl
      · rw [if_neg hn, if_neg hn]
        obtain ⟨k, hk⟩ := Nat.exists_eq_succ_of_ne_zero hn
        rw [hk, List.drop_succ_cons, Nat.succ_sub_one]

theorem run_deliver (s : Sink (StateM W)) (text : String) (w : W) :
    s.deliver text w =
      match s.writeAll (Text.utf8 text) w with
      | (.error f, w') => (.error f, w')
      | (.ok (), w') => s.flush w' := by
  rw [Sink.deliver, run_bind]
  obtain ⟨r, w'⟩ := s.writeAll (Text.utf8 text) w
  cases r <;> rfl

/-! ## Piece by piece -/

/-- Of some bytes that are written to a sink it takes a part, piece by piece, until all are taken or
it fails. -/
inductive Took (s : Sink (StateM W)) :
    W → List UInt8 → List UInt8 → Except Fault Unit → W → Prop where
  | all (w : W) : Took s w [] [] (.ok ()) w
  | failure {w w' : W} {b : UInt8} {bs : List UInt8} {f : Fault} :
      s.write (b :: bs) w = (.error f, w') → Took s w (b :: bs) [] (.error f) w'
  | nothing {w w' : W} {b : UInt8} {bs : List UInt8} {n : Fin ((b :: bs).length + 1)} :
      s.write (b :: bs) w = (.ok n, w') → n.val = 0 →
      Took s w (b :: bs) [] (.error .nothingWritten) w'
  | piece {w w' w'' : W} {b : UInt8} {bs part : List UInt8} {n : Fin ((b :: bs).length + 1)}
      {r : Except Fault Unit} : s.write (b :: bs) w = (.ok n, w') → n.val ≠ 0 →
      Took s w' ((b :: bs).drop n.val) part r w'' →
      Took s w (b :: bs) ((b :: bs).take n.val ++ part) r w''

/-- What is recorded while bytes are written is what the sink took, and the record makes no
difference to the sink. -/
theorem exists_took (s : Sink (StateM W)) :
    ∀ (bytes : List UInt8) (w : W) (before : List UInt8), ∃ part,
      Took s w bytes part (s.writeAll bytes w).1 (s.writeAll bytes w).2 ∧
      s.recording.writeAll bytes (w, before) =
        ((s.writeAll bytes w).1, ((s.writeAll bytes w).2, before ++ part))
  | [], w, before => by
      refine ⟨[], ?_, ?_⟩
      · rw [Sink.writeAll]
        exact .all w
      · rw [Sink.writeAll, Sink.writeAll, List.append_nil]
        rfl
  | b :: bs, w, before => by
      rw [run_writeAll_cons, run_writeAll_cons]
      unfold Sink.recording
      dsimp only
      cases hwrite : s.write (b :: bs) w with
      | mk r w' =>
          cases r with
          | error f => exact ⟨[], .failure hwrite, by simp⟩
          | ok n =>
              dsimp only
              by_cases hn : n.val = 0
              · rw [if_pos hn, if_pos hn]
                exact ⟨[], .nothing hwrite hn, by simp [hn]⟩
              · rw [if_neg hn, if_neg hn]
                obtain ⟨part, htook, hrecord⟩ := exists_took s ((b :: bs).drop n.val) w'
                  (before ++ (b :: bs).take n.val)
                exact ⟨_, .piece hwrite hn htook, by rw [← List.append_assoc]; exact hrecord⟩
  termination_by bytes => bytes.length
  decreasing_by simp only [List.length_drop, List.length_cons]; omega

namespace Took

variable {s : Sink (StateM W)} {w w' : W} {bytes part : List UInt8} {r : Except Fault Unit}

theorem isPrefix (h : Took s w bytes part r w') : part <+: bytes := by
  induction h with
  | all => exact List.prefix_rfl
  | failure => exact List.nil_prefix
  | nothing => exact List.nil_prefix
  | piece _ _ _ ih =>
      obtain ⟨rest, hrest⟩ := ih
      exact ⟨rest, by rw [List.append_assoc, hrest, List.take_append_drop]⟩

theorem eq_of_ok (h : Took s w bytes part r w') (hr : r = .ok ()) : part = bytes := by
  induction h with
  | all => rfl
  | failure => exact nomatch hr
  | nothing => exact nomatch hr
  | piece _ _ _ ih => rw [ih hr, List.take_append_drop]

end Took

/-- A sink takes a number of bytes, in any pieces, and then fails: what it takes is taken off its
room, and it fails, or takes nothing of what it is offered, only when there is none left. -/
structure Sink.FailsAfter (s : Sink (StateM W)) (room : W → Nat) (f : Fault) : Prop where
  failure : ∀ {w w' : W} {b : UInt8} {bs : List UInt8} {e : Fault},
    s.write (b :: bs) w = (.error e, w') → room w = 0 ∧ e = f
  nothing : ∀ {w w' : W} {b : UInt8} {bs : List UInt8} {n : Fin ((b :: bs).length + 1)},
    s.write (b :: bs) w = (.ok n, w') → n.val = 0 → room w = 0 ∧ f = .nothingWritten
  piece : ∀ {w w' : W} {b : UInt8} {bs : List UInt8} {n : Fin ((b :: bs).length + 1)},
    s.write (b :: bs) w = (.ok n, w') → n.val ≠ 0 → room w = n.val + room w'

/-- A sink that fails after a number of bytes has taken so many, or all if there are no more. -/
theorem Took.of_failsAfter {s : Sink (StateM W)} {w w' : W} {bytes part : List UInt8}
    {r : Except Fault Unit} {room : W → Nat} {f : Fault} (hs : s.FailsAfter room f)
    (h : Took s w bytes part r w') :
    part = bytes.take (room w) ∧ r = if room w < bytes.length then .error f else .ok () := by
  induction h with
  | all => simp
  | failure hwrite =>
      obtain ⟨hroom, rfl⟩ := hs.failure hwrite
      simp [hroom]
  | nothing hwrite hn =>
      obtain ⟨hroom, rfl⟩ := hs.nothing hwrite hn
      simp [hroom]
  | @piece w w' _ b bs _ n _ hwrite hn _ ih =>
      obtain ⟨hpart, hr⟩ := ih
      have hroom : room w = n.val + room w' := hs.piece hwrite hn
      have hlength : n.val ≤ (b :: bs).length := Nat.le_of_lt_succ n.isLt
      constructor
      · rw [hpart, hroom, List.take_add]
      · rw [hr, List.length_drop]
        refine if_congr ?_ rfl rfl
        omega

/-! ## Deliveries -/

/-- What a delivery of bytes comes to at a sink in a certain state: its result, and the bytes that
the sink takes. -/
structure Accepts (s : Sink (StateM W)) (w : W) (bytes : List UInt8) (result : Except Fault Unit)
    (taken : List UInt8) : Prop where
  isPrefix : taken <+: bytes
  whole : result = .ok () → taken = bytes
  /-- If the bytes can all be written, they are all taken, and what is left to fail is the flush. -/
  written : (s.writeAll bytes w).1 = .ok () →
    taken = bytes ∧ result = (s.flush (s.writeAll bytes w).2).1
  /-- Otherwise the sink is not flushed. -/
  unwritten : ∀ f, (s.writeAll bytes w).1 = .error f → result = .error f
  /-- A sink that fails after a number of bytes takes exactly so many, or all. -/
  cut : ∀ room f, s.FailsAfter room f → taken = bytes.take (room w) ∧
    result = if room w < bytes.length then .error f else (s.flush (s.writeAll bytes w).2).1

theorem Took.accepts {s : Sink (StateM W)} {w : W} {bytes part : List UInt8}
    (h : Took s w bytes part (s.writeAll bytes w).1 (s.writeAll bytes w).2) :
    Accepts s w bytes (match (s.writeAll bytes w).1 with
      | .error f => .error f
      | .ok () => (s.flush (s.writeAll bytes w).2).1) part := by
  refine ⟨h.isPrefix, fun hr => h.eq_of_ok ?_, fun hr => ⟨h.eq_of_ok hr, by rw [hr]⟩,
    fun f hf => by rw [hf], fun room f hs => ?_⟩
  · split at hr
    · exact nomatch hr
    · assumption
  obtain ⟨hpart, hr⟩ := h.of_failsAfter hs
  refine ⟨hpart, ?_⟩
  rw [hr]
  by_cases hroom : room w < bytes.length
  · rw [if_pos hroom, if_pos hroom]
  · rw [if_neg hroom, if_neg hroom]

/-- A delivery to a sink with a record does to the sink what it does without, and records what the
sink takes. -/
theorem exists_accepts (s : Sink (StateM W)) (text : String) (w : W) (before : List UInt8) :
    ∃ taken, s.recording.deliver text (w, before) =
        ((s.deliver text w).1, ((s.deliver text w).2, before ++ taken)) ∧
      Accepts s w (Text.utf8 text) (s.deliver text w).1 taken := by
  obtain ⟨part, htook, hrecord⟩ := exists_took s (Text.utf8 text) w before
  have haccepts := htook.accepts
  rw [run_deliver, run_deliver, hrecord]
  generalize s.writeAll (Text.utf8 text) w = written at haccepts ⊢
  obtain ⟨r, w'⟩ := written
  refine ⟨part, ?_, ?_⟩
  · cases r <;> rfl
  · cases r <;> exact haccepts

end SwaggerRoutes.Files

namespace SwaggerRoutes.Route.Run

/-! ## Stages -/

variable {ε σ α β W : Type}

/-- A stage is not begun after a call that failed. -/
theorem andThenM_of_error {m : Type → Type} [Monad m] {r : Run ε σ α} {e : ε}
    (h : r.result = .error e) (stage : α → m (Except ε β × List Notice)) :
    r.andThenM stage = pure ⟨.error e, r.notices, r.state⟩ := by
  unfold andThenM
  rw [h]

/-- A stage after a call that succeeded gives the result. -/
theorem run_andThenM_of_ok {r : Run ε σ α} {a : α} (h : r.result = .ok a)
    (stage : α → StateM W (Except ε β × List Notice)) (w : W) :
    r.andThenM stage w =
      (⟨(stage a w).1.1, r.notices ++ (stage a w).1.2, r.state⟩, (stage a w).2) := by
  unfold andThenM
  rw [h]
  rfl

end SwaggerRoutes.Route.Run

namespace SwaggerRoutes.Generator

open Files Route

variable {σ W : Type}

/-! ## Sources -/

theorem run_toSink {g : Generator σ} {text : String} (h : g.render.result = .ok text)
    (s : Sink (StateM W)) (w : W) :
    g.toSink s w = (⟨(s.deliver text w).1.mapError .files, g.render.notices, g.render.state⟩,
      (s.deliver text w).2) := by
  unfold toSink
  rw [Run.run_andThenM_of_ok h, run_bind]
  exact congrArg (fun notices => (Run.mk _ notices _, _)) (List.append_nil _)

theorem run_toFiler_of_refused {g : Generator σ} {text : String} (h : g.render.result = .ok text)
    {f : Filer (StateM W)} {w w' : W} {e : Fault} {notices : List Notice}
    (hopened : f.openSource g.qualifiedName w = ((.error e, notices), w')) :
    g.toFiler f w =
      (⟨.error (.files e), g.render.notices ++ notices, g.render.state⟩, w') := by
  unfold toFiler
  rw [Run.run_andThenM_of_ok h]
  dsimp only
  rw [run_bind, hopened]
  rfl

/-- The notice that a source was generated, if it was. -/
def outcomeNotices (g : Generator σ) : Except Fault Unit → List Notice
  | .error _ => []
  | .ok () => [.generated g.qualifiedName]

/-- The source is delivered to the sink that a filer gives. -/
theorem run_toFiler_of_opened {g : Generator σ} {text : String} (h : g.render.result = .ok text)
    {f : Filer (StateM W)} {w w' : W} {s : Sink (StateM W)} {notices : List Notice}
    (hopened : f.openSource g.qualifiedName w = ((.ok s, notices), w')) :
    g.toFiler f w = (⟨(s.deliver text w').1.mapError .files,
      g.render.notices ++ (notices ++ g.outcomeNotices (s.deliver text w').1),
      g.render.state⟩, (s.deliver text w').2) := by
  unfold toFiler
  rw [Run.run_andThenM_of_ok h]
  dsimp only
  rw [run_bind, hopened]
  dsimp only
  rw [run_bind]
  generalize s.deliver text w' = delivered
  obtain ⟨r, w''⟩ := delivered
  cases r with
  | error e => rw [outcomeNotices, List.append_nil]; rfl
  | ok u => rfl

/-- What a call that writes a source to a sink leaves behind: its result, the strategy where
rendering leaves it, and in the sink what a delivery of the source comes to there. -/
structure Leaves (g : Generator σ) (text : String) (s : Sink (StateM W)) (w : W)
    (run : Run GenerateFault σ Unit) (taken : List UInt8) : Prop where
  result : run.result = (s.deliver text w).1.mapError .files
  state : run.state = g.render.state
  accepts : Accepts s w (Text.utf8 text) (s.deliver text w).1 taken

/-- Where there is no source, no sink is written to and no filer is asked, and the call fails as
rendering does.  Where there is one, a sink has taken the first bytes of it in the end, whatever the
sink does: all of them if the call succeeds or only the flush fails, and exactly so many as it has
room for if it fails when that is used up, which is when there are more or the flush fails.  This is
so for a sink that is given as for the one that a filer gives out.  The strategy is always left
where rendering leaves it. -/
theorem taken_of_source (g : Generator σ) :
    (∀ e, g.render.result = .error e → ∀ (m : Type → Type) [Monad m],
      (∀ s : Sink m, g.toSink s = pure ⟨.error e, g.render.notices, g.render.state⟩) ∧
      ∀ f : Filer m, g.toFiler f = pure ⟨.error e, g.render.notices, g.render.state⟩) ∧
    ∀ text, g.render.result = .ok text → ∀ (W : Type) (w : W) (before : List UInt8),
      (∀ s : Sink (StateM W), ∃ taken,
        g.toSink s.recording (w, before) =
          ((g.toSink s w).1, ((g.toSink s w).2, before ++ taken)) ∧
        Leaves g text s w (g.toSink s w).1 taken) ∧
      ∀ f : Filer (StateM W),
        (∀ e notices w', f.openSource g.qualifiedName w = ((.error e, notices), w') →
          g.toFiler f.recording (w, before) =
            (⟨.error (.files e), g.render.notices ++ notices, g.render.state⟩, (w', before))) ∧
        ∀ s notices w', f.openSource g.qualifiedName w = ((.ok s, notices), w') → ∃ taken,
          g.toFiler f.recording (w, before) =
            ((g.toFiler f w).1, ((g.toFiler f w).2, before ++ taken)) ∧
          Leaves g text s w' (g.toFiler f w).1 taken := by
  refine ⟨fun e he m _ => ⟨fun s => ?_, fun f => ?_⟩, fun text htext W w before =>
    ⟨fun s => ?_, fun f => ⟨fun e notices w' hopened => ?_, fun s notices w' hopened => ?_⟩⟩⟩
  · exact Run.andThenM_of_error he _
  · exact Run.andThenM_of_error he _
  · obtain ⟨taken, hrun, haccepts⟩ := exists_accepts s text w before
    refine ⟨taken, ?_, ?_⟩
    · rw [run_toSink htext, run_toSink htext, hrun]
    · rw [run_toSink htext]
      exact ⟨rfl, rfl, haccepts⟩
  · refine run_toFiler_of_refused htext ?_
    unfold Filer.recording
    dsimp only
    rw [hopened]
    rfl
  · obtain ⟨taken, hrun, haccepts⟩ := exists_accepts s text w' before
    have hrecorded : f.recording.openSource g.qualifiedName (w, before) =
        ((.ok s.recording, notices), (w', before)) := by
      unfold Filer.recording
      dsimp only
      rw [hopened]
      rfl
    refine ⟨taken, ?_, ?_⟩
    · rw [run_toFiler_of_opened htext hrecorded, run_toFiler_of_opened htext hopened, hrun]
    · rw [run_toFiler_of_opened htext hopened]
      exact ⟨rfl, rfl, haccepts⟩

/-- A sink that takes at most two bytes at a time, as long as it has room, and cannot be flushed. -/
def narrowSink : Sink (StateM Nat) where
  write bytes := fun room =>
    if room = 0 then (.error (.sink "full"), 0)
    else (.ok ⟨min bytes.length (min 2 room), by omega⟩, room - min bytes.length (min 2 room))
  flush := fun room => (.error (.sink "stuck"), room)

theorem failsAfter_narrowSink : narrowSink.FailsAfter id (.sink "full") := by
  refine ⟨fun {w w' b bs e} h => ?_, fun {w w' b bs n} h hn => ?_, fun {w w' b bs n} h hn => ?_⟩ <;>
    simp only [narrowSink] at h <;> split at h
  · next hroom => exact ⟨hroom, (Except.error.inj (Prod.mk.inj h).1).symm⟩
  · exact nomatch (Prod.mk.inj h).1
  · exact nomatch (Prod.mk.inj h).1
  · obtain ⟨hr, -⟩ := Prod.mk.inj h
    obtain rfl := Except.ok.inj hr
    simp only [List.length_cons] at hn
    omega
  · exact nomatch (Prod.mk.inj h).1
  · obtain ⟨hr, rfl⟩ := Prod.mk.inj h
    obtain rfl := Except.ok.inj hr
    simp only [List.length_cons, id]
    omega

/-- A generator for a description without operations. -/
def quietGenerator : Generator Namer :=
  ofSpec { Swagger.Spec.blank with paths := some .empty }

/-- The source of a description without operations at that sink, with room for five bytes, and a
description without paths. -/
theorem taken_of_source_of_narrowSink :
    (∃ text, quietGenerator.render.result = .ok text ∧ ∃ taken,
      quietGenerator.toSink narrowSink.recording (5, []) =
        ((quietGenerator.toSink narrowSink 5).1,
          ((quietGenerator.toSink narrowSink 5).2, [] ++ taken)) ∧
      taken = (Text.utf8 text).take 5 ∧
      (quietGenerator.toSink narrowSink 5).1.result = .error (.files (.sink "full")) ∧
      (quietGenerator.toSink narrowSink 5).1.state = quietGenerator.render.state) ∧
    (ofSpec Swagger.Spec.blank).toSink narrowSink =
      pure ⟨.error (.spec .noPaths), [], .fresh⟩ := by
  obtain ⟨-, hok⟩ := taken_of_source quietGenerator
  obtain ⟨herror, -⟩ := taken_of_source (ofSpec Swagger.Spec.blank)
  have htext : ∃ text, quietGenerator.render.result = .ok text ∧ 5 < (Text.utf8 text).length :=
    ⟨_, rfl, by decide +kernel⟩
  obtain ⟨text, htext, hlong⟩ := htext
  obtain ⟨taken, hrun, hleaves⟩ := (hok text htext Nat 5 []).1 narrowSink
  obtain ⟨htaken, hresult⟩ := hleaves.accepts.cut id _ failsAfter_narrowSink
  refine ⟨⟨text, htext, taken, hrun, htaken, ?_, hleaves.state⟩, (herror _ rfl _).1 narrowSink⟩
  have hshort : id 5 < (Text.utf8 text).length := hlong
  rw [hleaves.result, hresult, if_pos hshort]
  rfl

end SwaggerRoutes.Generator
