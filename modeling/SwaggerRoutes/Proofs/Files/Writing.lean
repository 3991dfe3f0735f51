/-
  Proofs/Files/Writing.lean --- what a tree as a store allows to be changed.

  Whatever a computation does with a store, it does by the operations of the store, and so what it
  changes and how it fails follow from what each operation changes and how that fails.  Writing a
  file under a path changes what is at its address and adds directories around it, and nothing
  else, even if it fails half-way; this is so on a machine as well, any operation of which may fail.
-/
import SwaggerRoutes.Generator
import SwaggerRoutes.Proofs.Files.Change

set_option autoImplicit false

namespace SwaggerRoutes.Files

theorem run_bind {σ α β : Type} (x : StateM σ α) (f : α → StateM σ β) (s : σ) :
    (x >>= f) s = f (x s).1 (x s).2 := rfl

/-- What only looks at a result leaves the state where it was. -/
theorem state_bind {σ α β : Type} {x : StateM σ α} {f : α → StateM σ β}
    (hf : ∀ a s, (f a s).2 = s) (s : σ) : ((x >>= f) s).2 = (x s).2 :=
  hf _ _

/-! ## Computations on trees -/

/-- A fault of a store of files, and of nothing that is built on one. -/
def IsStoreFault (e : Fault) : Prop :=
  e = .zeroInPath ∨ ∃ f, e = .os f

theorem IsStoreFault.ne_notQualified {e : Fault} (he : IsStoreFault e) (name : String) :
    e ≠ .notQualified name := by
  rcases he with rfl | ⟨f, rfl⟩
  · exact Fault.noConfusion
  · exact Fault.noConfusion

/-- A computation that changes a state only as a relation allows it, and fails only where its store
does. -/
structure Careful {W α : Type} (R : W → W → Prop) (x : StateM W (Except Fault α)) : Prop where
  leaves : ∀ w, R w (x w).2
  fault : ∀ w e, (x w).1 = .error e → IsStoreFault e

namespace Careful

variable {W α β : Type} {R S : W → W → Prop} {x : StateM W (Except Fault α)}

theorem ok [Std.Refl R] (a : α) : Careful R (pure (.ok a)) :=
  ⟨Std.Refl.refl, fun _ _ h => nomatch h⟩

theorem error [Std.Refl R] {e : Fault} (he : IsStoreFault e) :
    Careful R (pure (.error e) : StateM W (Except Fault α)) := by
  refine ⟨Std.Refl.refl, fun t e' h => ?_⟩
  obtain rfl := Except.error.inj h
  exact he

theorem bind [IsTrans W R] (hx : Careful R x)
    {f : Except Fault α → StateM W (Except Fault β)}
    (herror : ∀ e, IsStoreFault e → Careful R (f (.error e)))
    (hok : ∀ a, Careful R (f (.ok a))) : Careful R (x >>= f) := by
  have hf : ∀ t, Careful R (f (x t).1) := by
    intro t
    cases hr : (x t).1 with
    | error e => exact herror e (hx.fault t e hr)
    | ok a => exact hok a
  exact ⟨fun t => IsTrans.trans t _ _ (hx.leaves t) ((hf t).leaves _), fun t => (hf t).fault _⟩

/-- A question about a state changes it only as allowed. -/
theorem ask [IsTrans W R] {γ : Type} {q : StateM W γ} (hq : ∀ w, R w (q w).2)
    {f : γ → StateM W (Except Fault β)} (hf : ∀ c, Careful R (f c)) : Careful R (q >>= f) :=
  ⟨fun w => IsTrans.trans w _ _ (hq w) ((hf _).leaves _), fun _ => (hf _).fault _⟩

theorem mono (hx : Careful R x) (h : ∀ t t', R t t' → S t t') : Careful S x :=
  ⟨fun t => h t _ (hx.leaves t), hx.fault⟩

end Careful

namespace Tree

variable {here : Address} {path : String} {t t' : Tree}

/-- A change of a tree is made, or fails and leaves the tree alone. -/
theorem attempt_cases (path : String) (f : Tree → Except OsFault Tree) (t : Tree) :
    (∃ t', isTellable path = true ∧ f t = .ok t' ∧ attempt path f t = (.ok (), t')) ∨
      ∃ e, IsStoreFault e ∧ attempt path f t = (.error e, t) := by
  unfold attempt asked
  by_cases h : isTellable path = true
  · rw [if_pos h]
    cases hf : f t with
    | error e => exact .inr ⟨.os e, .inr ⟨e, rfl⟩, rfl⟩
    | ok t' => exact .inl ⟨t', h, rfl, rfl⟩
  · rw [if_neg h]
    exact .inr ⟨.zeroInPath, .inl rfl, rfl⟩

/-- A change of a tree is made where its path can be told and the change is possible. -/
theorem attempt_eq_ok_iff (path : String) (f : Tree → Except OsFault Tree) (t t' : Tree) :
    attempt path f t = (.ok (), t') ↔ isTellable path = true ∧ f t = .ok t' := by
  constructor
  · intro h
    rcases attempt_cases path f t with ⟨t₁, htell, hf, heq⟩ | ⟨e, -, heq⟩
    · obtain rfl : t₁ = t' := (Prod.mk.inj (heq.symm.trans h)).2
      exact ⟨htell, hf⟩
    · exact nomatch (Prod.mk.inj (heq.symm.trans h)).1
  · rintro ⟨htell, hf⟩
    rw [attempt, asked, if_pos htell, hf]
    rfl

theorem createDirectory_eq_ok_iff (here : Address) (path : String) (t t' : Tree) :
    (store here).createDirectory path t = (.ok (), t') ↔
      isTellable path = true ∧ t.createDirectory here path = .ok t' :=
  attempt_eq_ok_iff path (fun t => t.createDirectory here path) t t'

theorem create_eq_ok_iff (here : Address) (path : String) (t t' : Tree) :
    (store here).create path t = (.ok (), t') ↔
      isTellable path = true ∧ t.create here path = .ok t' :=
  attempt_eq_ok_iff path (fun t => t.create here path) t t'

theorem append_eq_ok_iff (here : Address) (path : String) (bytes : List UInt8) (t t' : Tree) :
    (store here).append path bytes t = (.ok (), t') ↔
      isTellable path = true ∧ t.append here path bytes = .ok t' :=
  attempt_eq_ok_iff path (fun t => t.append here path bytes) t t'

end Tree

/-! ## Directories one after another -/

section

variable {m : Type → Type} [Monad m]

/-- Whether a directory is there all the same that could not be made. -/
def Store.unlessThere (s : Store m) (p : String) (f : Fault) : m (Except Fault Unit) := do
  if ← s.isDirectory p then return .ok () else return .error f

/-- A directory is made; if something around it is missing that is made first. -/
theorem createDirectories_cons [LawfulMonad m] (s : Store m) (p : String) (outer : List String) :
    s.createDirectories (p :: outer) = (do
      match ← s.createDirectory p with
      | .ok () => return .ok ()
      | .error f =>
        if f = .os .noEntry then
          match ← s.createDirectories outer with
          | .error f => return .error f
          | .ok () =>
            match ← s.createDirectory p with
            | .ok () => return .ok ()
            | .error f => s.unlessThere p f
        else s.unlessThere p f) := by
  rw [Store.createDirectories]
  refine bind_congr fun r => ?_
  cases r with
  | ok u => rfl
  | error f =>
      dsimp only
      by_cases hf : f = .os .noEntry
      · rw [hf, if_pos rfl]
        rfl
      · rw [if_neg hf]
        split
        · next heq => exact nomatch heq
        · next heq => exact absurd (Except.error.inj heq) hf
        · next heq => rw [← Except.error.inj heq]; rfl

end

/-! ## Machines that carry a tree -/

variable {W : Type}

/-- An operation of a machine that carries a tree out of its state changes the tree in a certain
way if it succeeds.  If it fails there is a fault of the store, and the tree is as it was, unless it
has been changed halfway. -/
structure Performs (tree : W → Tree) (change : Tree → Except OsFault Tree)
    (halfway : Tree → Tree → Prop) (x : StateM W (Except Fault Unit)) : Prop where
  ok : ∀ w, (x w).1 = .ok () → change (tree w) = .ok (tree (x w).2)
  error : ∀ w e, (x w).1 = .error e →
    IsStoreFault e ∧ (tree (x w).2 = tree w ∨ halfway (tree w) (tree (x w).2))

/-- The files of a machine make up a tree.  Operations do to it what they do to trees, as long as
they succeed; any of them may fail at any time, even with the change made, and bytes may have been
added in part. -/
structure Store.Carries (s : Store (StateM W)) (here : Address) (tree : W → Tree) : Prop where
  isDirectory : ∀ path w, tree (s.isDirectory path w).2 = tree w
  create : ∀ path, Performs tree (fun t => t.create here path)
    (fun t t' => t.create here path = .ok t') (s.create path)
  append : ∀ path bytes, Performs tree (fun t => t.append here path bytes)
    (fun t t' => ∃ part, part <+: bytes ∧ t.append here path part = .ok t') (s.append path bytes)
  createDirectory : ∀ path, Performs tree (fun t => t.createDirectory here path)
    (fun t t' => t.createDirectory here path = .ok t') (s.createDirectory path)

instance {R : Tree → Tree → Prop} [Std.Refl R] (tree : W → Tree) : Std.Refl (InvImage R tree) :=
  ⟨fun w => Std.Refl.refl (tree w)⟩

theorem Performs.careful {tree : W → Tree} {change : Tree → Except OsFault Tree}
    {halfway R : Tree → Tree → Prop} {x : StateM W (Except Fault Unit)} [Std.Refl R]
    (h : Performs tree change halfway x) (hchange : ∀ t t', change t = .ok t' → R t t')
    (hhalfway : ∀ t t', halfway t t' → R t t') : Careful (InvImage R tree) x := by
  refine ⟨fun w => ?_, fun w e he => (h.error w e he).1⟩
  change R (tree w) (tree (x w).2)
  cases hx : (x w).1 with
  | ok u => exact hchange _ _ (h.ok w hx)
  | error e =>
      rcases (h.error w e hx).2 with hsame | hhalf
      · rw [hsame]
        exact Std.Refl.refl (tree w)
      · exact hhalfway _ _ hhalf

theorem Tree.performs_attempt (path : String) (change : Tree → Except OsFault Tree)
    (halfway : Tree → Tree → Prop) : Performs id change halfway (attempt path change) := by
  constructor
  · intro t ht
    rcases attempt_cases path change t with ⟨t', -, hchange, heq⟩ | ⟨e, -, heq⟩
    · rw [heq]
      exact hchange
    · rw [heq] at ht
      exact nomatch ht
  · intro t e he
    rcases attempt_cases path change t with ⟨t', -, -, heq⟩ | ⟨e', he', heq⟩
    · rw [heq] at he
      exact nomatch he
    · rw [heq] at he ⊢
      rw [← Except.error.inj he]
      exact ⟨he', .inl rfl⟩

/-- A tree is a machine that carries itself, and changes nothing halfway. -/
theorem Tree.carries_store (here : Address) : (store here).Carries here id where
  isDirectory _ _ := rfl
  create path := performs_attempt path _ _
  append path _ := performs_attempt path _ _
  createDirectory path := performs_attempt path _ _

namespace Tree

variable {here : Address} {path : String} {t t' : Tree}

/-- An address to which one of some paths leads, in its normal form. -/
def LedTo (here : Address) (ps : List String) (a : Address) : Prop :=
  ∃ p ∈ ps, a = addressOf here (normal p)

/-- Making directories adds them where their paths lead. -/
theorem careful_createDirectories {s : Store (StateM W)} {tree : W → Tree}
    (hs : s.Carries here tree) (ps : List String) :
    Careful (InvImage (AddsDirectories (LedTo here ps)) tree) (s.createDirectories ps) := by
  induction ps with
  | nil => exact .ok ()
  | cons p outer ih =>
      have hadds : ∀ t t', t.createDirectory here p = .ok t' →
          AddsDirectories (LedTo here (p :: outer)) t t' :=
        fun t t' h => (addsDirectories_of_createDirectory h).mono fun a ha => ⟨p, .head outer, ha⟩
      have hone := (hs.createDirectory p).careful hadds hadds
      have houter : Careful (InvImage (AddsDirectories (LedTo here (p :: outer))) tree)
          (s.createDirectories outer) :=
        ih.mono fun w w' h => h.mono fun a ⟨q, hq, ha⟩ => ⟨q, .tail p hq, ha⟩
      -- a directory that could not be made may be there all the same
      have hthere (e : Fault) (he : IsStoreFault e) :
          Careful (InvImage (AddsDirectories (LedTo here (p :: outer))) tree)
            (s.unlessThere p e) := by
        refine .ask (fun w => ?_) fun there => ?_
        · rw [InvImage, hs.isDirectory]
          exact .refl _ _
        · split
          · exact .ok ()
          · exact .error he
      rw [createDirectories_cons]
      refine .bind hone (fun e he => ?_) fun _ => .ok ()
      dsimp only
      split
      · refine .bind houter (fun e he => .error he) fun _ => ?_
        exact .bind hone hthere fun _ => .ok ()
      · exact hthere e he

/-! ## Writing under a path -/

/-- No more is changed than writing a file under a path takes: a file stands at its address, in
place of no directory, and directories stand around it where nothing was. -/
def WritesOnly (here : Address) (path : String) (t t' : Tree) : Prop :=
  ∀ a, t'.at? a = t.at? a ∨
    (a = addressOf here path ∧ t.at? a ≠ some .directory ∧ ∃ c, t'.at? a = some (.file c)) ∨
    (t.at? a = none ∧ t'.at? a = some .directory ∧ ∃ p, IsAround path p ∧ a = addressOf here p)

theorem WritesOnly.refl (here : Address) (path : String) (t : Tree) : WritesOnly here path t t :=
  fun _ => .inl rfl

theorem WritesOnly.trans {t'' : Tree} (h : WritesOnly here path t t')
    (h' : WritesOnly here path t' t'') : WritesOnly here path t t'' := by
  intro a
  rcases h a with hsame | ⟨ha, hold, c, hc⟩ | ⟨hnone, hdirectory, haround⟩
  · rw [← hsame]
    exact h' a
  · rcases h' a with hsame' | ⟨-, -, hnew⟩ | ⟨hnone', -, -⟩
    · exact .inr (.inl ⟨ha, hold, c, hsame'.trans hc⟩)
    · exact .inr (.inl ⟨ha, hold, hnew⟩)
    · exact absurd (hc.symm.trans hnone') (by simp)
  · rcases h' a with hsame' | ⟨-, hold', -⟩ | ⟨hnone', -, -⟩
    · exact .inr (.inr ⟨hnone, hsame'.trans hdirectory, haround⟩)
    · exact absurd hdirectory hold'
    · exact absurd (hdirectory.symm.trans hnone') (by simp)

instance : Std.Refl (WritesOnly here path) := ⟨WritesOnly.refl here path⟩

instance : IsTrans Tree (WritesOnly here path) := ⟨fun _ _ _ => WritesOnly.trans⟩

theorem WritesOnly.keepsDirectories (h : WritesOnly here path t t') : KeepsDirectories t t' := by
  intro a ha
  rcases h a with hsame | ⟨-, hold, -⟩ | ⟨-, hdirectory, -⟩
  · rw [hsame, ha]
  · exact absurd ha hold
  · exact hdirectory

/-- What is at another address stays there, if it is anything at all. -/
theorem WritesOnly.at?_eq (h : WritesOnly here path t t') {a : Address}
    (ha : a ≠ addressOf here path) {e : Entry} (he : t.at? a = some e) : t'.at? a = some e := by
  rcases h a with hsame | ⟨heq, -, -⟩ | ⟨hnone, -, -⟩
  · rw [hsame, he]
  · exact absurd heq ha
  · exact absurd (he.symm.trans hnone) (by simp)

theorem SetsFile.writesOnly {c : List UInt8} (h : SetsFile (addressOf here path) c t t') :
    WritesOnly here path t t' := by
  intro a
  by_cases ha : a = addressOf here path
  · subst ha
    exact .inr (.inl ⟨rfl, h.before, c, h.at?_self⟩)
  · exact .inl (h.at?_ne (Ne.symm ha))

section

variable {s : Store (StateM W)} {tree : W → Tree}

/-- The directories around a path are made where they are missing. -/
theorem careful_parents (hs : s.Carries here tree) (path : String) :
    Careful (InvImage (WritesOnly here path) tree) (s.createDirectories (parents path)) := by
  refine (careful_createDirectories hs (parents path)).mono fun w w' h a => ?_
  refine (h a).imp_right fun ⟨hnone, hdirectory, p, hp, ha⟩ => .inr ⟨hnone, hdirectory, p, ?_⟩
  obtain ⟨haround, hnormal⟩ := isAround_of_mem_parents hp
  exact ⟨haround, by rw [ha, hnormal]⟩

theorem careful_create (hs : s.Carries here tree) (path : String) :
    Careful (InvImage (WritesOnly here path) tree) (s.create path) := by
  have hcreate : ∀ t t', t.create here path = .ok t' → WritesOnly here path t t' :=
    fun _ _ h => (setsFile_of_create h).2.writesOnly
  exact (hs.create path).careful hcreate hcreate

theorem careful_append (hs : s.Carries here tree) (path : String) (bytes : List UInt8) :
    Careful (InvImage (WritesOnly here path) tree) (s.append path bytes) := by
  have happend : ∀ (t t' : Tree) bytes, t.append here path bytes = .ok t' →
      WritesOnly here path t t' := by
    intro t t' bytes h
    obtain ⟨c, hset⟩ := setsFile_of_append h
    exact hset.writesOnly
  exact (hs.append path bytes).careful (fun t t' h => happend t t' bytes h)
    fun t t' ⟨part, _, h⟩ => happend t t' part h

end

end Tree

/-! ## Files with the directories around them -/

variable {m : Type → Type} [Monad m]

/-- Makes a file, empty, with the directories around it. -/
def Store.make (s : Store m) (path : String) : m (Except Fault Unit) := do
  match ← s.createDirectories (parents path) with
  | .error f => return .error f
  | .ok () => s.create path

theorem run_make (s : Store (StateM W)) (path : String) (w : W) :
    s.make path w =
      match (s.createDirectories (parents path) w).1 with
      | .error f => (.error f, (s.createDirectories (parents path) w).2)
      | .ok () => s.create path (s.createDirectories (parents path) w).2 := by
  unfold Store.make
  rw [run_bind]
  cases (s.createDirectories (parents path) w).1 <;> rfl

theorem createSource_eq [LawfulMonad m] (s : Store m) (b : BuildDirectory) (name : String) :
    b.createSource s name =
      match b.refusal? name with
      | some f => pure (.error f, b)
      | none => do
        match ← s.make (b.sourcePath name) with
        | .error f => return (.error f, b)
        | .ok () => return (.ok (b.sourcePath name), b.note name) := by
  unfold BuildDirectory.createSource
  cases b.refusal? name with
  | some f => rfl
  | none =>
      simp only [Store.make, bind_assoc]
      refine bind_congr fun r => ?_
      cases r with
      | error f => simp
      | ok u => rfl

theorem writeFile_eq [LawfulMonad m] (s : Store m) (path text : String) :
    Generator.writeFile s path text = (do
      match ← s.make path with
      | .error f => return .error f
      | .ok () => s.append path (Text.utf8 text)) := by
  simp only [Generator.writeFile, Store.make, bind_assoc]
  refine bind_congr fun r => ?_
  cases r with
  | error f => simp
  | ok u => rfl

/-- A sink of a store takes all that it is offered at once. -/
theorem writeAll_sink [LawfulMonad m] (s : Store m) (path : String) (bytes : List UInt8) :
    (s.sink path).writeAll bytes = if bytes = [] then pure (.ok ()) else s.append path bytes := by
  cases bytes with
  | nil => rw [Sink.writeAll, if_pos rfl]
  | cons b bs =>
      rw [Sink.writeAll, if_neg (by simp), Store.sink]
      simp only [bind_assoc]
      conv_rhs => rw [← bind_pure (s.append path (b :: bs))]
      refine bind_congr fun r => ?_
      cases r with
      | error f => simp
      | ok u =>
          simp only [pure_bind, Fin.val_last, List.length_cons, Nat.add_one_ne_zero, if_false,
            Nat.add_sub_cancel, List.drop_length]
          rw [Sink.writeAll]

namespace Tree

variable {here : Address} {path : String} {t t' : Tree}

theorem careful_make_of_carries {s : Store (StateM W)} {tree : W → Tree}
    (hs : s.Carries here tree) (path : String) :
    Careful (InvImage (WritesOnly here path) tree) (s.make path) :=
  .bind (careful_parents hs path)
    (fun _ he => .error he) fun _ => careful_create hs path

theorem careful_make (here : Address) (path : String) :
    Careful (WritesOnly here path) ((store here).make path) :=
  careful_make_of_carries (carries_store here) path

/-- Where a file is made, its path leads to it. -/
theorem resolve_of_make (h : ((store here).make path t).1 = .ok ()) :
    isTellable path = true ∧
      ((store here).make path t).2.resolve here path = .ok (addressOf here path) ∧
      ((store here).make path t).2.at? (addressOf here path) = some (.file []) := by
  rw [run_make] at h ⊢
  generalize (store here).createDirectories (parents path) t = around at h ⊢
  obtain ⟨r, t₁⟩ := around
  cases r with
  | error f => exact nomatch h
  | ok u =>
      have hcreate : (store here).create path t₁ =
          attempt path (fun t => t.create here path) t₁ := rfl
      dsimp only at h ⊢
      rw [hcreate] at h ⊢
      rcases attempt_cases path (fun t => t.create here path) t₁ with
        ⟨t₂, htell, hmade, heq⟩ | ⟨e, -, heq⟩
      · obtain ⟨hresolve, hset⟩ := setsFile_of_create hmade
        rw [heq]
        exact ⟨htell, hset.keepsDirectories.resolve hresolve, hset.at?_self⟩
      · rw [heq] at h
        exact nomatch h

theorem careful_writeFile_of_carries {s : Store (StateM W)} {tree : W → Tree}
    (hs : s.Carries here tree) (path text : String) :
    Careful (InvImage (WritesOnly here path) tree) (Generator.writeFile s path text) := by
  rw [writeFile_eq]
  exact .bind (careful_make_of_carries hs path)
    (fun _ he => .error he) fun _ => careful_append hs path _

theorem careful_writeFile (here : Address) (path text : String) :
    Careful (WritesOnly here path) (Generator.writeFile (store here) path text) :=
  careful_writeFile_of_carries (carries_store here) path text

/-- Writing a file under a path fails only where the file cannot be made; otherwise the file holds
the text. -/
theorem writeFile_cases (here : Address) (path text : String) (t : Tree) :
    (∃ e, IsStoreFault e ∧ ((store here).make path t).1 = .error e ∧
      Generator.writeFile (store here) path text t =
        (.error e, ((store here).make path t).2)) ∨
    ∃ t', Generator.writeFile (store here) path text t = (.ok (), t') ∧
      t'.at? (addressOf here path) = some (.file (Text.utf8 text)) := by
  rw [writeFile_eq, run_bind]
  cases hmade : ((store here).make path t).1 with
  | error e => exact .inl ⟨e, (careful_make here path).fault t e hmade, rfl, rfl⟩
  | ok u =>
      obtain ⟨htell, hresolve, hfile⟩ := resolve_of_make hmade
      obtain ⟨t', happend, hset⟩ := append_of_file hresolve hfile (Text.utf8 text)
      have hwritten : (store here).append path (Text.utf8 text)
          ((store here).make path t).2 = (.ok (), t') :=
        (append_eq_ok_iff here path _ _ t').mpr ⟨htell, happend⟩
      exact .inr ⟨t', hwritten, by rw [hset.at?_self, List.nil_append]⟩

theorem careful_deliver (here : Address) (path text : String) :
    Careful (WritesOnly here path) (((store here).sink path).deliver text) := by
  have hwrite : Careful (WritesOnly here path)
      (((store here).sink path).writeAll (Text.utf8 text)) := by
    rw [writeAll_sink]
    split
    · exact .ok ()
    · exact careful_append (carries_store here) path _
  exact .bind hwrite
    (fun _ he => .error he) fun _ => .ok ()

end Tree

/-! ## Build directories -/

section

variable {W β : Type}

/-- A build directory refuses a name, or fails to make its file, or makes it and notes it. -/
theorem createSource_cases (s : Store (StateM W)) (b : BuildDirectory) (name : String) (w : W) :
    (∃ f, b.refusal? name = some f ∧ b.createSource s name w = ((.error f, b), w)) ∨
    (b.refusal? name = none ∧ ∃ f, (s.make (b.sourcePath name) w).1 = .error f ∧
      b.createSource s name w = ((.error f, b), (s.make (b.sourcePath name) w).2)) ∨
    (b.refusal? name = none ∧ (s.make (b.sourcePath name) w).1 = .ok () ∧
      b.createSource s name w =
        ((.ok (b.sourcePath name), b.note name), (s.make (b.sourcePath name) w).2)) := by
  have heq := congrFun (createSource_eq s b name) w
  cases hrefusal : b.refusal? name with
  | some f =>
      simp only [hrefusal] at heq
      exact .inl ⟨f, rfl, heq⟩
  | none =>
      simp only [hrefusal] at heq
      rw [run_bind] at heq
      cases hmade : (s.make (b.sourcePath name) w).1 with
      | error f =>
          rw [hmade] at heq
          exact .inr (.inl ⟨rfl, f, rfl, heq⟩)
      | ok u =>
          rw [hmade] at heq
          exact .inr (.inr ⟨rfl, rfl, heq⟩)

theorem run_bind_bind {α γ : Type} (x : StateT β (StateM W) α) (f : α → StateT β (StateM W) γ)
    (b : β) (w : W) : (x >>= f) b w = f (x b w).1.1 (x b w).1.2 (x b w).2 := rfl

theorem run_lift {α : Type} (x : StateM W α) (b : β) (w : W) :
    (StateT.lift x : StateT β (StateM W) α) b w = (((x w).1, b), (x w).2) := rfl

theorem lift_bind {α γ : Type} (x : StateM W α) (f : α → StateM W γ) :
    (StateT.lift (x >>= f) : StateT β (StateM W) γ) =
      StateT.lift x >>= fun a => StateT.lift (f a) :=
  rfl

/-- A sink for computations with a state that it leaves alone. -/
def Sink.lifted (β : Type) (s : Sink (StateM W)) : Sink (StateT β (StateM W)) :=
  ⟨fun bytes => StateT.lift (s.write bytes), StateT.lift s.flush⟩

theorem writeAll_lifted (s : Sink (StateM W)) :
    ∀ bytes, (s.lifted β).writeAll bytes = StateT.lift (s.writeAll bytes)
  | [] => by
      rw [Sink.writeAll, Sink.writeAll]
      rfl
  | b :: bs => by
      rw [Sink.writeAll, Sink.writeAll, lift_bind]
      refine bind_congr fun r => ?_
      cases r with
      | error f => rfl
      | ok n =>
          simp only
          split
          · rfl
          · exact writeAll_lifted s (bs.drop (n.val - 1))
  termination_by bytes => bytes.length
  decreasing_by simp only [List.length_drop, List.length_cons]; omega

theorem deliver_lifted (s : Sink (StateM W)) (text : String) :
    (s.lifted β).deliver text = StateT.lift (s.deliver text) := by
  unfold Sink.deliver
  rw [writeAll_lifted, lift_bind]
  refine bind_congr fun r => ?_
  cases r <;> rfl

/-- What a build directory answers when it is asked for a sink. -/
theorem run_openSource (s : Store (StateM W)) (name : String) (b : BuildDirectory) (w : W) :
    (BuildDirectory.filer s).openSource name b w =
      ((match (b.createSource s name w).1.1 with
        | .error f => (.error f, [])
        | .ok path => (.ok ((s.sink path).lifted BuildDirectory), [.created path]),
        (b.createSource s name w).1.2), (b.createSource s name w).2) := by
  change (match (b.createSource s name w).1.1 with
    | .error f => pure (.error f, [])
    | .ok path => pure (.ok ((s.sink path).lifted BuildDirectory), [.created path]) :
      StateT BuildDirectory (StateM W) (Except Fault (Sink (StateT BuildDirectory (StateM W))) ×
        List Notice)) (b.createSource s name w).1.2 (b.createSource s name w).2 = _
  cases (b.createSource s name w).1.1 <;> rfl

end

namespace BuildDirectory

theorem refusal?_eq_some_iff (b : BuildDirectory) (name : String) (f : Fault) :
    b.refusal? name = some f ↔
      Naming.isQualifiedName name = false ∧ f = .notQualified name ∨
      Naming.isQualifiedName name = true ∧ name ∈ b.created ∧ f = .alreadyCreated name := by
  unfold refusal?
  cases Naming.isQualifiedName name with
  | false => simp [eq_comm]
  | true =>
      by_cases h : name ∈ b.created
      · simp [h, eq_comm]
      · simp [h]

theorem refusal?_eq_none_iff (b : BuildDirectory) (name : String) :
    b.refusal? name = none ↔ Naming.isQualifiedName name = true ∧ name ∉ b.created := by
  unfold refusal?
  cases Naming.isQualifiedName name <;> by_cases h : name ∈ b.created <;> simp [h]

/-- Whatever becomes of a request, no more is written than the file of its name takes. -/
theorem writesOnly_createSource (here : Address) (b : BuildDirectory) (name : String) (t : Tree) :
    Tree.WritesOnly here (b.sourcePath name) t (b.createSource (Tree.store here) name t).2 := by
  have hmake := (Tree.careful_make here (b.sourcePath name)).leaves t
  rcases createSource_cases (Tree.store here) b name t with
    ⟨f, -, heq⟩ | ⟨-, f, -, heq⟩ | ⟨-, -, heq⟩
  · rw [heq]
    exact Tree.WritesOnly.refl here _ t
  · rw [heq]
    dsimp only
    exact hmake
  · rw [heq]
    dsimp only
    exact hmake

end BuildDirectory

end SwaggerRoutes.Files
