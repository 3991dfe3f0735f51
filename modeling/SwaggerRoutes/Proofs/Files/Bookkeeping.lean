/-
  Proofs/Files/Bookkeeping.lean --- a build directory that serves one request after another.

  Between requests others may do what they like, and any operation of the store may fail.  The books
  of the build directory depend on its answers only: they list the names of the requests that were
  granted, in order.  In a tree, what was written for one name is never touched for another, since
  the files of different names are at different addresses and no directory is ever written over.
-/
import Mathlib.Data.List.Nodup
import SwaggerRoutes.Proofs.Files.Writing

set_option autoImplicit false

namespace SwaggerRoutes.Files

/-- Writes bytes piece by piece, and flushes. -/
def Sink.put {m : Type → Type} [Monad m] (s : Sink m) :
    List (List UInt8) → m (Except Fault Unit)
  | [] => s.flush
  | c :: cs => do
    match ← s.writeAll c with
    | .error f => return .error f
    | .ok () => s.put cs

namespace BuildDirectory

/-! ## Requests -/

/-- What a build directory has to serve. -/
structure Request (W : Type) where
  /-- What others do before. -/
  others : W → W
  /-- The name for which a source file is asked. -/
  name : String
  /-- The bytes that are written if there is a sink. -/
  chunks : List (List UInt8)

variable {W : Type}

/-- Serves a request.  The answer says whether there was a sink. -/
def serve (s : Store (StateM W)) (x : Request W) :
    StateT BuildDirectory (StateM W) (Except Fault Unit) := do
  StateT.lift (modify x.others)
  let (opened, _) ← (filer s).openSource x.name
  match opened with
  | .error f => return .error f
  | .ok sink =>
    let _ ← sink.put x.chunks
    return .ok ()

/-- The requests that were granted. -/
def granted (xs : List (Request W)) (answers : List (Except Fault Unit)) : List (Request W) :=
  ((xs.zip answers).filter fun p => p.2.isOk).map Prod.fst

theorem granted_cons (x : Request W) (xs : List (Request W)) (answer : Except Fault Unit)
    (answers : List (Except Fault Unit)) :
    granted (x :: xs) (answer :: answers) =
      (if answer.isOk then [x] else []) ++ granted xs answers := by
  unfold granted
  cases answer <;> simp [Except.isOk, Except.toBool]

theorem put_lifted {β : Type} (s : Sink (StateM W)) (chunks : List (List UInt8)) :
    (s.lifted β).put chunks = StateT.lift (s.put chunks) := by
  induction chunks with
  | nil => rfl
  | cons c cs ih =>
      rw [Sink.put, Sink.put, writeAll_lifted, lift_bind]
      refine bind_congr fun r => ?_
      cases r with
      | error f => rfl
      | ok u => exact ih

/-- Others act first.  A name that is refused changes nothing more; otherwise the file is made, and
if that succeeds it is noted and written to. -/
theorem serve_eq (s : Store (StateM W)) (x : Request W) (b : BuildDirectory) (w : W) :
    serve s x b w =
      match b.refusal? x.name with
      | some f => ((.error f, b), x.others w)
      | none =>
        match (s.make (b.sourcePath x.name) (x.others w)).1 with
        | .error f => ((.error f, b), (s.make (b.sourcePath x.name) (x.others w)).2)
        | .ok () =>
          ((.ok (), b.note x.name), ((s.sink (b.sourcePath x.name)).put x.chunks
            (s.make (b.sourcePath x.name) (x.others w)).2).2) := by
  have hothers : (StateT.lift (modify x.others) : StateT BuildDirectory (StateM W) PUnit) b w =
      (((), b), x.others w) := rfl
  unfold serve
  rw [run_bind_bind, hothers, run_bind_bind, run_openSource]
  rcases createSource_cases s b x.name (x.others w) with
    ⟨f, hrefusal, heq⟩ | ⟨hrefusal, f, hmade, heq⟩ | ⟨hrefusal, hmade, heq⟩
  · rw [heq, hrefusal]
    rfl
  · rw [heq, hrefusal]
    dsimp only
    rw [hmade]
    rfl
  · rw [heq, hrefusal]
    dsimp only
    rw [hmade, put_lifted, run_bind_bind, run_lift]
    rfl

/-! ## The books -/

/-- The books of a build directory in which the files of some names were made, in order. -/
structure Books (root : String) (names : List String) (b : BuildDirectory) : Prop where
  place : b.root = root
  created : b.created = names.reverse
  generated : b.generated = names.map (Files.sourcePath root)
  qualified : ∀ n ∈ names, Naming.isQualifiedName n = true
  nodup : names.Nodup

theorem books_rootedAt (root : String) : Books root [] (rootedAt root) :=
  ⟨rfl, rfl, rfl, fun _ h => absurd h List.not_mem_nil, List.nodup_nil⟩

theorem Books.mem_created_iff {root : String} {names : List String} {b : BuildDirectory}
    (h : Books root names b) (name : String) : name ∈ b.created ↔ name ∈ names := by
  rw [h.created, List.mem_reverse]

theorem Books.length_created {root : String} {names : List String} {b : BuildDirectory}
    (h : Books root names b) : b.created.length = b.generated.length := by
  rw [h.created, h.generated, List.length_reverse, List.length_map]

/-- Different names have different paths. -/
theorem Books.nodup_generated {root : String} {names : List String} {b : BuildDirectory}
    (h : Books root names b) : b.generated.Nodup := by
  rw [h.generated]
  refine List.Nodup.map_on (fun m hm n hn heq => ?_) h.nodup
  have haddress : addressOf [] (Files.sourcePath root m) = addressOf [] (Files.sourcePath root n) :=
    congrArg (addressOf []) heq
  exact addressOf_sourcePath_injective (h.qualified m hm) (h.qualified n hn) haddress

/-- A name that is not refused is noted, and the books stay in order. -/
theorem Books.note {root : String} {names : List String} {b : BuildDirectory}
    (h : Books root names b) {name : String} (hname : b.refusal? name = none) :
    Books root (names ++ [name]) (b.note name) := by
  obtain ⟨hqualified, hfree⟩ := (b.refusal?_eq_none_iff name).mp hname
  rw [h.mem_created_iff] at hfree
  refine ⟨h.place, ?_, ?_, ?_, ?_⟩
  · rw [BuildDirectory.note, h.created]
    simp
  · rw [BuildDirectory.note, h.generated, sourcePath, h.place]
    simp
  · intro n hn
    rcases List.mem_append.mp hn with hn | hn
    · exact h.qualified n hn
    · rw [List.mem_singleton.mp hn]
      exact hqualified
  · rw [List.nodup_append_comm, List.singleton_append, List.nodup_cons]
    exact ⟨hfree, h.nodup⟩

/-- A request that is granted adds its name to the books, and another leaves them alone. -/
theorem Books.serve {root : String} {names : List String} {b : BuildDirectory}
    (h : Books root names b) (s : Store (StateM W)) (x : Request W) (w : W) :
    Books root (names ++ if (serve s x b w).1.1.isOk then [x.name] else [])
      (serve s x b w).1.2 := by
  rw [serve_eq]
  cases hrefusal : b.refusal? x.name with
  | some f => simpa [Except.isOk, Except.toBool] using h
  | none =>
      dsimp only
      cases (s.make (b.sourcePath x.name) (x.others w)).1 with
      | error f => simpa [Except.isOk, Except.toBool] using h
      | ok u => simpa [Except.isOk, Except.toBool] using h.note hrefusal

theorem serve_mapM_nil (s : Store (StateM W)) (b : BuildDirectory) (w : W) :
    [].mapM (serve s) b w = (([], b), w) := by
  rw [List.mapM_nil]
  rfl

theorem serve_mapM_cons (s : Store (StateM W)) (x : Request W) (xs : List (Request W))
    (b : BuildDirectory) (w : W) :
    (x :: xs).mapM (serve s) b w =
      ((((serve s x b w).1.1 :: (xs.mapM (serve s) (serve s x b w).1.2 (serve s x b w).2).1.1,
        (xs.mapM (serve s) (serve s x b w).1.2 (serve s x b w).2).1.2)),
        (xs.mapM (serve s) (serve s x b w).1.2 (serve s x b w).2).2) := by
  rw [List.mapM_cons, run_bind_bind]
  rfl

/-- After any requests the books list the names of those that were granted. -/
theorem Books.serve_all {root : String} (s : Store (StateM W)) (xs : List (Request W)) :
    ∀ {names : List String} {b : BuildDirectory}, Books root names b → ∀ w : W,
      (xs.mapM (BuildDirectory.serve s) b w).1.1.length = xs.length ∧
      Books root (names ++ (granted xs (xs.mapM (BuildDirectory.serve s) b w).1.1).map Request.name)
        (xs.mapM (BuildDirectory.serve s) b w).1.2 := by
  induction xs with
  | nil => 
      intro names b h w
      rw [serve_mapM_nil]
      exact ⟨rfl, by simpa [granted] using h⟩
  | cons x xs ih =>
      intro names b h w
      obtain ⟨hlength, hbooks⟩ := ih (h.serve s x w) (BuildDirectory.serve s x b w).2
      rw [serve_mapM_cons, granted_cons]
      refine ⟨by simpa using hlength, ?_⟩
      rw [List.append_assoc] at hbooks
      rw [List.map_append]
      convert hbooks using 3
      split <;> rfl

/-! ## The files -/

section

open SwaggerRoutes.Files.Tree

variable {here : Address} {root : String} {t t' : Tree}

/-- What is written to the sink of a file ends up in it, piece after piece. -/
theorem setsFile_put {path : String} (htell : isTellable path = true)
    (chunks : List (List UInt8)) :
    ∀ {t : Tree} {c : List UInt8}, t.resolve here path = .ok (addressOf here path) →
      t.at? (addressOf here path) = some (.file c) →
      SetsFile (addressOf here path) (c ++ chunks.flatten) t
        (((Tree.store here).sink path).put chunks t).2 := by
  induction chunks with
  | nil =>
      intro t c hresolve hfile
      refine ⟨by simp [hfile], fun b => ?_⟩
      rw [List.flatten_nil, List.append_nil]
      change t.at? b = _
      split
      · next hab => rw [← hab, hfile]
      · rfl
  | cons chunk chunks ih =>
      intro t c hresolve hfile
      rw [Sink.put, writeAll_sink, List.flatten_cons]
      split
      · next hempty =>
        subst hempty
        rw [List.nil_append]
        exact ih hresolve hfile
      · obtain ⟨t', happend, hset⟩ := append_of_file hresolve hfile chunk
        have hattempt : (Tree.store here).append path chunk t = (.ok (), t') :=
          (append_eq_ok_iff here path chunk t t').mpr ⟨htell, happend⟩
        rw [run_bind, hattempt, ← List.append_assoc]
        exact hset.trans (ih (hset.keepsDirectories.resolve hresolve) hset.at?_self)

/-- The file of a request is in a tree, and if directories are kept its path still leads to it. -/
structure Stands (here : Address) (root : String) (keeps : Prop) (t : Tree) (x : Request Tree) :
    Prop where
  holds : t.at? (addressOf here (Files.sourcePath root x.name)) = some (.file x.chunks.flatten)
  leads : keeps → t.resolve here (Files.sourcePath root x.name) =
    .ok (addressOf here (Files.sourcePath root x.name))

/-- Others leave alone what is below a root. -/
def LeavesBelow (here : Address) (root : String) (others : Tree → Tree) : Prop :=
  ∀ t a, addressOf here root <:+ a → a ≠ addressOf here root → (others t).at? a = t.at? a

variable {keeps : Prop} {x y : Request Tree}

theorem Stands.others (h : Stands here root keeps t y)
    (hy : Naming.isQualifiedName y.name = true) (hbelow : LeavesBelow here root x.others)
    (hkeeps : keeps → ∀ t, KeepsDirectories t (x.others t)) :
    Stands here root keeps (x.others t) y := by
  have haddress := (goesDown_sourcePath root hy).address here
  have hsome : sourceNames y.name ≠ [] := by simp [sourceNames]
  refine ⟨?_, fun hk => (hkeeps hk t).resolve (h.leads hk)⟩
  rw [hbelow t, h.holds]
  · rw [haddress]
    exact List.suffix_append _ _
  · rw [haddress]
    simpa using hsome

/-- Writing the file of another name is no harm. -/
theorem Stands.writesOnly (h : Stands here root keeps t y)
    (hy : Naming.isQualifiedName y.name = true) {name : String}
    (hname : Naming.isQualifiedName name = true) (hne : name ≠ y.name)
    (hwrites : WritesOnly here (Files.sourcePath root name) t t') :
    Stands here root keeps t' y := by
  have haddress : addressOf here (Files.sourcePath root y.name) ≠
      addressOf here (Files.sourcePath root name) :=
    fun heq => hne (addressOf_sourcePath_injective hy hname heq).symm
  exact ⟨hwrites.at?_eq haddress h.holds, fun hk => hwrites.keepsDirectories.resolve (h.leads hk)⟩

/-- A request leaves the files of those before it as they are, and if it is granted its own is
there. -/
theorem stands_serve {ys : List (Request Tree)} {b : BuildDirectory}
    (hb : Books root (ys.map Request.name) b) (hbelow : LeavesBelow here root x.others)
    (hkeeps : keeps → ∀ t, KeepsDirectories t (x.others t))
    (h : ∀ y ∈ ys, Stands here root keeps t y) :
    ∀ y ∈ ys ++ (if (serve (Tree.store here) x b t).1.1.isOk then [x] else []),
      Stands here root keeps (serve (Tree.store here) x b t).2 y := by
  have hplace : b.sourcePath x.name = Files.sourcePath root x.name := by
    rw [BuildDirectory.sourcePath, hb.place]
  have hqualified : ∀ y ∈ ys, Naming.isQualifiedName y.name = true :=
    fun y hy => hb.qualified y.name (List.mem_map_of_mem hy)
  have hothers : ∀ y ∈ ys, Stands here root keeps (x.others t) y :=
    fun y hy => (h y hy).others (hqualified y hy) hbelow hkeeps
  rw [serve_eq, hplace]
  cases hrefusal : b.refusal? x.name with
  | some f => simpa [Except.isOk, Except.toBool] using hothers
  | none =>
      obtain ⟨hname, hfree⟩ := (b.refusal?_eq_none_iff x.name).mp hrefusal
      have hne : ∀ y ∈ ys, x.name ≠ y.name := by
        intro y hy heq
        rw [hb.mem_created_iff, heq] at hfree
        exact hfree (List.mem_map_of_mem hy)
      have hwrites := (careful_make here (Files.sourcePath root x.name)).leaves (x.others t)
      have hkept : ∀ y ∈ ys, Stands here root keeps
          ((Tree.store here).make (Files.sourcePath root x.name) (x.others t)).2 y :=
        fun y hy => (hothers y hy).writesOnly (hqualified y hy) hname (hne y hy) hwrites
      dsimp only
      cases hmade : ((Tree.store here).make (Files.sourcePath root x.name) (x.others t)).1 with
      | error f => simpa [Except.isOk, Except.toBool] using hkept
      | ok u =>
          obtain ⟨htell, hresolve, hfile⟩ := resolve_of_make hmade
          have hset := setsFile_put htell x.chunks hresolve hfile
          intro y hy
          rcases List.mem_append.mp hy with hy | hy
          · exact (hkept y hy).writesOnly (hqualified y hy) hname (hne y hy) hset.writesOnly
          · obtain rfl : y = x := by simpa [Except.isOk, Except.toBool] using hy
            exact ⟨by simpa using hset.at?_self, fun _ => hset.keepsDirectories.resolve hresolve⟩

/-- After any requests the files of those that were granted are there. -/
theorem stands_serve_all (xs : List (Request Tree)) :
    ∀ {ys : List (Request Tree)} {b : BuildDirectory} {t : Tree},
      Books root (ys.map Request.name) b → (∀ x ∈ xs, LeavesBelow here root x.others) →
      (keeps → ∀ x ∈ xs, ∀ t, KeepsDirectories t (x.others t)) →
      (∀ y ∈ ys, Stands here root keeps t y) →
      ∀ y ∈ ys ++ granted xs (xs.mapM (serve (Tree.store here)) b t).1.1,
        Stands here root keeps (xs.mapM (serve (Tree.store here)) b t).2 y := by
  induction xs with
  | nil =>
      intro ys b t _ _ _ h
      rw [serve_mapM_nil]
      simpa [granted] using h
  | cons x xs ih =>
      intro ys b t hb hbelow hkeeps h
      have hstep := stands_serve hb (hbelow x List.mem_cons_self)
        (fun hk => hkeeps hk x List.mem_cons_self) h
      have hbooks := hb.serve (Tree.store here) x t
      have hnames : ys.map Request.name ++
          (if (serve (Tree.store here) x b t).1.1.isOk then [x.name] else []) =
          (ys ++ if (serve (Tree.store here) x b t).1.1.isOk then [x] else []).map
            Request.name := by
        rw [List.map_append]
        split <;> rfl
      rw [hnames] at hbooks
      have hrest := ih hbooks (fun y hy => hbelow y (List.mem_cons_of_mem x hy))
        (fun hk y hy => hkeeps hk y (List.mem_cons_of_mem x hy)) hstep
      rw [serve_mapM_cons, granted_cons, ← List.append_assoc]
      exact hrest

end

/-! ## Whole runs -/

/-- A build directory that is new refuses no name but those that are not qualified. -/
theorem refusal?_rootedAt {b : BuildDirectory} {name : String} (h : name ∉ b.created)
    (root : String) : (rootedAt root).refusal? name = b.refusal? name := by
  simp [refusal?, rootedAt, h]

/-- What a request leads to depends on the books only if its name is in them. -/
theorem serve_rootedAt {b : BuildDirectory} (s : Store (StateM W)) {x : Request W}
    (h : x.name ∉ b.created) (w : W) :
    (serve s x b w).1.1 = (serve s x (rootedAt b.root) w).1.1 ∧
      (serve s x b w).2 = (serve s x (rootedAt b.root) w).2 := by
  rw [serve_eq, serve_eq, refusal?_rootedAt h]
  cases b.refusal? x.name with
  | some f => exact ⟨rfl, rfl⟩
  | none =>
      have hpath : (rootedAt b.root).sourcePath x.name = b.sourcePath x.name := rfl
      rw [hpath]
      dsimp only
      cases (s.make (b.sourcePath x.name) (x.others w)).1 <;> exact ⟨rfl, rfl⟩

/-- A request is granted if its name is not refused and its file can be made. -/
theorem answer_serve (s : Store (StateM W)) (x : Request W) (b : BuildDirectory) (w : W) :
    (serve s x b w).1.1 =
      match b.refusal? x.name with
      | some f => .error f
      | none => (s.make (b.sourcePath x.name) (x.others w)).1 := by
  rw [serve_eq]
  cases b.refusal? x.name with
  | some f => rfl
  | none =>
      dsimp only
      cases (s.make (b.sourcePath x.name) (x.others w)).1 <;> rfl

/-- A request that is not granted leaves the books alone. -/
theorem books_of_error (s : Store (StateM W)) (x : Request W) (b : BuildDirectory) (w : W)
    {f : Fault} (h : (serve s x b w).1.1 = .error f) : (serve s x b w).1.2 = b := by
  rw [serve_eq] at h ⊢
  cases hrefusal : b.refusal? x.name with
  | some f => rfl
  | none =>
      rw [hrefusal] at h
      dsimp only at h ⊢
      cases hmade : (s.make (b.sourcePath x.name) (x.others w)).1 with
      | error f => rfl
      | ok u =>
          rw [hmade] at h
          exact nomatch h

/-- A build directory that serves any requests has the names of those that it granted in its books,
in order and each once, whatever others do in between and however the store fails.  It does not
grant one of these names again, and serves any other as if it had served none; no failure is noted.
In a tree, if others leave alone what is below the root, the file of each name that was granted
holds what was written for it to the end, in directories that are all there. -/
theorem served (root : String) :
    (∀ (W : Type) (s : Store (StateM W)) (xs : List (Request W)) (w : W),
      let run := xs.mapM (serve s) (rootedAt root) w
      let names := (granted xs run.1.1).map Request.name
      let b := run.1.2
      run.1.1.length = xs.length ∧ b.root = root ∧ b.created = names.reverse ∧
      b.generated = names.map (Files.sourcePath root) ∧
      names.Nodup ∧ b.generated.Nodup ∧ b.created.length = b.generated.length ∧
      ∀ x : Request W,
        (x.name ∈ names →
          serve s x b run.2 = ((.error (.alreadyCreated x.name), b), x.others run.2)) ∧
        (∀ f, (serve s x b run.2).1.1 = .error f → (serve s x b run.2).1.2 = b) ∧
        (x.name ∉ names →
          (serve s x b run.2).1.1 = (serve s x (rootedAt root) run.2).1.1 ∧
          (serve s x b run.2).2 = (serve s x (rootedAt root) run.2).2)) ∧
    ∀ (here : Address) (xs : List (Request Tree)) (t : Tree),
      (∀ x ∈ xs, LeavesBelow here root x.others) →
      let run := xs.mapM (serve (Tree.store here)) (rootedAt root) t
      ∀ x ∈ granted xs run.1.1,
        let path := Files.sourcePath root x.name
        run.2.at? (addressOf here path) = some (.file x.chunks.flatten) ∧
        (∀ a, a <:+ addressOf here path → a ≠ addressOf here path →
          run.2.at? a = some .directory) ∧
        (∀ c, run.2.read here path = .ok c → c = x.chunks.flatten) ∧
        ((∀ y ∈ xs, ∀ t, Tree.KeepsDirectories t (y.others t)) →
          run.2.read here path = .ok x.chunks.flatten) := by
  refine ⟨fun W s xs w => ?_, fun here xs t hbelow => ?_⟩
  · obtain ⟨hlength, hbooks⟩ := (books_rootedAt root).serve_all s xs w
    intro run names b
    rw [List.nil_append] at hbooks
    refine ⟨hlength, hbooks.place, hbooks.created, hbooks.generated, hbooks.nodup,
      hbooks.nodup_generated, ?_, fun x => ⟨fun hx => ?_, fun f => ?_, fun hx => ?_⟩⟩
    · exact hbooks.length_created
    · have hrefusal := (b.refusal?_eq_some_iff x.name (.alreadyCreated x.name)).mpr
        (.inr ⟨hbooks.qualified x.name hx, (hbooks.mem_created_iff x.name).mpr hx, rfl⟩)
      rw [serve_eq, hrefusal]
    · exact books_of_error s x b run.2
    · have hfree : x.name ∉ b.created := fun h => hx ((hbooks.mem_created_iff x.name).mp h)
      have hfresh := serve_rootedAt s hfree run.2
      rwa [hbooks.place] at hfresh
  · intro run x hx path
    have hall : ∀ y ∈ [] ++ granted xs run.1.1,
        Stands here root (∀ y ∈ xs, ∀ t, Tree.KeepsDirectories t (y.others t)) run.2 y :=
      stands_serve_all xs (books_rootedAt root) hbelow (fun hk => hk)
        fun y hy => absurd hy List.not_mem_nil
    have hstands := hall x (by simpa using hx)
    refine ⟨hstands.holds, fun a => ?_, fun c hc => ?_, fun hk => ?_⟩
    · exact Tree.directory_of_suffix (by rw [hstands.holds]; rfl)
    · have hfile := ((Tree.read_eq_ok_iff _ _ _ _).mp hc).2
      rw [hstands.holds] at hfile
      simpa using hfile.symm
    · exact (Tree.read_eq_ok_iff _ _ _ _).mpr ⟨hstands.leads hk, hstands.holds⟩

/-- A request for a file of two bytes, written one by one. -/
def twoBytes : Request Tree := ⟨id, "a.B", [[1], [2]]⟩

theorem granted_twoBytes :
    granted [twoBytes] ([twoBytes].mapM (serve (Tree.store [])) (rootedAt "out") .empty).1.1 =
      [twoBytes] := by
  have hanswer : (serve (Tree.store []) twoBytes (rootedAt "out") .empty).1.1 = .ok () := by
    rw [answer_serve]
    rfl
  rw [serve_mapM_cons, granted_cons, hanswer, serve_mapM_nil]
  rfl

/-- After it the same name is refused, another is not, and the two bytes are there. -/
theorem served_of_two_bytes :
    let run := [twoBytes].mapM (serve (Tree.store [])) (rootedAt "out") .empty
    let b := run.1.2
    serve (Tree.store []) ⟨id, "a.B", [[3]]⟩ b run.2 =
      ((.error (.alreadyCreated "a.B"), b), run.2) ∧
    (serve (Tree.store []) ⟨id, "a.C", []⟩ b run.2).1.1 =
      (serve (Tree.store []) ⟨id, "a.C", []⟩ (rootedAt "out") run.2).1.1 ∧
    run.2.at? (addressOf [] (Files.sourcePath "out" "a.B")) = some (.file [1, 2]) ∧
    run.2.read [] (Files.sourcePath "out" "a.B") = .ok [1, 2] := by
  have hbelow : ∀ x ∈ [twoBytes], LeavesBelow [] "out" x.others := by
    intro x hx
    rw [List.mem_singleton.mp hx]
    exact fun t a _ _ => rfl
  have hkeeps : ∀ x ∈ [twoBytes], ∀ t, Tree.KeepsDirectories t (x.others t) := by
    intro x hx t a ha
    rw [List.mem_singleton.mp hx]
    exact ha
  have hbooks := (served "out").1 Tree (Tree.store []) [twoBytes] .empty
  have hfiles := (served "out").2 [] [twoBytes] .empty hbelow
  have hgranted := granted_twoBytes
  -- what the run leads to need not be computed
  generalize [twoBytes].mapM (serve (Tree.store [])) (rootedAt "out") .empty = run at *
  obtain ⟨-, -, -, -, -, -, -, hnext⟩ := hbooks
  rw [hgranted] at hnext
  have hfirst : twoBytes ∈ granted [twoBytes] run.1.1 := by
    rw [hgranted]
    exact List.mem_singleton_self twoBytes
  obtain ⟨hfile, -, -, hread⟩ := hfiles twoBytes hfirst
  exact ⟨(hnext ⟨id, "a.B", [[3]]⟩).1 (by decide),
    ((hnext ⟨id, "a.C", []⟩).2.2 (by decide)).1, hfile, hread hkeeps⟩

end BuildDirectory

end SwaggerRoutes.Files
