/-
  Proofs/Files/Overwriting.lean --- files that are written where something may be already.

  A file is made empty before anything is added to it, so what it held does not matter.  Once it has
  been written all directories around it are there, and it holds the text already, so writing it a
  second time gives the same tree, entry by entry.
-/
import SwaggerRoutes.Proofs.Files.Writing

set_option autoImplicit false

namespace SwaggerRoutes

/-! ## Tables -/

theorem putEntry_putEntry {κ α : Type} [DecidableEq κ] (k : κ) (a b : α) (es : List (κ × α)) :
    putEntry k b (putEntry k a es) = putEntry k b es := by
  induction es with
  | nil => simp [putEntry]
  | cons e es ih =>
      by_cases h : e.1 = k
      · simp [putEntry, h]
      · simp [putEntry, h, ih]

theorem putEntry_of_valueOf? {κ α : Type} [DecidableEq κ] {k : κ} {a : α} {es : List (κ × α)}
    (h : valueOf? k es = some a) : putEntry k a es = es := by
  induction es with
  | nil => exact nomatch h
  | cons e es ih =>
      unfold valueOf? at h
      unfold putEntry
      split at h
      · next heq =>
        rw [if_pos heq, ← Option.some.inj h]
      · next hne =>
        rw [if_neg hne, ih h]

namespace Table

variable {κ α : Type} [DecidableEq κ]

/-- Of two values that are given to a key in a row only the second one is seen. -/
theorem insert_insert (t : Table κ α) (k : κ) (a b : α) :
    (t.insert k a).insert k b = t.insert k b :=
  ext (putEntry_putEntry k a b t.entries)

/-- Giving a key the value that it has changes nothing. -/
theorem insert_of_get? {t : Table κ α} {k : κ} {a : α} (h : t.get? k = some a) :
    t.insert k a = t :=
  ext (putEntry_of_valueOf? h)

end Table

namespace Files

/-! ## Writing once more -/

namespace Tree

variable {here : Address} {path : String} {t t' t'' : Tree} {a : Address} {c c' : List UInt8}

theorem eq_of_entries (h : t.entries = t'.entries) : t = t' := by
  cases t
  cases t'
  cases h
  rfl

theorem entries_of_putFile (h : t.putFile a c = .ok t') :
    t'.entries = t.entries.insert a (.file c) := by
  cases a with
  | nil => exact absurd h (by simp [putFile])
  | cons n up =>
      simp only [putFile] at h
      split at h
      · exact absurd h (by simp)
      · split at h
        · rw [← Except.ok.inj h]
          rfl
        · exact absurd h (by simp)

/-- A file that is made empty and then gets back what it held is as it was. -/
theorem eq_of_putFile_of_putFile (hfile : t.at? a = some (.file c)) (h : t.putFile a c' = .ok t')
    (h' : t'.putFile a c = .ok t'') : t'' = t := by
  have hget : t.entries.get? a = some (.file c) := by
    have hne : a ≠ [] := by
      rintro rfl
      rw [at?_nil] at hfile
      exact nomatch hfile
    rwa [at?, entryAt?, if_neg hne] at hfile
  refine eq_of_entries ?_
  rw [entries_of_putFile h', entries_of_putFile h, Table.insert_insert, Table.insert_of_get? hget]

theorem isDirectory_eq_true_iff (t : Tree) (here : Address) (path : String) :
    t.isDirectory here path = true ↔ t.resolve here path = .ok (addressOf here path) ∧
      t.at? (addressOf here path) = some .directory := by
  unfold isDirectory
  split
  · next e he => simp [he]
  · next a ha =>
    obtain rfl := eq_addressOf_of_resolve ha
    simp [ha]

theorem KeepsDirectories.isDirectory (h : KeepsDirectories t t')
    (hp : t.isDirectory here path = true) : t'.isDirectory here path = true := by
  rw [isDirectory_eq_true_iff] at hp ⊢
  exact ⟨h.resolve hp.1, h _ hp.2⟩

/-- A directory that has been made is there. -/
theorem isDirectory_of_createDirectory (hnormal : normal path = path)
    (h : t.createDirectory here path = .ok t') : t'.isDirectory here path = true := by
  have hadds := addsDirectories_of_createDirectory h
  have hkeeps : KeepsDirectories t t' := by
    intro b hb
    rcases hadds b with hsame | ⟨hnone, -, -⟩
    · rw [hsame, hb]
    · rw [hb] at hnone
      exact nomatch hnone
  unfold createDirectory at h
  rw [hnormal] at h
  obtain ⟨b, hresolve, h⟩ := ok_of_bind h
  obtain rfl := eq_addressOf_of_resolve hresolve
  rw [isDirectory_eq_true_iff]
  refine ⟨hkeeps.resolve hresolve, ?_⟩
  cases haddress : addressOf here path with
  | nil => exact at?_nil t'
  | cons n up =>
      rw [haddress] at h
      dsimp only at h
      split at h
      · exact absurd h (by simp)
      · split at h
        · rw [← Except.ok.inj h, at?_put, if_pos rfl]
        · exact absurd h (by simp)

/-- A directory that is there cannot be made. -/
theorem createDirectory_of_isDirectory (hnormal : normal path = path)
    (h : t.isDirectory here path = true) :
    t.createDirectory here path = .error .alreadyThere := by
  obtain ⟨hresolve, hdirectory⟩ := (isDirectory_eq_true_iff t here path).mp h
  unfold createDirectory
  rw [hnormal, hresolve]
  simp only [bind, Except.bind]
  split
  · rfl
  · next n up haddress =>
    rw [haddress] at hdirectory
    rw [if_pos (by rw [hdirectory]; rfl)]

theorem run_unlessThere (here : Address) (p : String) (f : Fault) (t : Tree) :
    (store here).unlessThere p f t =
      (if t.isDirectory here p then .ok () else .error f, t) := by
  change (if t.isDirectory here p then pure (.ok ()) else pure (.error f) :
    StateM Tree (Except Fault Unit)) t = _
  split <;> rfl

theorem isDirectory_of_unlessThere {p : String} {f : Fault}
    (h : (store here).unlessThere p f t = (.ok (), t')) : t'.isDirectory here p = true := by
  rw [run_unlessThere] at h
  obtain ⟨hresult, rfl⟩ := Prod.mk.inj h
  split at hresult
  · assumption
  · exact absurd hresult (by simp)

/-- A directory that has been made, or found, is there. -/
theorem isDirectory_of_createDirectories {p : String} (hnormal : normal p = p)
    {outer : List String} (h : (store here).createDirectories (p :: outer) t = (.ok (), t')) :
    t'.isDirectory here p = true := by
  have hmade {t₁ t₂ : Tree} (hrun : (store here).createDirectory p t₁ = (.ok (), t₂)) :
      t₂.isDirectory here p = true :=
    isDirectory_of_createDirectory hnormal ((createDirectory_eq_ok_iff here p t₁ t₂).mp hrun).2
  rw [createDirectories_cons, run_bind] at h
  cases hrun : (store here).createDirectory p t with
  | mk r t₁ =>
      rw [hrun] at h
      cases r with
      | ok u =>
          obtain rfl : t₁ = t' := (Prod.mk.inj h).2
          exact hmade hrun
      | error f =>
          dsimp only at h
          split at h
          · -- the directory around it was missing, and was made first
            rw [run_bind] at h
            generalize (store here).createDirectories outer t₁ = around at h
            obtain ⟨ro, t₂⟩ := around
            cases ro with
            | error f => exact absurd (Prod.mk.inj h).1 (by simp)
            | ok u =>
                dsimp only at h
                rw [run_bind] at h
                cases hrun' : (store here).createDirectory p t₂ with
                | mk r t₃ =>
                    rw [hrun'] at h
                    cases r with
                    | ok u =>
                        obtain rfl : t₃ = t' := (Prod.mk.inj h).2
                        exact hmade hrun'
                    | error f => exact isDirectory_of_unlessThere h
          · exact isDirectory_of_unlessThere h

/-- A directory that is there is not made once more. -/
theorem createDirectories_of_isDirectory {p : String} (hnormal : normal p = p)
    (h : t.isDirectory here p = true) (outer : List String) :
    (store here).createDirectories (p :: outer) t = (.ok (), t) := by
  have hrefused : ∃ f, (store here).createDirectory p t = (.error f, t) ∧ f ≠ .os .noEntry := by
    change ∃ f, attempt p (fun t => t.createDirectory here p) t = _ ∧ _
    rw [attempt, asked, createDirectory_of_isDirectory hnormal h]
    by_cases htell : isTellable p = true
    · rw [if_pos htell]
      exact ⟨_, rfl, by simp⟩
    · rw [if_neg htell]
      exact ⟨_, rfl, by simp⟩
  obtain ⟨f, hf, hne⟩ := hrefused
  rw [createDirectories_cons, run_bind, hf]
  dsimp only
  rw [if_neg hne, run_unlessThere, if_pos h]

/-- Directories that have been made are not made once more, as long as none is lost. -/
theorem createDirectories_again {ps : List String} (hps : ∀ p ∈ ps, normal p = p)
    (h : (store here).createDirectories ps t = (.ok (), t')) (hkeeps : KeepsDirectories t' t'') :
    (store here).createDirectories ps t'' = (.ok (), t'') := by
  cases ps with
  | nil => rfl
  | cons p outer =>
      have hnormal : normal p = p := hps p List.mem_cons_self
      have hthere := hkeeps.isDirectory (isDirectory_of_createDirectories hnormal h)
      exact createDirectories_of_isDirectory hnormal hthere outer

/-- A file that is made empty and then added to holds what was added, whatever it held before. -/
theorem setsFile_of_create_of_append {bytes : List UInt8} (hcreate : t.create here path = .ok t')
    (happend : t'.append here path bytes = .ok t'') :
    SetsFile (addressOf here path) bytes t t'' ∧ t''.read here path = .ok bytes := by
  obtain ⟨hresolve, hempty⟩ := setsFile_of_create hcreate
  have hresolve' := hempty.keepsDirectories.resolve hresolve
  obtain ⟨t₁, happend', hset⟩ := append_of_file hresolve' hempty.at?_self bytes
  obtain rfl : t₁ = t'' := Except.ok.inj (happend'.symm.trans happend)
  rw [List.nil_append] at hset
  refine ⟨hempty.trans hset, (read_eq_ok_iff _ here path bytes).mpr ⟨?_, hset.at?_self⟩⟩
  exact hset.keepsDirectories.resolve hresolve'

/-- A file that is made empty and gets back what it held is as it was. -/
theorem exists_create_append (h : t.read here path = .ok c) :
    ∃ t', t.create here path = .ok t' ∧ t'.append here path c = .ok t := by
  obtain ⟨hresolve, hfile⟩ := (read_eq_ok_iff t here path c).mp h
  obtain ⟨t', hempty⟩ := exists_putFile_of_file hfile []
  have hset := setsFile_of_putFile hempty
  have hresolve' := hset.keepsDirectories.resolve hresolve
  obtain ⟨t'', hback⟩ := exists_putFile_of_file hset.at?_self c
  obtain rfl := eq_of_putFile_of_putFile hfile hempty hback
  refine ⟨t', ?_, ?_⟩
  · rw [create, hresolve]
    exact hempty
  · rw [append, (read_eq_ok_iff t' here path []).mpr ⟨hresolve', hset.at?_self⟩, hresolve']
    exact hback

end Tree

section

variable {W : Type} {path text : String}

/-- A file is written in three steps. -/
theorem ok_of_writeFile {s : Store (StateM W)} {w w' : W}
    (h : Generator.writeFile s path text w = (.ok (), w')) :
    ∃ w₁ w₂, s.createDirectories (parents path) w = (.ok (), w₁) ∧
      s.create path w₁ = (.ok (), w₂) ∧ s.append path (Text.utf8 text) w₂ = (.ok (), w') := by
  rw [Generator.writeFile, run_bind] at h
  cases hmade : s.createDirectories (parents path) w with
  | mk r w₁ =>
      rw [hmade] at h
      cases r with
      | error f => exact absurd (Prod.mk.inj h).1 (by simp)
      | ok u =>
          dsimp only at h
          rw [run_bind] at h
          cases hcreated : s.create path w₁ with
          | mk r w₂ =>
              rw [hcreated] at h
              cases r with
              | error f => exact absurd (Prod.mk.inj h).1 (by simp)
              | ok u => exact ⟨w₁, w₂, rfl, hcreated, h⟩

/-- On any machine a file that has been written holds the text. -/
theorem read_of_writeFile {s : Store (StateM W)} {here : Address} {tree : W → Tree}
    (hs : s.Carries here tree) {w w' : W} (h : Generator.writeFile s path text w = (.ok (), w')) :
    (tree w').read here path = .ok (Text.utf8 text) := by
  obtain ⟨w₁, w₂, -, hcreated, happended⟩ := ok_of_writeFile h
  have hcreate := (hs.create path).ok w₁ (by rw [hcreated])
  have happend := (hs.append path (Text.utf8 text)).ok w₂ (by rw [happended])
  rw [hcreated] at hcreate
  rw [happended] at happend
  exact (Tree.setsFile_of_create_of_append hcreate happend).2

/-- A file that has been written is not changed by writing it once more. -/
theorem writeFile_again {here : Address} {t t' : Tree}
    (h : Generator.writeFile (Tree.store here) path text t = (.ok (), t')) :
    Generator.writeFile (Tree.store here) path text t' = (.ok (), t') := by
  obtain ⟨t₁, t₂, hmade, hcreated, happended⟩ := ok_of_writeFile h
  obtain ⟨htell, hcreate⟩ := (Tree.create_eq_ok_iff here path t₁ t₂).mp hcreated
  obtain ⟨-, happend⟩ := (Tree.append_eq_ok_iff here path _ t₂ t').mp happended
  obtain ⟨hset, hread⟩ := Tree.setsFile_of_create_of_append hcreate happend
  have hmade' := Tree.createDirectories_again (fun p hp => (isAround_of_mem_parents hp).2) hmade
    hset.keepsDirectories
  obtain ⟨t₃, hcreate', happend'⟩ := Tree.exists_create_append hread
  have hcreated' : (Tree.store here).create path t' = (.ok (), t₃) :=
    (Tree.create_eq_ok_iff here path t' t₃).mpr ⟨htell, hcreate'⟩
  have happended' : (Tree.store here).append path (Text.utf8 text) t₃ = (.ok (), t') :=
    (Tree.append_eq_ok_iff here path _ t₃ t').mpr ⟨htell, happend'⟩
  rw [Generator.writeFile, run_bind, hmade']
  dsimp only
  rw [run_bind, hcreated']
  exact happended'

end

end Files

end SwaggerRoutes
