/-
  Proofs/Files/Change.lean --- what operations on paths change in a tree.

  There are no links in a tree, so a path leads to one address or nowhere, whatever the tree holds:
  `addressOf` says which.  An operation on a path changes nothing elsewhere.  Making the directories
  around a path only adds directories where nothing was, and writing a file changes what is at its
  own address; both leave every directory where it is, so paths that lead somewhere still do.
-/
import SwaggerRoutes.Files.Filer
import SwaggerRoutes.Proofs.Files.Names

set_option autoImplicit false

namespace SwaggerRoutes.Files

theorem ok_of_bind {ε α β : Type} {x : Except ε α} {f : α → Except ε β} {b : β}
    (h : x >>= f = .ok b) : ∃ a, x = .ok a ∧ f a = .ok b := by
  cases x with
  | error e => exact absurd h (by simp [bind, Except.bind])
  | ok a => exact ⟨a, rfl, h⟩

/-! ## Where paths lead -/

/-- Where a name leads from an address. -/
def lead (a : Address) (n : String) : Address :=
  if n = "" ∨ n = "." then a else if n = ".." then a.tail else n :: a

/-- Where a path leads from a working directory, if it leads anywhere. -/
def addressOf (here : Address) (path : String) : Address :=
  (names path).foldl lead (if isAbsolute path then [] else here)

theorem foldl_lead_namesOf (ps : List String) (a : Address) :
    (namesOf ps).foldl lead a = ps.foldl lead a := by
  have hfilter : ∀ (qs : List String) (b : Address),
      (qs.filter fun m => m ≠ "" ∧ m ≠ ".").foldl lead b = qs.foldl lead b := by
    intro qs
    induction qs with
    | nil => exact fun b => rfl
    | cons q qs ih =>
        intro b
        by_cases hq : q ≠ "" ∧ q ≠ "."
        · rw [List.filter_cons_of_pos (by simpa using hq), List.foldl_cons, List.foldl_cons, ih]
        · have hlead : lead b q = b := if_pos (by tauto)
          rw [List.filter_cons_of_neg (by simpa using hq), List.foldl_cons, hlead, ih]
  cases ps with
  | nil => rfl
  | cons p ps =>
      by_cases hp : p = ""
      · have hlead : lead a p = a := if_pos (.inl hp)
        rw [namesOf, if_pos hp, List.nil_append, hfilter, List.foldl_cons, hlead]
      · rw [namesOf, if_neg hp, List.singleton_append, List.foldl_cons, List.foldl_cons, hfilter]

theorem foldl_lead_of_isPlain {ns : List String} (h : ∀ n ∈ ns, IsPlain n) (a : Address) :
    ns.foldl lead a = ns.reverse ++ a := by
  induction ns generalizing a with
  | nil => rfl
  | cons n ns ih =>
      have hn : IsPlain n := h n List.mem_cons_self
      have hlead : lead a n = n :: a := by
        rw [lead, if_neg (by simp [hn.ne_empty, hn.ne_here]), if_neg hn.ne_around]
      rw [List.foldl_cons, hlead, ih fun m hm => h m (List.mem_cons_of_mem n hm)]
      simp

/-- A path goes down from a directory by plain names: it is written after the directory, and leads
below it. -/
structure GoesDown (dir path : String) (ns : List String) : Prop where
  plain : ∀ n ∈ ns, IsPlain n
  names : names path = names dir ++ ns
  absolute : isAbsolute path = isAbsolute dir
  address : ∀ here, addressOf here path = ns.reverse ++ addressOf here dir

/-- The file of a qualified name is below its root, under its own names. -/
theorem goesDown_sourcePath (root : String) {name : String}
    (h : Naming.isQualifiedName name = true) :
    GoesDown root (sourcePath root name) (sourceNames name) := by
  obtain ⟨hnames, habsolute⟩ := names_sourcePath root h
  have hplain := isPlain_of_mem_sourceNames h
  refine ⟨hplain, hnames, habsolute, fun here => ?_⟩
  rw [addressOf, hnames, habsolute, List.foldl_append, foldl_lead_of_isPlain hplain]
  rfl

/-- Different qualified names have files at different addresses. -/
theorem addressOf_sourcePath_injective {here : Address} {root m n : String}
    (hm : Naming.isQualifiedName m = true) (hn : Naming.isQualifiedName n = true)
    (h : addressOf here (sourcePath root m) = addressOf here (sourcePath root n)) : m = n := by
  rw [(goesDown_sourcePath root hm).address, (goesDown_sourcePath root hn).address,
    List.append_left_inj, List.reverse_inj] at h
  exact sourceNames_injective hm hn h

namespace Tree

/-- Names lead on from directories only, and one by one. -/
theorem follow_cons_eq_ok_iff (t : Tree) (a : Address) (n : String) (ns : List String)
    (b : Address) :
    t.follow a (n :: ns) = .ok b ↔
      t.at? a = some .directory ∧ n.utf8ByteSize ≤ nameLimit ∧ t.follow (lead a n) ns = .ok b := by
  rw [follow, lead]
  split
  · next h => simp [h]
  · next c h => simp [h]
  · next h =>
    split
    · next hn =>
      have hsize : n.utf8ByteSize ≤ nameLimit := by rcases hn with rfl | rfl <;> decide
      simp [h, hsize]
    · split
      · next hn =>
        have hsize : n.utf8ByteSize ≤ nameLimit := by rw [hn]; decide
        simp [h, hsize]
      · split
        · next hlimit => simp [Nat.not_le.mpr hlimit]
        · next hlimit => simp [h, Nat.not_lt.mp hlimit]

theorem eq_foldl_of_follow {t : Tree} {ns : List String} {a b : Address}
    (h : t.follow a ns = .ok b) : b = ns.foldl lead a := by
  induction ns generalizing a with
  | nil => exact (Except.ok.inj h).symm
  | cons n ns ih => exact ih ((follow_cons_eq_ok_iff t a n ns b).mp h).2.2

/-- A path leads to its address or nowhere. -/
theorem eq_addressOf_of_resolve {t : Tree} {here a : Address} {path : String}
    (h : t.resolve here path = .ok a) : a = addressOf here path := by
  unfold resolve at h
  split at h
  · exact absurd h (by simp)
  · split at h
    · exact absurd h (by simp)
    · rw [eq_foldl_of_follow h, addressOf, names_eq, foldl_lead_namesOf]
      rfl

/-- The first tree has all directories of the second one. -/
def KeepsDirectories (t t' : Tree) : Prop :=
  ∀ a, t.at? a = some .directory → t'.at? a = some .directory

theorem KeepsDirectories.follow {t t' : Tree} (h : KeepsDirectories t t') {ns : List String}
    {a b : Address} (hb : t.follow a ns = .ok b) : t'.follow a ns = .ok b := by
  induction ns generalizing a with
  | nil => exact hb
  | cons n ns ih =>
      obtain ⟨hdirectory, hsize, hrest⟩ := (follow_cons_eq_ok_iff t a n ns b).mp hb
      exact (follow_cons_eq_ok_iff t' a n ns b).mpr ⟨h a hdirectory, hsize, ih hrest⟩

/-- A path that leads somewhere still does when no directory is lost. -/
theorem KeepsDirectories.resolve {t t' : Tree} (h : KeepsDirectories t t') {here a : Address}
    {path : String} (ha : t.resolve here path = .ok a) : t'.resolve here path = .ok a := by
  unfold Tree.resolve at ha ⊢
  split at ha
  · exact absurd ha (by simp)
  · next hempty =>
    rw [if_neg hempty]
    split at ha
    · exact absurd ha (by simp)
    · next hlimit =>
      rw [if_neg hlimit]
      exact h.follow ha

end Tree

/-! ## Adding directories -/

namespace Tree

/-- Nothing is changed, except that directories are there now where nothing was, at addresses with a
property. -/
def AddsDirectories (P : Address → Prop) (t t' : Tree) : Prop :=
  ∀ a, t'.at? a = t.at? a ∨ t.at? a = none ∧ t'.at? a = some .directory ∧ P a

variable {P Q : Address → Prop} {t t' t'' : Tree}

theorem AddsDirectories.refl (P : Address → Prop) (t : Tree) : AddsDirectories P t t :=
  fun _ => .inl rfl

theorem AddsDirectories.trans (h : AddsDirectories P t t') (h' : AddsDirectories P t' t'') :
    AddsDirectories P t t'' := by
  intro a
  rcases h a with hsame | ⟨hnone, hdirectory, hP⟩
  · rcases h' a with hsame' | ⟨hnone', hdirectory', hP'⟩
    · exact .inl (hsame'.trans hsame)
    · exact .inr ⟨hsame ▸ hnone', hdirectory', hP'⟩
  · rcases h' a with hsame' | ⟨hnone', -, -⟩
    · exact .inr ⟨hnone, hsame'.trans hdirectory, hP⟩
    · rw [hdirectory] at hnone'
      exact absurd hnone' (Option.some_ne_none _)

instance : Std.Refl (AddsDirectories P) := ⟨AddsDirectories.refl P⟩

instance : IsTrans Tree (AddsDirectories P) := ⟨fun _ _ _ => AddsDirectories.trans⟩

theorem AddsDirectories.mono (h : AddsDirectories P t t') (hPQ : ∀ a, P a → Q a) :
    AddsDirectories Q t t' := by
  intro a
  exact (h a).imp_right fun ⟨hnone, hdirectory, hP⟩ => ⟨hnone, hdirectory, hPQ a hP⟩

/-- Making a directory adds it where its path leads. -/
theorem addsDirectories_of_createDirectory {here : Address} {path : String}
    (h : t.createDirectory here path = .ok t') :
    AddsDirectories (· = addressOf here (normal path)) t t' := by
  unfold createDirectory at h
  obtain ⟨a, hresolve, h⟩ := ok_of_bind h
  have ha : a = addressOf here (normal path) := eq_addressOf_of_resolve hresolve
  cases a with
  | nil => exact absurd h (by simp)
  | cons n up =>
      simp only at h
      split at h
      · exact absurd h (by simp)
      · next hfree =>
        split at h
        · next hup =>
          obtain rfl := Except.ok.inj h
          intro b
          rw [at?_put]
          by_cases hb : n :: up = b
          · subst hb
            rw [if_pos rfl]
            exact .inr ⟨by simpa using hfree, rfl, ha⟩
          · rw [if_neg hb]
            exact .inl rfl
        · exact absurd h (by simp)

/-! ## Writing files -/

/-- A file with a content stands at an address now, in place of no directory, and nothing else is
changed. -/
structure SetsFile (a : Address) (content : List UInt8) (t t' : Tree) : Prop where
  before : t.at? a ≠ some .directory
  after : ∀ b, t'.at? b = if a = b then some (.file content) else t.at? b

variable {a : Address} {c c' : List UInt8}

theorem SetsFile.at?_self (h : SetsFile a c t t') : t'.at? a = some (.file c) := by
  rw [h.after, if_pos rfl]

theorem SetsFile.at?_ne (h : SetsFile a c t t') {b : Address} (hb : a ≠ b) :
    t'.at? b = t.at? b := by
  rw [h.after, if_neg hb]

theorem SetsFile.keepsDirectories (h : SetsFile a c t t') : KeepsDirectories t t' := by
  intro b hb
  have hne : a ≠ b := by
    rintro rfl
    exact h.before hb
  rw [h.at?_ne hne, hb]

theorem SetsFile.trans (h : SetsFile a c t t') (h' : SetsFile a c' t' t'') :
    SetsFile a c' t t'' := by
  refine ⟨h.before, fun b => ?_⟩
  rw [h'.after, h.after]
  split <;> rfl

theorem setsFile_of_putFile (h : t.putFile a c = .ok t') : SetsFile a c t t' := by
  cases a with
  | nil => exact absurd h (by simp [putFile])
  | cons n up =>
      simp only [putFile] at h
      split at h
      · exact absurd h (by simp)
      · next hfile =>
        split at h
        · obtain rfl := Except.ok.inj h
          exact ⟨hfile, fun b => at?_put t n up _ _ _ b⟩
        · exact absurd h (by simp)

theorem exists_putFile_of_file (h : t.at? a = some (.file c')) (c : List UInt8) :
    ∃ t', t.putFile a c = .ok t' := by
  cases a with
  | nil =>
      rw [at?_nil] at h
      exact absurd h (by simp)
  | cons n up =>
      have hup : t.at? up = some .directory := t.at?_tail (by rw [h]; rfl)
      have hfile : t.at? (n :: up) ≠ some .directory := by simp [h]
      refine ⟨t.put n up (.file c) hup (.inr hfile), ?_⟩
      simp only [putFile, dif_neg hfile, dif_pos hup]

/-- A file is made, or made empty, where its path leads. -/
theorem setsFile_of_create {here : Address} {path : String} (h : t.create here path = .ok t') :
    t.resolve here path = .ok (addressOf here path) ∧ SetsFile (addressOf here path) [] t t' := by
  unfold create at h
  obtain ⟨a, hresolve, hput⟩ := ok_of_bind h
  obtain rfl := eq_addressOf_of_resolve hresolve
  exact ⟨hresolve, setsFile_of_putFile hput⟩

/-- What is read is the file at the address of a path, if the path leads there. -/
theorem read_eq_ok_iff (t : Tree) (here : Address) (path : String) (c : List UInt8) :
    t.read here path = .ok c ↔ t.resolve here path = .ok (addressOf here path) ∧
      t.at? (addressOf here path) = some (.file c) := by
  unfold read
  constructor
  · intro h
    obtain ⟨a, ha, h⟩ := ok_of_bind h
    obtain rfl := eq_addressOf_of_resolve ha
    refine ⟨ha, ?_⟩
    split at h
    · exact nomatch h
    · exact nomatch h
    · next hfile => rw [hfile, Except.ok.inj h]
  · intro ⟨ha, hfile⟩
    simp only [ha, bind, Except.bind, hfile]

/-- Bytes are added to the file to which a path leads, if it leads to one. -/
theorem append_of_file {here : Address} {path : String}
    (hresolve : t.resolve here path = .ok (addressOf here path))
    (h : t.at? (addressOf here path) = some (.file c)) (bytes : List UInt8) :
    ∃ t', t.append here path bytes = .ok t' ∧
      SetsFile (addressOf here path) (c ++ bytes) t t' := by
  obtain ⟨t', hput⟩ := exists_putFile_of_file h (c ++ bytes)
  refine ⟨t', ?_, setsFile_of_putFile hput⟩
  rw [append, (read_eq_ok_iff t here path c).mpr ⟨hresolve, h⟩, hresolve]
  exact hput

theorem setsFile_of_append {here : Address} {path : String} {bytes : List UInt8}
    (h : t.append here path bytes = .ok t') : ∃ c, SetsFile (addressOf here path) c t t' := by
  obtain ⟨c, -, h⟩ := ok_of_bind h
  obtain ⟨a, hresolve, hput⟩ := ok_of_bind h
  obtain rfl := eq_addressOf_of_resolve hresolve
  exact ⟨_, setsFile_of_putFile hput⟩

/-- All directories around what is in a tree are in it. -/
theorem directory_of_suffix {t : Tree} {a up : Address} (h : (t.at? a).isSome)
    (hsuffix : up <:+ a) (hne : up ≠ a) : t.at? up = some .directory := by
  induction a with
  | nil => exact absurd (List.suffix_nil.mp hsuffix) hne
  | cons n a ih =>
      have hdirectory : t.at? a = some .directory := t.at?_tail h
      rcases List.suffix_cons_iff.mp hsuffix with heq | hsuffix
      · exact absurd heq hne
      · by_cases heq : up = a
        · rw [heq, hdirectory]
        · exact ih (by rw [hdirectory]; rfl) hsuffix heq

end Tree

end SwaggerRoutes.Files
