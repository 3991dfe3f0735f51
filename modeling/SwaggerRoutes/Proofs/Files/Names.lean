/-
  Proofs/Files/Names.lean --- which names are on a path that was put together.

  Putting a plain name after a path adds it to the names of the path, and so the file of a qualified
  name has the names of its root, then one for each segment.  A path around another one has fewer of
  its names, and is the same path once it is written in its normal form.
-/
import Mathlib.Data.List.Infix
import SwaggerRoutes.Files.Path
import SwaggerRoutes.Proofs.Naming.Identifiers

set_option autoImplicit false

namespace SwaggerRoutes.Files

open Text

/-! ## Parts between slashes -/

/-- The parts of a path between its slashes. -/
def split (path : String) : List String :=
  (pieces '/' path.toList).map String.ofList

/-- The parts that are names, in front of which there may be a point for the directory itself. -/
def namesOf : List String → List String
  | [] => []
  | n :: ns => (if n = "" then [] else [n]) ++ ns.filter fun m => m ≠ "" ∧ m ≠ "."

theorem names_eq (path : String) : names path = namesOf (split path) := by
  unfold names split
  cases (pieces '/' path.toList).map String.ofList <;> rfl

theorem split_ne_nil (path : String) : split path ≠ [] := by
  simpa [split] using pieces_ne_nil '/' path.toList

theorem split_empty : split "" = [""] := rfl

theorem split_append_slash (path next : String) :
    split (path ++ "/" ++ next) = split path ++ split next := by
  have hchars : (path ++ "/" ++ next).toList = path.toList ++ '/' :: next.toList := by simp
  rw [split, hchars, pieces_append_cons, List.map_append]
  rfl

theorem split_of_not_mem {name : String} (h : '/' ∉ name.toList) : split name = [name] := by
  rw [split, pieces_of_not_mem h, List.map_singleton, String.ofList_toList]

theorem not_mem_of_mem_split {path n : String} (h : n ∈ split path) : '/' ∉ n.toList := by
  obtain ⟨p, hp, rfl⟩ := List.mem_map.mp h
  rw [String.toList_ofList]
  exact not_mem_of_mem_pieces hp

theorem namesOf_append {ps : List String} (h : ps ≠ []) (qs : List String) :
    namesOf (ps ++ qs) = namesOf ps ++ qs.filter fun m => m ≠ "" ∧ m ≠ "." := by
  cases ps with
  | nil => exact absurd rfl h
  | cons p ps => simp only [List.cons_append, namesOf, List.filter_append, List.append_assoc]

/-! ## Plain names -/

/-- A name that leads to something in a directory and nowhere else. -/
structure IsPlain (name : String) : Prop where
  ne_empty : name ≠ ""
  ne_here : name ≠ "."
  ne_around : name ≠ ".."
  not_mem : '/' ∉ name.toList

theorem isAbsolute_of_isPlain {name : String} (h : IsPlain name) : isAbsolute name = false := by
  unfold isAbsolute
  cases hc : name.toList with
  | nil => rfl
  | cons c cs =>
      have hne : c ≠ '/' := fun hslash => h.not_mem (by rw [hc, hslash]; exact .head cs)
      simpa using hne

theorem isAbsolute_append {path : String} (h : path ≠ "") (next : String) :
    isAbsolute (path ++ next) = isAbsolute path := by
  unfold isAbsolute
  cases hc : path.toList with
  | nil => exact absurd (String.toList_eq_nil_iff.mp hc) h
  | cons c cs => simp [hc]

theorem isAbsolute_push (path : String) {name : String} (h : IsPlain name) :
    isAbsolute (push path name) = isAbsolute path := by
  have habsolute : isAbsolute name = false := isAbsolute_of_isPlain h
  unfold push
  rw [if_neg (by simp [habsolute])]
  by_cases hpath : path = ""
  · subst hpath
    rw [if_pos (by simp), String.empty_append, habsolute]
    rfl
  · split
    · exact isAbsolute_append hpath name
    · rw [String.append_assoc]
      exact isAbsolute_append hpath _

/-- A plain name after a path is one more name on it. -/
theorem names_push (path : String) {name : String} (h : IsPlain name) :
    names (push path name) = names path ++ [name] := by
  have hname : split name = [name] := split_of_not_mem h.not_mem
  have hkept : [name].filter (fun m => m ≠ "" ∧ m ≠ ".") = [name] := by
    simp [h.ne_empty, h.ne_here]
  have hadded (p : String) : namesOf (split p ++ [name]) = namesOf (split p) ++ [name] := by
    rw [namesOf_append (split_ne_nil p), hkept]
  unfold push
  rw [if_neg (by simp [isAbsolute_of_isPlain h]), names_eq, names_eq]
  split
  · next hend =>
    rcases Bool.or_eq_true_iff.mp hend with hempty | hslash
    · obtain rfl : path = "" := by simpa using hempty
      rw [String.empty_append, hname]
      simp [split_empty, namesOf, h.ne_empty]
    · -- the slash at the end of the path separates it from the name
      obtain ⟨front, hfront⟩ := List.getLast?_eq_some_iff.mp (by simpa using hslash)
      have hpath : path = String.ofList front ++ "/" ++ "" :=
        String.toList_injective (by simp [hfront])
      rw [hpath, String.append_empty, split_append_slash, hname, hadded]
      have hempty := split_append_slash (String.ofList front) ""
      rw [String.append_empty] at hempty
      rw [hempty, split_empty, namesOf_append (split_ne_nil _)]
      simp
  · rw [split_append_slash, hname, hadded]

theorem names_foldl_push {ns : List String} (h : ∀ n ∈ ns, IsPlain n) (path : String) :
    names (ns.foldl push path) = names path ++ ns ∧
      isAbsolute (ns.foldl push path) = isAbsolute path := by
  induction ns generalizing path with
  | nil => simp
  | cons n ns ih =>
      have hn : IsPlain n := h n List.mem_cons_self
      obtain ⟨hnames, habsolute⟩ := ih (fun m hm => h m (List.mem_cons_of_mem n hm)) (push path n)
      rw [names_push path hn] at hnames
      rw [isAbsolute_push path hn] at habsolute
      exact ⟨by rw [List.foldl_cons, hnames, List.append_assoc]; rfl, habsolute⟩

/-! ## Paths around a path -/

/-- Names that are all on the path that is made of them.  A point may only be at the front of a path
that is not absolute. -/
structure Proper (absolute : Bool) (ns : List String) : Prop where
  isName : ∀ n ∈ ns, n ≠ "" ∧ '/' ∉ n.toList
  noPoint : ∀ n ∈ (if absolute then ns else ns.tail), n ≠ "."

theorem Proper.take {absolute : Bool} {ns : List String} (h : Proper absolute ns) (k : Nat) :
    Proper absolute (ns.take k) := by
  refine ⟨fun n hn => h.isName n (List.mem_of_mem_take hn), fun n hn => h.noPoint n ?_⟩
  cases absolute with
  | true => exact List.mem_of_mem_take hn
  | false =>
      rw [if_neg Bool.false_ne_true, ← List.drop_one, List.drop_take] at hn
      rw [if_neg Bool.false_ne_true, ← List.drop_one]
      exact List.mem_of_mem_take hn

/-- A path is absolute if nothing is in front of its first slash. -/
theorem exists_split_eq (path : String) :
    ∃ n ns, split path = n :: ns ∧ (isAbsolute path = true ↔ n = "" ∧ path ≠ "") := by
  unfold split isAbsolute
  cases hc : path.toList with
  | nil => exact ⟨"", [], rfl, by simp [String.toList_eq_nil_iff.mp hc]⟩
  | cons c cs =>
      have hpath : path ≠ "" := by
        rintro rfl
        simp at hc
      by_cases hslash : c = '/'
      · subst hslash
        exact ⟨"", (pieces '/' cs).map String.ofList, by simp [pieces], by simp [hpath]⟩
      · cases hp : pieces '/' cs with
        | nil => exact absurd hp (pieces_ne_nil '/' cs)
        | cons p ps =>
            refine ⟨String.ofList (c :: p), ps.map String.ofList, by simp [pieces, hslash, hp], ?_⟩
            simp [hslash]

theorem proper_names (path : String) : Proper (isAbsolute path) (names path) := by
  obtain ⟨n, ns, hsplit, habsolute⟩ := exists_split_eq path
  have hslash : ∀ m ∈ split path, '/' ∉ m.toList := fun m hm => not_mem_of_mem_split hm
  have hrest : ∀ m ∈ ns.filter fun m => m ≠ "" ∧ m ≠ ".", m ∈ ns ∧ m ≠ "" ∧ m ≠ "." := by
    intro m hm
    simpa using List.mem_filter.mp hm
  rw [hsplit] at hslash
  rw [names_eq, hsplit, namesOf]
  constructor
  · intro m hm
    rcases List.mem_append.mp hm with hm | hm
    · split at hm
      · exact absurd hm List.not_mem_nil
      · next hn =>
        rw [List.mem_singleton.mp hm]
        exact ⟨hn, hslash n List.mem_cons_self⟩
    · obtain ⟨hmem, hne, -⟩ := hrest m hm
      exact ⟨hne, hslash m (List.mem_cons_of_mem n hmem)⟩
  · intro m hm
    refine (hrest m ?_).2.2
    by_cases hn : n = ""
    · simp only [hn, if_true, List.nil_append] at hm
      split at hm
      · exact hm
      · exact List.mem_of_mem_tail hm
    · have hrelative : ¬ isAbsolute path = true := fun h => hn (habsolute.mp h).1
      simpa [hn, hrelative] using hm

theorem split_intercalate {ns : List String} (hne : ns ≠ [])
    (h : ∀ n ∈ ns, n ≠ "" ∧ '/' ∉ n.toList) : split ("/".intercalate ns) = ns := by
  have hpieces : pieces '/' (join '/' (ns.map String.toList)) = ns.map String.toList := by
    refine pieces_join (by simpa using hne) fun p hp => ?_
    obtain ⟨n, hn, rfl⟩ := List.mem_map.mp hp
    exact (h n hn).2
  have hslash : "/".toList = ['/'] := rfl
  rw [split, toList_intercalate hslash, hpieces, List.map_map]
  simp [Function.comp_def]

/-- A path that is made of names has these names, and is absolute if it is meant to be. -/
theorem names_ofNames {absolute : Bool} {ns : List String} (h : Proper absolute ns) :
    names (ofNames absolute ns) = ns ∧ isAbsolute (ofNames absolute ns) = absolute := by
  have hfilter : ∀ ms : List String, (∀ m ∈ ms, m ∈ ns ∧ m ≠ ".") →
      ms.filter (fun m => m ≠ "" ∧ m ≠ ".") = ms := by
    intro ms hms
    refine List.filter_eq_self.mpr fun m hm => ?_
    simpa using ⟨(h.isName m (hms m hm).1).1, (hms m hm).2⟩
  cases absolute with
  | true =>
      have hpath : ofNames true ns = "" ++ "/" ++ "/".intercalate ns := by simp [ofNames]
      have hpoint : ∀ n ∈ ns, n ≠ "." := h.noPoint
      constructor
      · rw [hpath, names_eq, split_append_slash, split_empty, List.singleton_append, namesOf]
        cases ns with
        | nil => rfl
        | cons n ns =>
            rw [split_intercalate (List.cons_ne_nil n ns) h.isName]
            exact hfilter _ fun m hm => ⟨hm, hpoint m hm⟩
      · rw [hpath]
        simp [isAbsolute]
  | false =>
      have hpath : ofNames false ns = "/".intercalate ns := by simp [ofNames]
      cases ns with
      | nil => exact ⟨rfl, rfl⟩
      | cons n ns =>
          have hn : n ≠ "" := (h.isName n List.mem_cons_self).1
          have hsplit := split_intercalate (List.cons_ne_nil n ns) h.isName
          constructor
          · rw [hpath, names_eq, hsplit, namesOf, if_neg hn]
            exact congrArg (n :: ·)
              (hfilter ns fun m hm => ⟨List.mem_cons_of_mem n hm, h.noPoint m hm⟩)
          · obtain ⟨m, ms, hms, habsolute⟩ := exists_split_eq (ofNames false (n :: ns))
            rw [hpath, hsplit] at hms
            rw [← Bool.not_eq_true, habsolute, ← (List.cons.inj hms).1]
            exact fun hempty => hn hempty.1

/-- A path around another one has fewer of its names. -/
structure IsAround (path around : String) : Prop where
  absolute : isAbsolute around = isAbsolute path
  isPrefix : names around <+: names path
  ne : names around ≠ names path

/-- The paths that are listed as those around a path are so, and are in their normal form. -/
theorem isAround_of_mem_parents {path p : String} (h : p ∈ parents path) :
    IsAround path p ∧ normal p = p := by
  obtain ⟨hmem, -⟩ := List.mem_filter.mp h
  obtain ⟨ns, hns, rfl⟩ := List.mem_map.mp hmem
  obtain ⟨k, hk, rfl⟩ := List.mem_map.mp hns
  have hlt : k < (names path).length := by simpa using hk
  obtain ⟨hnames, habsolute⟩ := names_ofNames ((proper_names path).take k)
  refine ⟨⟨habsolute, ?_, fun heq => ?_⟩, ?_⟩
  · rw [hnames]
    exact List.take_prefix k (names path)
  · rw [hnames] at heq
    have hlength := congrArg List.length heq
    rw [List.length_take] at hlength
    omega
  · rw [normal, hnames, habsolute]

/-! ## The files of qualified names -/

/-- The names that the file of a qualified name has under its root. -/
def sourceNames (qualifiedName : String) : List String :=
  let parts := (Naming.segments qualifiedName).map String.ofList
  parts.dropLast ++ [parts.getLastD "" ++ sourceEnding]

theorem isPlain_of_isIdentifier {name : String} (h : Naming.isIdentifier name = true) :
    IsPlain name := by
  have hne (other : String) (hother : Naming.isIdentifier other = false) : name ≠ other := by
    rintro rfl
    rw [h] at hother
    exact absurd hother (by decide)
  exact ⟨hne "" (by decide), hne "." (by decide), hne ".." (by decide),
    Naming.not_mem_of_isIdentifierChars h (by decide)⟩

/-- An identifier with the ending of source files is a plain name as well. -/
theorem isPlain_append_sourceEnding {name : String} (h : Naming.isIdentifier name = true) :
    IsPlain (name ++ sourceEnding) := by
  have hlength (other : String) (hother : other.length < 3) : name ++ sourceEnding ≠ other := by
    rintro rfl
    rw [String.length_append] at hother
    have hending : sourceEnding.length = 5 := by decide
    omega
  refine ⟨hlength "" (by decide), hlength "." (by decide), hlength ".." (by decide), ?_⟩
  rw [String.toList_append, List.mem_append]
  rintro (hmem | hmem)
  · exact (isPlain_of_isIdentifier h).not_mem hmem
  · exact absurd hmem (by decide)

theorem isIdentifier_of_mem_segments {qualifiedName : String}
    (h : Naming.isQualifiedName qualifiedName = true) :
    ∀ s ∈ (Naming.segments qualifiedName).map String.ofList, Naming.isIdentifier s = true := by
  intro s hs
  obtain ⟨cs, hcs, rfl⟩ := List.mem_map.mp hs
  rw [Naming.isIdentifier, String.toList_ofList]
  exact List.all_eq_true.mp h cs hcs

theorem exists_sourceNames_eq {qualifiedName : String}
    (h : Naming.isQualifiedName qualifiedName = true) :
    ∃ segs name, (Naming.segments qualifiedName).map String.ofList = segs ++ [name] ∧
      (∀ s ∈ segs, Naming.isIdentifier s = true) ∧ Naming.isIdentifier name = true ∧
      sourceNames qualifiedName = segs ++ [name ++ sourceEnding] := by
  have hvalid := isIdentifier_of_mem_segments h
  have hne : (Naming.segments qualifiedName).map String.ofList ≠ [] := by
    simpa [Naming.segments] using pieces_ne_nil '.' qualifiedName.toList
  obtain ⟨segs, name, hparts⟩ := (List.eq_nil_or_concat _).resolve_left hne
  rw [List.concat_eq_append] at hparts
  rw [hparts] at hvalid
  refine ⟨segs, name, hparts, fun s hs => hvalid s (List.mem_append_left _ hs),
    hvalid name (by simp), ?_⟩
  simp [sourceNames, hparts]

/-- The file of a class is in the directories of its package. -/
theorem sourceNames_qualify (package : String) {name : String}
    (h : Naming.isIdentifier name = true) :
    sourceNames (Naming.qualify package name) =
      (Naming.segments package).map String.ofList ++ [name ++ sourceEnding] := by
  have hname : (Naming.segments name).map String.ofList = [name] := by
    rw [Naming.segments_of_isIdentifier h, List.map_singleton, String.ofList_toList]
  rw [sourceNames, Naming.segments_qualify, List.map_append, hname]
  simp

theorem isPlain_of_mem_sourceNames {qualifiedName : String}
    (h : Naming.isQualifiedName qualifiedName = true) :
    ∀ n ∈ sourceNames qualifiedName, IsPlain n := by
  obtain ⟨segs, name, -, hsegs, hname, heq⟩ := exists_sourceNames_eq h
  intro n hn
  rw [heq] at hn
  rcases List.mem_append.mp hn with hn | hn
  · exact isPlain_of_isIdentifier (hsegs n hn)
  · rw [List.mem_singleton.mp hn]
    exact isPlain_append_sourceEnding hname

theorem sourcePath_eq_foldl (root qualifiedName : String) :
    sourcePath root qualifiedName = (sourceNames qualifiedName).foldl push root := by
  simp [sourcePath, sourceNames, List.foldl_append]

/-- The file of a qualified name has the names of the root and then its own. -/
theorem names_sourcePath (root : String) {qualifiedName : String}
    (h : Naming.isQualifiedName qualifiedName = true) :
    names (sourcePath root qualifiedName) = names root ++ sourceNames qualifiedName ∧
      isAbsolute (sourcePath root qualifiedName) = isAbsolute root := by
  rw [sourcePath_eq_foldl]
  exact names_foldl_push (isPlain_of_mem_sourceNames h) root

/-- Different qualified names have files with different names. -/
theorem sourceNames_injective {m n : String} (hm : Naming.isQualifiedName m = true)
    (hn : Naming.isQualifiedName n = true) (h : sourceNames m = sourceNames n) : m = n := by
  obtain ⟨msegs, mname, hmparts, -, -, hmeq⟩ := exists_sourceNames_eq hm
  obtain ⟨nsegs, nname, hnparts, -, -, hneq⟩ := exists_sourceNames_eq hn
  rw [hmeq, hneq] at h
  obtain ⟨rfl, hlast⟩ := List.append_inj' h rfl
  rw [List.singleton_inj, String.append_left_inj] at hlast
  rw [hlast, ← hnparts] at hmparts
  have hsegments : Naming.segments m = Naming.segments n :=
    List.map_injective_iff.mpr (fun _ _ => String.ofList_injective) hmparts
  have hchars : m.toList = n.toList := by
    rw [← join_pieces '.' m.toList, ← join_pieces '.' n.toList]
    exact congrArg (join '.') hsegments
  exact String.toList_injective hchars

/-! ## Files and directories -/

/-- The file of a qualified name is no directory on the way to the file of another one: its name has
the point of the ending in it, and segments have none. -/
theorem eq_of_sourceNames_isPrefix {m n : String} (hm : Naming.isQualifiedName m = true)
    (hn : Naming.isQualifiedName n = true) (h : sourceNames m <+: sourceNames n) : m = n := by
  obtain ⟨msegs, mname, -, -, -, hmeq⟩ := exists_sourceNames_eq hm
  obtain ⟨nsegs, nname, -, hnsegs, -, hneq⟩ := exists_sourceNames_eq hn
  rw [hneq, List.prefix_concat_iff] at h
  rcases h with heq | hdirectory
  · exact sourceNames_injective hm hn (heq.trans hneq.symm)
  · have hmem : mname ++ sourceEnding ∈ nsegs := by
      refine hdirectory.subset ?_
      rw [hmeq]
      exact List.mem_append_right msegs List.mem_cons_self
    have hpoint : '.' ∈ (mname ++ sourceEnding).toList := by
      rw [String.toList_append]
      exact List.mem_append_right mname.toList List.mem_cons_self
    exact absurd hpoint (Naming.not_mem_of_isIdentifierChars (hnsegs _ hmem) (by decide))

/-- The directory of a package under a root. -/
def packageDirectory (root package : String) : String :=
  ((Naming.segments package).map String.ofList).foldl push root

theorem sourcePath_qualify (root package : String) {name : String}
    (h : Naming.isIdentifier name = true) :
    sourcePath root (Naming.qualify package name) =
      push (packageDirectory root package) (name ++ sourceEnding) := by
  rw [sourcePath_eq_foldl, sourceNames_qualify package h, List.foldl_append]
  rfl

/-- A qualified name and the path of its file tell each other, under any root.  Two names have paths
with the same names on them only if they are one name, and no path is around another one, so that no
file is where a directory is needed.  Names are put together just as directories and files are: a
name with a point between two parts is qualified if both parts are, and the file of a class is in
the directory of its package. -/
theorem sourcePath_correspondence :
    (∀ root m n : String, Naming.isQualifiedName m = true → Naming.isQualifiedName n = true →
      (names (sourcePath root m) = names (sourcePath root n) → m = n) ∧
      ¬ IsAround (sourcePath root m) (sourcePath root n) ∧
      ∀ p ∈ parents (sourcePath root m), names p ≠ names (sourcePath root n)) ∧
    (∀ a b : String, Naming.isQualifiedName (a ++ "." ++ b) = true ↔
      Naming.isQualifiedName a = true ∧ Naming.isQualifiedName b = true) ∧
    ∀ root package name : String, Naming.isQualifiedName package = true →
      Naming.isIdentifier name = true →
      sourcePath root (package ++ "." ++ name) =
        push (packageDirectory root package) (name ++ ".java") ∧
      names (packageDirectory root package) =
        names root ++ (Naming.segments package).map String.ofList ∧
      isAbsolute (packageDirectory root package) = isAbsolute root := by
  refine ⟨fun root m n hm hn => ?_, Naming.isQualifiedName_qualify_iff, ?_⟩
  · obtain ⟨hmnames, hmabsolute⟩ := names_sourcePath root hm
    obtain ⟨hnnames, hnabsolute⟩ := names_sourcePath root hn
    have hinjective (h : names (sourcePath root m) = names (sourcePath root n)) : m = n := by
      rw [hmnames, hnnames, List.append_cancel_left_eq] at h
      exact sourceNames_injective hm hn h
    have haround : ¬ IsAround (sourcePath root m) (sourcePath root n) := by
      intro h
      have hprefix := h.isPrefix
      rw [hmnames, hnnames, List.prefix_append_right_inj] at hprefix
      exact h.ne (by rw [eq_of_sourceNames_isPrefix hn hm hprefix])
    refine ⟨hinjective, haround, fun p hp hnames => haround ?_⟩
    obtain ⟨⟨-, hprefix, hne⟩, -⟩ := isAround_of_mem_parents hp
    rw [hnames] at hprefix hne
    exact ⟨hnabsolute.trans hmabsolute.symm, hprefix, hne⟩
  · intro root package name hpackage hname
    have hplain : ∀ s ∈ (Naming.segments package).map String.ofList, IsPlain s := fun s hs =>
      isPlain_of_isIdentifier (isIdentifier_of_mem_segments hpackage s hs)
    exact ⟨sourcePath_qualify root package hname, names_foldl_push hplain root⟩

/-- A package and a class of one name, and a class that is called as files end. -/
theorem sourcePath_correspondence_of_java :
    Naming.isQualifiedName "a.b" = true ∧ Naming.isQualifiedName "a.b.java" = true ∧
      ¬ IsAround (sourcePath "out//" "a.b.java") (sourcePath "out//" "a.b") ∧
      sourcePath "out//" ("a.b" ++ "." ++ "java") =
        push (packageDirectory "out//" "a.b") ("java" ++ ".java") ∧
      names (packageDirectory "out//" "a.b") = ["out", "a", "b"] := by
  have hfile : Naming.isQualifiedName "a.b" = true := by decide
  have hinside : Naming.isQualifiedName "a.b.java" = true := by decide
  obtain ⟨hpaths, -, hpackages⟩ := sourcePath_correspondence
  obtain ⟨-, haround, -⟩ := hpaths "out//" "a.b.java" "a.b" hinside hfile
  obtain ⟨hpath, hnames, -⟩ := hpackages "out//" "a.b" "java" hfile (by decide)
  exact ⟨hfile, hinside, haround, hpath, hnames.trans (by decide)⟩

end SwaggerRoutes.Files
