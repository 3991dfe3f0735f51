/-
  Proofs/Naming/Derived.lean --- the names that are made out of a description are valid.

  A class name keeps letters and digits only, whose case may change, and its ending alone makes it
  no reserved word.  A package is made of the labels of a host, each of which is an identifier once
  it has its underscores; the one behind a reserved word is put there after all letters are small.
-/
import Mathlib
import SwaggerRoutes.Naming.ClassName
import SwaggerRoutes.Naming.PackageName
import SwaggerRoutes.Proofs.Naming.Identifiers
import SwaggerRoutes.Proofs.Naming.Stripped

set_option autoImplicit false

namespace SwaggerRoutes.Naming

open Swagger Text

/-! ## Characters -/

theorem not_isLetter_of_isDigit {c : Char} (h : c.isDigit = true) :
    ¬ c.isUpper = true ∧ ¬ c.isLower = true := by
  simp only [Char.isDigit, Char.isUpper, Char.isLower, Bool.and_eq_true, decide_eq_true_eq,
    UInt32.le_iff_toNat_le, ge_iff_le] at h ⊢
  have h9 : '9'.val.toNat = 57 := rfl
  have hA : 'A'.val.toNat = 65 := rfl
  have ha : 'a'.val.toNat = 97 := rfl
  omega

theorem isDigit_toLower (c : Char) : c.toLower.isDigit = c.isDigit := by
  by_cases hc : c.isUpper = true
  · have hdigit : c.isDigit = false := by
      by_contra h
      exact (not_isLetter_of_isDigit (by simpa using h)).1 hc
    have hlower : c.toLower.isLower = true := by
      rw [Char.isLower_toLower_eq_isAlpha, Char.isAlpha, hc, Bool.true_or]
    rw [hdigit]
    by_contra h
    exact (not_isLetter_of_isDigit (by simpa using h)).2 hlower
  · rw [Char.toLower_eq_of_not_isUpper hc]

theorem isIdentifierStart_toLower (c : Char) :
    isIdentifierStart c.toLower = isIdentifierStart c := by
  by_cases hc : c.isUpper = true
  · have halpha : c.isAlpha = true := by rw [Char.isAlpha, hc, Bool.true_or]
    simp only [isIdentifierStart, Char.isAlpha_toLower_eq_isAlpha, halpha, Bool.true_or]
  · rw [Char.toLower_eq_of_not_isUpper hc]

theorem isIdentifierPart_toLower (c : Char) :
    isIdentifierPart c.toLower = isIdentifierPart c := by
  rw [isIdentifierPart, isIdentifierPart, isIdentifierStart_toLower, isDigit_toLower]

theorem isAlphanum_toLower (c : Char) : c.toLower.isAlphanum = c.isAlphanum := by
  rw [Char.isAlphanum, Char.isAlphanum, Char.isAlpha_toLower_eq_isAlpha, isDigit_toLower]

theorem isAlphanum_toUpper {c : Char} (h : c.isAlphanum = true) : c.toUpper.isAlphanum = true := by
  rw [Char.isAlphanum, Bool.or_eq_true] at h
  rcases h with halpha | hdigit
  · rw [Char.isAlphanum, Char.isAlpha_toUpper_eq_isAlpha, halpha, Bool.true_or]
  · rw [Char.toUpper_eq_of_not_isLower (not_isLetter_of_isDigit hdigit).2, Char.isAlphanum, hdigit,
      Bool.or_true]

/-- A letter or a digit may stand in an identifier. -/
theorem isIdentifierPart_of_isAlphanum {c : Char} (h : c.isAlphanum = true) :
    isIdentifierPart c = true := by
  rw [Char.isAlphanum, Bool.or_eq_true] at h
  rcases h with h | h <;> simp [isIdentifierPart, isIdentifierStart, h]

/-- Letters and digits are no white space. -/
theorem isBlank_eq_false_of_isAlphanum {c : Char} (h : c.isAlphanum = true) :
    isBlank c = false := by
  have hrange : (48 ≤ c.toNat ∧ c.toNat ≤ 57) ∨ (65 ≤ c.toNat ∧ c.toNat ≤ 90) ∨
      (97 ≤ c.toNat ∧ c.toNat ≤ 122) := by
    simp only [Char.isAlphanum, Char.isAlpha, Char.isDigit, Char.isUpper, Char.isLower,
      Bool.or_eq_true, Bool.and_eq_true, decide_eq_true_eq, UInt32.le_iff_toNat_le, ge_iff_le] at h
    have h0 : '0'.val.toNat = 48 := rfl
    have h9 : '9'.val.toNat = 57 := rfl
    have hA : 'A'.val.toNat = 65 := rfl
    have hZ : 'Z'.val.toNat = 90 := rfl
    have ha : 'a'.val.toNat = 97 := rfl
    have hz : 'z'.val.toNat = 122 := rfl
    have hval : c.val.toNat = c.toNat := rfl
    omega
  simp only [isBlank, Bool.or_eq_false_iff, Bool.and_eq_false_iff, decide_eq_false_iff_not,
    beq_eq_false_iff_ne, ne_eq]
  omega

/-! ## Class names -/

/-- Cutting a run into words loses none of its characters. -/
theorem flatten_cutWords (last : LetterCase) (word : List Char) {cs : List Char} (h : cs ≠ []) :
    (cutWords last word cs).flatten = word ++ cs := by
  fun_induction cutWords last word cs with
  | case1 => exact absurd rfl h
  | case2 => simp
  | case3 last word c d rest now hcut ih => simp [ih]
  | case4 last word c d rest now _ hcut ih => simp [ih]
  | case5 last word c d rest now _ _ ih => simp [ih]

theorem isAlphanum_of_mem_capitalize {word : List Char} (h : ∀ c ∈ word, c.isAlphanum = true) :
    ∀ c ∈ capitalize word, c.isAlphanum = true := by
  cases word with
  | nil => exact h
  | cons d ds =>
      intro c hc
      rcases List.mem_cons.mp hc with rfl | hc
      · exact isAlphanum_toUpper (h d List.mem_cons_self)
      · obtain ⟨e, he, rfl⟩ := List.mem_map.mp hc
        rw [isAlphanum_toLower]
        exact h e (List.mem_cons_of_mem d he)

/-- The words of a text are letters and digits. -/
theorem isAlphanum_of_mem_pascalCase (text : List Char) :
    ∀ c ∈ pascalCase text, c.isAlphanum = true := by
  intro c hc
  obtain ⟨word, hword, hc⟩ := List.mem_flatMap.mp hc
  obtain ⟨run, hrun, hword⟩ := List.mem_flatMap.mp hword
  refine isAlphanum_of_mem_capitalize (fun d hd => of_mem_runs hrun ?_) c hc
  rw [← List.nil_append run, ← flatten_cutWords .unknown [] (ne_nil_of_mem_runs hrun)]
  exact List.mem_flatten_of_mem hword hd

theorem isAlphanum_of_mem_classStem (title : List Char) :
    ∀ c ∈ classStem title, c.isAlphanum = true :=
  isAlphanum_of_mem_pascalCase (stripped title)

/-- Characters of identifiers in front of the ending of class names make an identifier, whatever
word they are. -/
theorem isIdentifierChars_append_classSuffix {cs : List Char}
    (hstart : ∀ c, cs.head? = some c → isIdentifierStart c = true)
    (hpart : ∀ c ∈ cs, isIdentifierPart c = true) :
    isIdentifierChars (cs ++ classSuffix.toList) = true := by
  have hreserved : isReserved (cs ++ classSuffix.toList) = false := by
    have hfree : ∀ w ∈ reservedWords, 'R' ∉ w.toList := by decide
    have hmem : 'R' ∈ cs ++ classSuffix.toList := List.mem_append_right cs (by decide)
    rw [isReserved, List.contains_eq_mem, decide_eq_false_iff_not]
    intro hword
    refine hfree _ hword ?_
    rwa [String.toList_ofList]
  have hsuffix : ∀ c ∈ classSuffix.toList, isIdentifierPart c = true :=
    List.all_eq_true.mp (by decide)
  cases cs with
  | nil => decide
  | cons c cs =>
      rw [List.cons_append, isIdentifierChars_cons_iff]
      refine ⟨hreserved, hstart c rfl, fun d hd => ?_⟩
      rcases List.mem_append.mp hd with hd | hd
      · exact hpart d (List.mem_cons_of_mem c hd)
      · exact hsuffix d hd

theorem isIdentifier_classNameOfTitle (title : List Char) :
    isIdentifier (classNameOfTitle title) = true ∧
      classSuffix.toList <:+ (classNameOfTitle title).toList := by
  have hsuffix : isIdentifier classSuffix = true := by decide
  unfold classNameOfTitle
  split
  · exact ⟨hsuffix, List.suffix_rfl⟩
  · next c cs hstem =>
    split
    · next hc =>
      have hpart : ∀ d ∈ c :: cs, isIdentifierPart d = true := fun d hd =>
        isIdentifierPart_of_isAlphanum (isAlphanum_of_mem_classStem title d (hstem ▸ hd))
      rw [isIdentifier, String.toList_append, String.toList_ofList]
      refine ⟨isIdentifierChars_append_classSuffix ?_ hpart, List.suffix_append _ _⟩
      intro d hd
      obtain rfl : c = d := by simpa using hd
      exact hc
    · exact ⟨hsuffix, List.suffix_rfl⟩

/-- The class name for a description is an identifier, with the ending that all of them have. -/
theorem isIdentifier_className (s : Spec) :
    isIdentifier (className s) = true ∧ classSuffix.toList <:+ (className s).toList := by
  unfold className
  split
  · exact isIdentifier_classNameOfTitle _
  · exact ⟨by decide, List.suffix_rfl⟩

/-! ## Package names -/

/-- No word is reserved with an underscore behind it. -/
theorem isReserved_append_underscore {word : List Char} (h : word ≠ []) :
    isReserved (word ++ ['_']) = false := by
  have halone : ∀ w ∈ reservedWords, '_' ∈ w.toList → w.toList = ['_'] := by decide
  rw [isReserved, List.contains_eq_mem, decide_eq_false_iff_not]
  intro hword
  have hmem : '_' ∈ (String.ofList (word ++ ['_'])).toList := by
    rw [String.toList_ofList]
    exact List.mem_append_right word (.head _)
  have heq := halone _ hword hmem
  rw [String.toList_ofList] at heq
  exact h (List.append_left_eq_self.mp heq)

/-- With the underscore that it may need, a word of identifier characters is an identifier. -/
theorem isIdentifierChars_guardReserved {c : Char} {cs : List Char}
    (hstart : isIdentifierStart c = true) (hpart : ∀ d ∈ cs, isIdentifierPart d = true) :
    isIdentifierChars (guardReserved (c :: cs)) = true := by
  unfold guardReserved
  split
  · rw [List.cons_append, isIdentifierChars_cons_iff]
    refine ⟨isReserved_append_underscore (List.cons_ne_nil c cs), hstart, fun d hd => ?_⟩
    rcases List.mem_append.mp hd with hd | hd
    · exact hpart d hd
    · rw [List.mem_singleton.mp hd]
      decide
  · next hreserved =>
    rw [isIdentifierChars_cons_iff]
    exact ⟨by simpa using hreserved, hstart, hpart⟩

/-- The segment for a label is an identifier, unless it is empty. -/
theorem isIdentifierChars_segmentOfLabel {label : List Char} (h : segmentOfLabel label ≠ []) :
    isIdentifierChars (segmentOfLabel label) = true := by
  have hword : ∀ c ∈ underscored (stripped label), isIdentifierPart c = true := by
    rw [underscored_stripped]
    intro c hc
    rcases mem_join hc with rfl | ⟨r, hr, hc⟩
    · decide
    · exact of_mem_runs hr hc
  have hlower : ∀ {cs : List Char}, (∀ c ∈ cs, isIdentifierPart c = true) →
      ∀ c ∈ cs.map Char.toLower, isIdentifierPart c = true := by
    intro cs hcs c hc
    obtain ⟨d, hd, rfl⟩ := List.mem_map.mp hc
    rw [isIdentifierPart_toLower]
    exact hcs d hd
  unfold segmentOfLabel at h ⊢
  cases hj : underscored (stripped label) with
  | nil =>
      rw [hj] at h
      exact absurd (by decide) h
  | cons c cs =>
      rw [hj] at hword
      have hrest : ∀ d ∈ cs, isIdentifierPart d = true := fun d hd =>
        hword d (List.mem_cons_of_mem c hd)
      rw [guardDigit]
      split
      · rw [List.map_cons]
        exact isIdentifierChars_guardReserved (by decide) (hlower hword)
      · next hdigit =>
        rw [List.map_cons]
        refine isIdentifierChars_guardReserved ?_ (hlower hrest)
        rw [isIdentifierStart_toLower]
        exact isIdentifierStart_of_part (hword c List.mem_cons_self) (by simpa using hdigit)

theorem isQualifiedName_packageOfHost (host : String) :
    isQualifiedName (packageOfHost host) = true := by
  have hdefault : isQualifiedName defaultPackage = true := by decide
  simp only [packageOfHost]
  generalize hparts : ((pieces '.' (hostName host)).reverse.map segmentOfLabel).filter
    (fun p => !p.isEmpty) = parts
  have hvalid : ∀ p ∈ parts, isIdentifierChars p = true := by
    intro p hp
    rw [← hparts] at hp
    obtain ⟨hlabel, hne⟩ := List.mem_filter.mp hp
    obtain ⟨label, -, rfl⟩ := List.mem_map.mp hlabel
    exact isIdentifierChars_segmentOfLabel (by simpa using hne)
  split
  · split
    · exact hdefault
    · next hne =>
      rw [isQualifiedName, segments_ofList_join (by simpa using hne) hvalid]
      exact List.all_eq_true.mpr hvalid
  · exact hdefault

/-- The package for a description is a qualified name. -/
theorem isQualifiedName_packageName (s : Spec) : isQualifiedName (packageName s) = true := by
  unfold packageName
  split
  · exact isQualifiedName_packageOfHost _
  · decide

end SwaggerRoutes.Naming
