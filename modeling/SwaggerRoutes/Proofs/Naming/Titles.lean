/-
  Proofs/Naming/Titles.lean --- a class name says what the letters and digits of a title say.

  A title is cut twice, first where characters of identifiers end and then where letters and digits
  do.  The second cut finds in what the first one leaves the runs of the title itself, since
  underscores and dollar signs only part them (`runs_stripped`).  Cutting the runs into words and
  writing the words in capitals loses nothing and adds nothing: in lower case the stem of the name
  is the letters and digits of the title.  Only its runs count, so neither the characters that
  separate them nor those at its ends do.
-/
import Mathlib
import SwaggerRoutes.Proofs.Naming.Derived
import SwaggerRoutes.Proofs.Text.Runs

set_option autoImplicit false

namespace SwaggerRoutes.Naming

open Swagger Text

/-- The title of a description, the empty text if it has none. -/
def titleText (s : Spec) : List Char :=
  (s.info.title.getD "").toList

/-! ## Stems -/

theorem map_toLower_capitalize (word : List Char) :
    (capitalize word).map Char.toLower = word.map Char.toLower := by
  cases word with
  | nil => rfl
  | cons c word => simp [capitalize]

/-- The words of runs hold the letters and digits of the text, and no others. -/
theorem flatten_words (text : List Char) :
    ((runs Char.isAlphanum text).flatMap (cutWords .unknown [])).flatten =
      text.filter Char.isAlphanum := by
  have hrun : ∀ run ∈ runs Char.isAlphanum text, (cutWords .unknown [] run).flatten = run :=
    fun run hrun => flatten_cutWords .unknown [] (ne_nil_of_mem_runs hrun)
  calc ((runs Char.isAlphanum text).flatMap (cutWords .unknown [])).flatten
      = (runs Char.isAlphanum text).flatMap fun run => (cutWords .unknown [] run).flatten := by
        simp only [List.flatten_eq_flatMap, List.flatMap_assoc]
    _ = (runs Char.isAlphanum text).flatten := by
        rw [List.flatMap_def, List.map_congr_left hrun, List.map_id']
    _ = text.filter Char.isAlphanum := flatten_runs Char.isAlphanum text

theorem map_toLower_pascalCase (text : List Char) :
    (pascalCase text).map Char.toLower = (text.filter Char.isAlphanum).map Char.toLower := by
  rw [← flatten_words, pascalCase, List.map_flatMap, List.map_flatten, ← List.flatMap_def]
  simp only [map_toLower_capitalize]

theorem isAlphanum_eq_false_of_not_isIdentifierPart {c : Char} (hc : isIdentifierPart c = false) :
    c.isAlphanum = false := by
  by_contra h
  rw [isIdentifierPart_of_isAlphanum (by simpa using h)] at hc
  exact absurd hc (by decide)

/-- The runs of letters and digits in what is left of a title are those of the title: underscores
and dollar signs, which are kept, end them like the characters that are dropped. -/
theorem runs_isAlphanum_stripped (title : List Char) :
    runs Char.isAlphanum (stripped title) = runs Char.isAlphanum title :=
  runs_stripped (fun _ => isAlphanum_eq_false_of_not_isIdentifierPart) title

/-- A title gives what it would give without being cut down first. -/
theorem classStem_eq_pascalCase (title : List Char) : classStem title = pascalCase title := by
  rw [classStem, pascalCase, runs_isAlphanum_stripped, pascalCase]

/-- In lower case the stem for a title is its letters and digits. -/
theorem map_toLower_classStem (title : List Char) :
    (classStem title).map Char.toLower = (title.filter Char.isAlphanum).map Char.toLower := by
  rw [classStem_eq_pascalCase, map_toLower_pascalCase]

theorem classNameOfTitle_congr {title other : List Char}
    (h : runs Char.isAlphanum title = runs Char.isAlphanum other) :
    classNameOfTitle title = classNameOfTitle other := by
  have hstem : classStem title = classStem other := by
    rw [classStem_eq_pascalCase, classStem_eq_pascalCase, pascalCase, pascalCase, h]
  rw [classNameOfTitle, classNameOfTitle, hstem]

/-! ## Names -/

theorem isIdentifierStart_of_isAlphanum {c : Char} (h : c.isAlphanum = true) :
    isIdentifierStart c = c.isAlpha := by
  have hunderscore : c ≠ '_' := by
    rintro rfl
    exact absurd h (by decide)
  have hdollar : c ≠ '$' := by
    rintro rfl
    exact absurd h (by decide)
  rw [isIdentifierStart, beq_false_of_ne hunderscore, beq_false_of_ne hdollar, Bool.or_false,
    Bool.or_false]

/-- A title makes a stem if its first letter or digit is a letter. -/
theorem classNameOfTitle_eq (title : List Char) :
    classNameOfTitle title =
      if (title.find? Char.isAlphanum).any Char.isAlpha then
        String.ofList (classStem title) ++ classSuffix
      else classSuffix := by
  have hfirst : (classStem title).head?.map Char.toLower =
      (title.find? Char.isAlphanum).map Char.toLower := by
    rw [← List.head?_map, map_toLower_classStem, List.head?_map, List.head?_filter]
  unfold classNameOfTitle
  cases hfind : title.find? Char.isAlphanum with
  | none =>
      rw [hfind, Option.map_none, Option.map_eq_none_iff, List.head?_eq_none_iff] at hfirst
      rw [hfirst]
      rfl
  | some d =>
      rw [hfind, Option.map_some, Option.map_eq_some_iff] at hfirst
      obtain ⟨c, hc, hlower⟩ := hfirst
      obtain ⟨cs, hstem⟩ := List.head?_eq_some_iff.mp hc
      have hd : d.isAlphanum = true := List.find?_some hfind
      have hstart : isIdentifierStart c = d.isAlpha := by
        rw [← isIdentifierStart_toLower, hlower, isIdentifierStart_toLower,
          isIdentifierStart_of_isAlphanum hd]
      rw [hstem, Option.any_some, ← hstart]

theorem isAlphanum_eq_false_of_isBlank {c : Char} (h : isBlank c = true) :
    c.isAlphanum = false := by
  by_contra halphanum
  rw [isBlank_eq_false_of_isAlphanum (by simpa using halphanum)] at h
  exact absurd h (by decide)

/-- White space around a title makes no difference to the name, and a title of white space only
makes none. -/
theorem className_eq (s : Spec) : className s = classNameOfTitle (titleText s) := by
  have hnone : classNameOfTitle [] = classSuffix := rfl
  have htrim (title : List Char) : classNameOfTitle (trimChars title) = classNameOfTitle title :=
    classNameOfTitle_congr (runs_trimChars (fun c hc => isAlphanum_eq_false_of_isBlank hc) title)
  unfold className Spec.title? titleText
  cases s.info.title with
  | none => exact hnone.symm
  | some title =>
      rw [Option.getD_some, ← htrim, ← toList_trim, Option.map_some]
      by_cases hblank : trim title = "" <;> simp [Option.filter, hblank, hnone]

/-- A description has the class name of another if the title has the same runs of letters and
digits. -/
theorem className_eq_of_runs {s t : Spec}
    (h : runs Char.isAlphanum (titleText t) = runs Char.isAlphanum (titleText s)) :
    className t = className s := by
  rw [className_eq, className_eq, classNameOfTitle_congr h]

/-- The class name of a description, out of its title.  If the first letter or digit of the title is
a letter, the name ends with the suffix of all names, and what is in front of it is, but for the
case of letters, the letters and digits of the title.  Otherwise it is the suffix alone.  Only the
words count of which the title consists: gaps between them may be changed for others, and put in
front of them or behind. -/
theorem className_of_letters (s : Spec) :
    (∀ c, (titleText s).find? Char.isAlphanum = some c → c.isAlpha = true →
      ∃ stem : String, className s = stem ++ classSuffix ∧
        stem.toList.map Char.toLower =
          ((titleText s).filter Char.isAlphanum).map Char.toLower) ∧
    ((∀ c, (titleText s).find? Char.isAlphanum = some c → c.isAlpha = false) →
      className s = classSuffix) ∧
    (∃ words, Spaced Char.isAlphanum words (titleText s) ∧
      ∀ t : Spec, Spaced Char.isAlphanum words (titleText t) → className t = className s) ∧
    (∀ (t : Spec) (front back gap other : List Char), gap ≠ [] → other ≠ [] →
      IsGap Char.isAlphanum gap → IsGap Char.isAlphanum other →
      titleText s = front ++ gap ++ back → titleText t = front ++ other ++ back →
      className t = className s) ∧
    ∀ (t : Spec) (front back : List Char), IsGap Char.isAlphanum front →
      IsGap Char.isAlphanum back → titleText t = front ++ titleText s ++ back →
      className t = className s := by
  refine ⟨fun c hc halpha => ?_, fun hfirst => ?_, ?_, ?_, ?_⟩
  · refine ⟨String.ofList (classStem (titleText s)), ?_, ?_⟩
    · rw [className_eq, classNameOfTitle_eq, hc, Option.any_some, if_pos halpha]
    · rw [String.toList_ofList, map_toLower_classStem]
  · rw [className_eq, classNameOfTitle_eq]
    cases hfind : (titleText s).find? Char.isAlphanum with
    | none => rfl
    | some c => rw [Option.any_some, hfirst c hfind, if_neg Bool.false_ne_true]
  · refine ⟨_, spaced_runs Char.isAlphanum (titleText s), fun t ht => ?_⟩
    exact className_eq_of_runs (runs_eq_of_spaced ht)
  · intro t front back gap other hgap hother hs ht htitle htitle'
    refine className_eq_of_runs ?_
    rw [htitle, htitle', runs_append_gap_append hgap hs, runs_append_gap_append hother ht]
  · intro t front back hfront hback htitle
    refine className_eq_of_runs ?_
    rw [htitle, runs_append_gap hback, runs_gap_append hfront]

/-- Titles with underscores, acronyms and letters that are not ASCII, separated in different ways,
and one that starts with a digit. -/
theorem className_of_letters_of_odd_titles :
    let titled (title : String) : Spec :=
      { Spec.blank with info := { Info.blank with title := some title } }
    let s := titled "my_petHTTPServer – v2"
    let t := titled "my_petHTTPServer$\t?v2"
    let u := titled " (ß my_petHTTPServer – v2!"
    let digits := titled "_3D printer"
    (∃ stem : String, className s = stem ++ classSuffix ∧
      stem.toList.map Char.toLower = ((titleText s).filter Char.isAlphanum).map Char.toLower) ∧
    className s = "MyPetHttpServerV2RestDslRoutes" ∧
    className t = className s ∧ className u = className s ∧ className digits = classSuffix := by
  intro titled s t u digits
  obtain ⟨hstem, -, -, hgap, hends⟩ := className_of_letters s
  have hfirst : (titleText s).find? Char.isAlphanum = some 'm' := by decide
  have hdigits : ∀ c, (titleText digits).find? Char.isAlphanum = some c → c.isAlpha = false := by
    intro c hc
    have hthree : (titleText digits).find? Char.isAlphanum = some '3' := by decide
    obtain rfl : '3' = c := Option.some.inj (hthree.symm.trans hc)
    decide
  exact ⟨hstem 'm' hfirst (by decide), by decide,
    hgap t "my_petHTTPServer".toList "v2".toList " – ".toList "$\t?".toList
      (by decide) (by decide) (by decide) (by decide) (by decide) (by decide),
    hends u " (ß ".toList "!".toList (by decide) (by decide) (by decide),
    (className_of_letters digits).2.1 hdigits⟩

end SwaggerRoutes.Naming
