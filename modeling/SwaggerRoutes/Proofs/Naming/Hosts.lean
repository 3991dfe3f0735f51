/-
  Proofs/Naming/Hosts.lean --- a package says what the labels of a host say, back to front.

  `IsSegment` says what becomes of a label, by the words of which it consists.  Letters may be of
  either case all the way: trimming, cutting at points and cutting into words do not look at it, and
  each segment is in lower case in the end.  A label that is an identifier in lower case is its own
  segment, so a host of such labels can be read off its package.
-/
import Mathlib
import SwaggerRoutes.Proofs.Naming.Derived
import SwaggerRoutes.Proofs.Text.Runs

set_option autoImplicit false

namespace SwaggerRoutes.Naming

open Swagger Text

/-! ## What is meant -/

/-- The host of a description, the empty text if it has none. -/
def hostText (s : Spec) : List Char :=
  (s.host.getD "").toList

/-- A host up to its first colon. -/
def withoutPort (host : List Char) : List Char :=
  host.takeWhile (· != ':')

/-- The parts of a host name between its points. -/
def labels (name : List Char) : List (List Char) :=
  pieces '.' name

/-- A label has a letter, a digit, an underscore or a dollar sign. -/
def HasPart (label : List Char) : Prop :=
  ∃ c ∈ label, isIdentifierPart c = true

instance (label : List Char) : Decidable (HasPart label) :=
  decidable_of_iff (label.any isIdentifierPart = true) List.any_eq_true

/-- A host name of which a package is made. -/
structure NamesPackage (name : List Char) : Prop where
  ne_nil : name ≠ []
  ne_localhost : name.map Char.toLower ≠ "localhost".toList
  label : ∃ label ∈ labels name, HasPart label

/-- What goes in front of a word for a segment. -/
def segmentFront (word : List Char) : List Char :=
  if word.head?.any Char.isDigit then ['_'] else []

/-- What goes behind a word for a segment. -/
def segmentBack (word : List Char) : List Char :=
  if isReserved word then ['_'] else []

/-- A segment has the words of a label in lower case, with an underscore for each gap between two of
them, and where it needs them an underscore in front of a digit and one behind a reserved word. -/
def IsSegment (label segment : List Char) : Prop :=
  ∃ words word, Spaced isIdentifierPart words label ∧
    word = (join '_' words).map Char.toLower ∧
    segment = segmentFront word ++ word ++ segmentBack (segmentFront word ++ word)

/-! ## Letters of either case -/

/-- What is not a letter is nothing else in lower case, and no letter becomes it. -/
theorem toLower_eq_iff_of_not_isAlpha {c d : Char} (hd : d.isAlpha = false) :
    c.toLower = d ↔ c = d := by
  by_cases hc : c.isUpper = true
  · have halpha : c.isAlpha = true := by rw [Char.isAlpha, hc, Bool.true_or]
    constructor
    · rintro rfl
      rw [Char.isAlpha_toLower_eq_isAlpha, halpha] at hd
      exact absurd hd (by decide)
    · rintro rfl
      rw [halpha] at hd
      exact absurd hd (by decide)
  · rw [Char.toLower_eq_of_not_isUpper hc]

theorem isBlank_toLower (c : Char) : isBlank c.toLower = isBlank c := by
  by_cases hc : c.isUpper = true
  · have halpha : c.isAlphanum = true := by
      rw [Char.isAlphanum, Char.isAlpha, hc, Bool.true_or, Bool.true_or]
    rw [isBlank_eq_false_of_isAlphanum halpha, isBlank_eq_false_of_isAlphanum]
    rwa [isAlphanum_toLower]
  · rw [Char.toLower_eq_of_not_isUpper hc]

theorem map_toLower_map_toLower (cs : List Char) :
    (cs.map Char.toLower).map Char.toLower = cs.map Char.toLower := by
  simp [Function.comp_def]

theorem trimChars_map_toLower (cs : List Char) :
    trimChars (cs.map Char.toLower) = (trimChars cs).map Char.toLower := by
  have hblank : isBlank ∘ Char.toLower = isBlank := funext isBlank_toLower
  simp only [trimChars, List.dropWhile_map, hblank, ← List.map_reverse]

/-- Points stay where they are. -/
theorem labels_map_toLower (name : List Char) :
    labels (name.map Char.toLower) = (labels name).map (List.map Char.toLower) := by
  have hpoint (c : Char) : c.toLower = '.' ↔ c = '.' := toLower_eq_iff_of_not_isAlpha (by decide)
  induction name with
  | nil => rfl
  | cons c name ih =>
      simp only [labels] at ih
      simp only [labels, List.map_cons, pieces, hpoint, ih]
      split
      · rfl
      · cases pieces '.' name <;> rfl

/-! ## Segments -/

theorem guardDigit_map_toLower (word : List Char) :
    (guardDigit word).map Char.toLower = guardDigit (word.map Char.toLower) := by
  cases word with
  | nil => rfl
  | cons c word =>
      rw [List.map_cons, guardDigit, guardDigit, isDigit_toLower]
      split <;> rfl

theorem guardDigit_eq (word : List Char) : guardDigit word = segmentFront word ++ word := by
  cases word with
  | nil => rfl
  | cons c word =>
      rw [guardDigit, segmentFront, List.head?_cons, Option.any_some]
      split <;> rfl

theorem guardReserved_eq (word : List Char) : guardReserved word = word ++ segmentBack word := by
  unfold guardReserved segmentBack
  split
  · rfl
  · exact (List.append_nil word).symm

/-- The segment for a label is made of its words. -/
theorem isSegment_segmentOfLabel (label : List Char) : IsSegment label (segmentOfLabel label) := by
  refine ⟨_, _, spaced_runs isIdentifierPart label, rfl, ?_⟩
  rw [segmentOfLabel, underscored_stripped, guardDigit_map_toLower, guardReserved_eq,
    guardDigit_eq]

theorem segmentOfLabel_map_toLower (label : List Char) :
    segmentOfLabel (label.map Char.toLower) = segmentOfLabel label := by
  have hunderscore : Char.toLower '_' = '_' := rfl
  have hjoin : join '_' (runs isIdentifierPart (label.map Char.toLower)) =
      (join '_' (runs isIdentifierPart label)).map Char.toLower := by
    rw [runs_map isIdentifierPart_toLower, map_join, hunderscore]
  rw [segmentOfLabel, segmentOfLabel, underscored_stripped, underscored_stripped, hjoin,
    ← guardDigit_map_toLower, map_toLower_map_toLower]

/-- A label without identifier characters has no segment. -/
theorem segmentOfLabel_eq_nil_iff (label : List Char) :
    segmentOfLabel label = [] ↔ ¬ HasPart label := by
  have hgap : ¬ HasPart label ↔ runs isIdentifierPart label = [] := by
    rw [runs_eq_nil_iff]
    simp [HasPart, IsGap]
  rw [hgap, segmentOfLabel, underscored_stripped, guardDigit_map_toLower, guardReserved_eq,
    guardDigit_eq]
  constructor
  · intro h
    by_contra hruns
    have hjoin : join '_' (runs isIdentifierPart label) ≠ [] :=
      join_ne_nil hruns fun _ => ne_nil_of_mem_runs
    simp only [List.append_eq_nil_iff, List.map_eq_nil_iff] at h
    exact hjoin h.1.2
  · intro h
    rw [h]
    decide

theorem isDigit_eq_false_of_start {c : Char} (h : isIdentifierStart c = true) :
    c.isDigit = false := by
  by_contra hdigit
  have hletter := not_isLetter_of_isDigit (by simpa using hdigit)
  simp only [isIdentifierStart, Char.isAlpha, Bool.or_eq_true, beq_iff_eq] at h
  rcases h with ((hupper | hlower) | rfl) | rfl
  · exact hletter.1 hupper
  · exact hletter.2 hlower
  · exact absurd hdigit (by decide)
  · exact absurd hdigit (by decide)

/-- An identifier in lower case is its own segment. -/
theorem segmentOfLabel_eq_self {label : List Char} (h : isIdentifierChars label = true)
    (hlower : label.map Char.toLower = label) : segmentOfLabel label = label := by
  cases label with
  | nil => exact absurd h (by decide)
  | cons c cs =>
      obtain ⟨hfree, hstart, hpart⟩ := (isIdentifierChars_cons_iff c cs).mp h
      have hdigit : guardDigit (c :: cs) = c :: cs := by
        rw [guardDigit, if_neg (by simp [isDigit_eq_false_of_start hstart])]
      have hruns : runs isIdentifierPart (c :: cs) = [c :: cs] := by
        have hword : runs isIdentifierPart (c :: cs ++ []) =
            (c :: cs) :: runs isIdentifierPart [] :=
          runs_word_append (List.cons_ne_nil c cs) (fun d hd => isIdentifierPart_of_mem h hd)
            (by simp)
        simpa [runs] using hword
      rw [segmentOfLabel, underscored_stripped, hruns, join, hdigit, hlower, guardReserved,
        if_neg (by simp [hfree])]

/-! ## Packages -/

/-- The segments for the labels of a name, back to front. -/
def segmentsOfName (name : List Char) : List (List Char) :=
  ((labels name).reverse.map segmentOfLabel).filter fun p => !p.isEmpty

theorem segmentsOfName_eq (name : List Char) :
    segmentsOfName name = ((labels name).reverse.filter HasPart).map segmentOfLabel := by
  have hpart (label : List Char) :
      (!(segmentOfLabel label).isEmpty) = decide (HasPart label) := by
    rw [Bool.eq_iff_iff]
    simp [segmentOfLabel_eq_nil_iff]
  rw [segmentsOfName, List.filter_map]
  exact congrArg _ (List.filter_congr fun label _ => hpart label)

theorem segmentsOfName_map_toLower (name : List Char) :
    segmentsOfName (name.map Char.toLower) = segmentsOfName name := by
  simp only [segmentsOfName, labels_map_toLower, ← List.map_reverse, List.map_map,
    Function.comp_def, segmentOfLabel_map_toLower]

theorem packageOfHost_eq (host : String) :
    packageOfHost host =
      if isTelling (hostName host) = true ∧ segmentsOfName (hostName host) ≠ [] then
        String.ofList (join '.' (segmentsOfName (hostName host)))
      else defaultPackage := by
  simp only [packageOfHost]
  change (if _ then (if (segmentsOfName (hostName host)).isEmpty = true then _ else
    String.ofList (join '.' (segmentsOfName (hostName host)))) else _) = _
  by_cases ht : isTelling (hostName host) = true
  · by_cases hs : segmentsOfName (hostName host) = [] <;> simp [ht, hs]
  · simp [ht]

theorem packageName_eq (s : Spec) : packageName s = packageOfHost (s.host.getD "") := by
  have hnone : packageOfHost "" = defaultPackage := rfl
  unfold packageName
  cases s.host with
  | none => exact hnone.symm
  | some host => rfl

/-- The name of which the package of a description is made. -/
def nameOfHost (s : Spec) : List Char :=
  trimChars (withoutPort (hostText s))

theorem hostName_eq (s : Spec) : hostName (s.host.getD "") = nameOfHost s := rfl

/-- Letters in either case and anything behind a colon make no difference. -/
theorem packageName_eq_of_map_toLower {s t : Spec}
    (h : (withoutPort (hostText t)).map Char.toLower =
      (withoutPort (hostText s)).map Char.toLower) :
    packageName t = packageName s := by
  have hname : (nameOfHost t).map Char.toLower = (nameOfHost s).map Char.toLower := by
    rw [nameOfHost, nameOfHost, ← trimChars_map_toLower, ← trimChars_map_toLower, h]
  have hsegments : segmentsOfName (nameOfHost t) = segmentsOfName (nameOfHost s) := by
    rw [← segmentsOfName_map_toLower, hname, segmentsOfName_map_toLower]
  have htelling : isTelling (nameOfHost t) = isTelling (nameOfHost s) := by
    have hempty : (nameOfHost t).isEmpty = (nameOfHost s).isEmpty := by
      rw [← List.isEmpty_map (f := Char.toLower), hname, List.isEmpty_map]
    rw [isTelling, isTelling, hname, hempty]
  rw [packageName_eq, packageName_eq, packageOfHost_eq, packageOfHost_eq, hostName_eq, hostName_eq,
    hsegments, htelling]

theorem isTelling_iff (name : List Char) :
    isTelling name = true ↔ name ≠ [] ∧ name.map Char.toLower ≠ "localhost".toList := by
  simp [isTelling]

theorem namesPackage_iff (name : List Char) :
    NamesPackage name ↔ isTelling name = true ∧ segmentsOfName name ≠ [] := by
  have hlabel : segmentsOfName name ≠ [] ↔ ∃ label ∈ labels name, HasPart label := by
    simp [segmentsOfName_eq]
  rw [isTelling_iff, hlabel]
  exact ⟨fun h => ⟨⟨h.ne_nil, h.ne_localhost⟩, h.label⟩, fun h => ⟨h.1.1, h.1.2, h.2⟩⟩

theorem segments_packageName_eq {s : Spec} (h : NamesPackage (nameOfHost s)) :
    segments (packageName s) = segmentsOfName (nameOfHost s) := by
  have hvalid : ∀ p ∈ segmentsOfName (nameOfHost s), isIdentifierChars p = true := by
    intro p hp
    obtain ⟨hlabel, hne⟩ := List.mem_filter.mp hp
    obtain ⟨label, -, rfl⟩ := List.mem_map.mp hlabel
    exact isIdentifierChars_segmentOfLabel (by simpa using hne)
  have htells := (namesPackage_iff _).mp h
  rw [packageName_eq, packageOfHost_eq, hostName_eq, if_pos htells]
  exact segments_ofList_join htells.2 hvalid

/-! ## Labels in lower case -/

theorem hasPart_of_isIdentifierChars {label : List Char} (h : isIdentifierChars label = true) :
    HasPart label := by
  cases label with
  | nil => exact absurd h (by decide)
  | cons c cs => exact ⟨c, List.mem_cons_self, isIdentifierPart_of_mem h List.mem_cons_self⟩

/-- Labels that are identifiers in lower case are the segments, back to front. -/
theorem segmentsOfName_eq_reverse {name : List Char}
    (h : ∀ label ∈ labels name, isIdentifierChars label = true ∧ label.map Char.toLower = label) :
    segmentsOfName name = (labels name).reverse := by
  have hself : ∀ label ∈ (labels name).reverse, segmentOfLabel label = label := by
    intro label hlabel
    obtain ⟨hvalid, hlower⟩ := h label (List.mem_reverse.mp hlabel)
    exact segmentOfLabel_eq_self hvalid hlower
  have hparts : ∀ label ∈ (labels name).reverse, decide (HasPart label) = true := by
    intro label hlabel
    exact decide_eq_true (hasPart_of_isIdentifierChars (h label (List.mem_reverse.mp hlabel)).1)
  rw [segmentsOfName_eq, List.filter_eq_self.mpr hparts, List.map_congr_left hself, List.map_id']

theorem map_toLower_of_labels {name : List Char}
    (h : ∀ label ∈ labels name, label.map Char.toLower = label) :
    name.map Char.toLower = name := by
  have hlabels : labels (name.map Char.toLower) = labels name := by
    rw [labels_map_toLower, List.map_congr_left h, List.map_id']
  calc name.map Char.toLower
      = join '.' (labels (name.map Char.toLower)) := (join_pieces '.' _).symm
    _ = join '.' (labels name) := by rw [hlabels]
    _ = name := join_pieces '.' name

/-- Such labels name a package unless there is one only and it is `localhost`. -/
theorem namesPackage_of_labels {name : List Char}
    (h : ∀ label ∈ labels name, isIdentifierChars label = true ∧ label.map Char.toLower = label)
    (hlocal : name ≠ "localhost".toList) : NamesPackage name := by
  constructor
  case ne_nil =>
    rintro rfl
    exact absurd (h [] List.mem_cons_self).1 (by decide)
  case ne_localhost =>
    rwa [map_toLower_of_labels fun label hlabel => (h label hlabel).2]
  case label =>
    obtain ⟨label, hlabel⟩ := List.exists_mem_of_ne_nil (labels name) (pieces_ne_nil '.' name)
    exact ⟨label, hlabel, hasPart_of_isIdentifierChars (h label hlabel).1⟩

/-- The package of a description, out of its host.  Only what is in front of the first colon counts,
with letters in either case.  Where that names a package, there is one segment for each label with a
letter, a digit, an underscore or a dollar sign, back to front, and elsewhere it is the default.
Labels that are identifiers in lower case can be read off the package. -/
theorem segments_packageName (s : Spec) :
    (∀ t : Spec, (withoutPort (hostText t)).map Char.toLower =
        (withoutPort (hostText s)).map Char.toLower → packageName t = packageName s) ∧
    (NamesPackage (nameOfHost s) →
      List.Forall₂ IsSegment ((labels (nameOfHost s)).reverse.filter HasPart)
        (segments (packageName s))) ∧
    (¬ NamesPackage (nameOfHost s) → packageName s = defaultPackage) ∧
    ((∀ label ∈ labels (nameOfHost s),
        isIdentifierChars label = true ∧ label.map Char.toLower = label) →
      nameOfHost s ≠ "localhost".toList →
      (segments (packageName s)).reverse = labels (nameOfHost s)) := by
  refine ⟨fun t ht => packageName_eq_of_map_toLower ht, fun hnames => ?_, fun hnames => ?_,
    fun hlabels hlocal => ?_⟩
  · rw [segments_packageName_eq hnames, segmentsOfName_eq, List.forall₂_map_right_iff,
      List.forall₂_same]
    exact fun label _ => isSegment_segmentOfLabel label
  · rw [packageName_eq, packageOfHost_eq, hostName_eq, if_neg]
    rwa [← namesPackage_iff]
  · rw [segments_packageName_eq (namesPackage_of_labels hlabels hlocal),
      segmentsOfName_eq_reverse hlabels, List.reverse_reverse]

/-- Hosts with white space around them, letters in either case, empty labels, a label without
identifier characters, reserved words and digits in front; one of plain labels, and one that is
local. -/
theorem segments_packageName_of_odd_hosts :
    let s : Spec := { Spec.blank with host := some " New._.1-and--1.ß..Example.COM\t:80:90" }
    let t : Spec := { Spec.blank with host := some " nEW._.1-AND--1.ß..example.com\t" }
    let plain : Spec := { Spec.blank with host := some "api.x_1.example.com:80" }
    let home : Spec := { Spec.blank with host := some "LocalHost:8080" }
    packageName t = packageName s ∧
      NamesPackage (nameOfHost s) ∧
      List.Forall₂ IsSegment
        ["COM".toList, "Example".toList, "1-and--1".toList, "_".toList, "New".toList]
        (segments (packageName s)) ∧
      (segments (packageName s)).map String.ofList =
        ["com", "example", "_1_and_1", "__", "new_"] ∧
      nameOfHost plain = "api.x_1.example.com".toList ∧
      (segments (packageName plain)).reverse = labels (nameOfHost plain) ∧
      ¬ NamesPackage (nameOfHost home) ∧ packageName home = defaultPackage := by
  intro s t plain home
  obtain ⟨hsame, hnames, -, -⟩ := segments_packageName s
  have htells : NamesPackage (nameOfHost s) := ⟨by decide, by decide, "New".toList, by decide⟩
  have hlabels : (labels (nameOfHost s)).reverse.filter HasPart =
      ["COM".toList, "Example".toList, "1-and--1".toList, "_".toList, "New".toList] := by decide
  have hhome : ¬ NamesPackage (nameOfHost home) := fun h => absurd h.ne_localhost (by decide)
  exact ⟨hsame t (by decide), htells, hlabels ▸ hnames htells, by decide, by decide,
    (segments_packageName plain).2.2.2 (by decide) (by decide), hhome,
    (segments_packageName home).2.2.1 hhome⟩

end SwaggerRoutes.Naming
