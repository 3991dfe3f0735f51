/-
  Proofs/Naming/Identifiers.lean --- what identifiers and qualified names are made of.

  An identifier is not empty, has no character outside its alphabet, and is no reserved word.  So a
  point in a qualified name always stands between two segments, and putting names after each other
  puts their segments after each other.
-/
import SwaggerRoutes.Naming.Identifier

set_option autoImplicit false

namespace SwaggerRoutes.Naming

open Text

/-! ## Identifiers -/

theorem isIdentifierPart_of_start {c : Char} (h : isIdentifierStart c = true) :
    isIdentifierPart c = true := by
  rw [isIdentifierPart, h, Bool.true_or]

/-- A character of identifiers that is no digit may start one. -/
theorem isIdentifierStart_of_part {c : Char} (h : isIdentifierPart c = true)
    (hdigit : c.isDigit = false) : isIdentifierStart c = true := by
  rwa [isIdentifierPart, hdigit, Bool.or_false] at h

theorem isIdentifierChars_cons_iff (c : Char) (cs : List Char) :
    isIdentifierChars (c :: cs) = true ↔
      isReserved (c :: cs) = false ∧ isIdentifierStart c = true ∧
        ∀ d ∈ cs, isIdentifierPart d = true := by
  simp only [isIdentifierChars, Bool.and_eq_true, Bool.not_eq_true', List.all_eq_true]

theorem isIdentifierPart_of_mem {cs : List Char} (h : isIdentifierChars cs = true) {c : Char}
    (hc : c ∈ cs) : isIdentifierPart c = true := by
  cases cs with
  | nil => exact absurd hc List.not_mem_nil
  | cons d ds =>
      obtain ⟨-, hstart, hrest⟩ := (isIdentifierChars_cons_iff d ds).mp h
      rcases List.mem_cons.mp hc with rfl | hc
      · exact isIdentifierPart_of_start hstart
      · exact hrest c hc

/-- An identifier has none of the characters outside its alphabet. -/
theorem not_mem_of_isIdentifierChars {cs : List Char} (h : isIdentifierChars cs = true) {c : Char}
    (hc : isIdentifierPart c = false) : c ∉ cs := by
  intro hmem
  rw [isIdentifierPart_of_mem h hmem] at hc
  exact absurd hc (by decide)

/-! ## Qualified names -/

/-- A qualified name is its segments with points between them. -/
theorem intercalate_segments (name : String) :
    ".".intercalate ((segments name).map String.ofList) = name := by
  have hpoint : ".".toList = ['.'] := rfl
  apply String.toList_injective
  rw [toList_intercalate hpoint, List.map_map]
  simpa [segments, Function.comp_def] using join_pieces '.' name.toList

/-- A qualified name has no characters but those of identifiers, and points. -/
theorem not_mem_of_isQualifiedName {name : String} (h : isQualifiedName name = true) {c : Char}
    (hc : isIdentifierPart c = false) (hpoint : c ≠ '.') : c ∉ name.toList := by
  intro hmem
  rw [← join_pieces '.' name.toList] at hmem
  rcases mem_join hmem with heq | ⟨p, hp, hcp⟩
  · exact hpoint heq
  · exact not_mem_of_isIdentifierChars (List.all_eq_true.mp h p hp) hc hcp

theorem segments_qualify (package name : String) :
    segments (qualify package name) = segments package ++ segments name := by
  have hchars : (qualify package name).toList = package.toList ++ '.' :: name.toList := by
    simp [qualify]
  rw [segments, hchars, pieces_append_cons]
  rfl

theorem isQualifiedName_qualify_iff (package name : String) :
    isQualifiedName (qualify package name) = true ↔
      isQualifiedName package = true ∧ isQualifiedName name = true := by
  rw [isQualifiedName, segments_qualify, List.all_append, Bool.and_eq_true]
  rfl

/-- An identifier is its own and only segment. -/
theorem segments_of_isIdentifier {name : String} (h : isIdentifier name = true) :
    segments name = [name.toList] :=
  pieces_of_not_mem (not_mem_of_isIdentifierChars h (by decide))

theorem isQualifiedName_of_isIdentifier {name : String} (h : isIdentifier name = true) :
    isQualifiedName name = true := by
  rw [isQualifiedName, segments_of_isIdentifier h, List.all_cons, List.all_nil, Bool.and_true]
  exact h

/-- Identifiers with points between them form a qualified name of which they are the segments. -/
theorem segments_ofList_join {parts : List (List Char)} (hne : parts ≠ [])
    (h : ∀ p ∈ parts, isIdentifierChars p = true) :
    segments (String.ofList (join '.' parts)) = parts := by
  rw [segments, String.toList_ofList]
  exact pieces_join hne fun p hp => not_mem_of_isIdentifierChars (h p hp) (by decide)

end SwaggerRoutes.Naming
