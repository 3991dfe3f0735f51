/-
  Proofs/Naming/Stripped.lean --- what a scan keeps are the runs of identifier characters.

  `HasRead` is the invariant of a scan: it has kept the runs of the text so far with a space between
  each two of them, and it knows whether the last character was dropped.  A kept character goes on
  with the last run, unless one was dropped just before; then it starts a run of its own.
-/
import SwaggerRoutes.Naming.PackageName
import SwaggerRoutes.Proofs.Text.Runs

set_option autoImplicit false

namespace SwaggerRoutes.Naming

open Text

namespace Scan

/-- A scan has read a text. -/
structure HasRead (s : Scan) (text : List Char) : Prop where
  kept : s.kept = join ' ' (runs isIdentifierPart text)
  dropped : s.dropped = text.getLast?.any fun c => !isIdentifierPart c

theorem hasRead_start : start.HasRead [] :=
  ⟨rfl, rfl⟩

/-- Nothing has been kept exactly if there was no run. -/
theorem HasRead.kept_eq_nil_iff {s : Scan} {text : List Char} (h : s.HasRead text) :
    s.kept = [] ↔ runs isIdentifierPart text = [] := by
  rw [h.kept]
  constructor
  · intro hkept
    by_cases hruns : runs isIdentifierPart text = []
    · exact hruns
    · exact absurd hkept (join_ne_nil hruns fun _ => ne_nil_of_mem_runs)
  · intro hruns
    rw [hruns]
    rfl

section

variable {s : Scan} {text : List Char} {c : Char}

theorem dropped_concat (hc : isIdentifierPart c = true) :
    false = (text ++ [c]).getLast?.any fun c => !isIdentifierPart c := by
  simp [hc]

theorem HasRead.next_of_dropped (h : s.HasRead text) (hc : isIdentifierPart c = false) :
    (s.next c).HasRead (text ++ [c]) := by
  have hgap : IsGap isIdentifierPart [c] := by simpa [IsGap] using hc
  rw [next, if_neg (by simp [hc])]
  exact ⟨by rw [runs_append_gap hgap, h.kept], by simp [hc]⟩

/-- Behind a character that was kept, a run goes on. -/
theorem HasRead.next_of_kept (h : s.HasRead text) (hc : isIdentifierPart c = true) {d : Char}
    (hlast : text.getLast? = some d) (hd : isIdentifierPart d = true) :
    (s.next c).HasRead (text ++ [c]) := by
  have hstays : s.dropped = false := by rw [h.dropped, hlast]; simp [hd]
  obtain ⟨ws, w, hruns, hmore⟩ := exists_runs_concat hc hd hlast
  rw [next, if_pos hc, if_neg (by simp [hstays])]
  exact ⟨by rw [h.kept, hruns, hmore, join_concat_append], dropped_concat hc⟩

/-- Elsewhere a new run starts, with a space in front unless it is the first one. -/
theorem HasRead.next_of_gap (h : s.HasRead text) (hc : isIdentifierPart c = true)
    (hgap : ∀ d, text.getLast? = some d → isIdentifierPart d = false) :
    (s.next c).HasRead (text ++ [c]) := by
  have hruns := runs_concat_of_gap hc hgap
  rw [next, if_pos hc]
  by_cases hnone : runs isIdentifierPart text = []
  · rw [h.kept_eq_nil_iff.mpr hnone, if_neg (by simp)]
    exact ⟨by rw [hruns, hnone]; rfl, dropped_concat hc⟩
  · have hkept : s.kept ≠ [] := mt h.kept_eq_nil_iff.mp hnone
    have hset : s.dropped = true := by
      cases hlast : text.getLast? with
      | none =>
          rw [List.getLast?_eq_none_iff.mp hlast] at hnone
          exact absurd rfl hnone
      | some d =>
          rw [h.dropped, hlast]
          simp [hgap d hlast]
    rw [if_pos (by simp [hset, hkept])]
    exact ⟨by rw [hruns, join_concat hnone, h.kept], dropped_concat hc⟩

end

/-- Reading one more character. -/
theorem HasRead.next {s : Scan} {text : List Char} (h : s.HasRead text) (c : Char) :
    (s.next c).HasRead (text ++ [c]) := by
  cases hc : isIdentifierPart c with
  | false => exact h.next_of_dropped hc
  | true =>
      by_cases hkept : ∃ d, text.getLast? = some d ∧ isIdentifierPart d = true
      · obtain ⟨d, hlast, hd⟩ := hkept
        exact h.next_of_kept hc hlast hd
      · refine h.next_of_gap hc fun d hlast => ?_
        simpa using fun hd => hkept ⟨d, hlast, hd⟩

/-- Reading more characters. -/
theorem HasRead.foldl_next {s : Scan} {text : List Char} (h : s.HasRead text) (more : List Char) :
    (more.foldl Scan.next s).HasRead (text ++ more) := by
  induction more generalizing s text with
  | nil => rwa [List.append_nil]
  | cons c more ih =>
      have hrest := ih (h.next c)
      rwa [List.append_assoc] at hrest

/-- Reading a whole text. -/
theorem hasRead_ofText (text : List Char) : (ofText text).HasRead text :=
  hasRead_start.foldl_next text

end Scan

/-- What is left of a text are its runs of identifier characters. -/
theorem stripped_eq (text : List Char) :
    stripped text = join ' ' (runs isIdentifierPart text) :=
  (Scan.hasRead_ofText text).kept

example : stripped " _3D,  printer$ (v2)".toList = "_3D printer$ v2".toList := by decide

/-- The runs of fewer characters are the same in what is left of a text. -/
theorem runs_stripped {q : Char → Bool} (hq : ∀ c, isIdentifierPart c = false → q c = false)
    (text : List Char) : runs q (stripped text) = runs q text := by
  rw [stripped_eq, runs_join (hq ' ' (by decide)),
    ← (spaced_runs isIdentifierPart text).runs_eq_flatMap hq]

/-- No run of identifier characters has a space, so those that are changed are between them. -/
theorem underscored_stripped (text : List Char) :
    underscored (stripped text) = join '_' (runs isIdentifierPart text) := by
  have hkeep : ∀ w ∈ runs isIdentifierPart text,
      w.map (fun c => if c = ' ' then '_' else c) = w := by
    intro w hw
    refine (List.map_congr_left fun c hc => if_neg ?_).trans (List.map_id' w)
    rintro rfl
    exact absurd (of_mem_runs hw hc) (by decide)
  rw [underscored, stripped_eq, map_join, List.map_congr_left hkeep, List.map_id', if_pos rfl]

end SwaggerRoutes.Naming
