/-
  Proofs/Text/Runs.lean --- a text is its runs with gaps around them.

  `Spaced` says what it is for a text to consist of words: each has characters with a property only,
  and there are gaps of other characters between them, and perhaps before and behind them.  A text
  consists of exactly one list of words in this way, and these are its runs.  So gaps may be changed
  for others, and put in front or behind, without any run noticing.
-/
import SwaggerRoutes.Text.Blank
import SwaggerRoutes.Text.Pieces

set_option autoImplicit false

namespace SwaggerRoutes.Text

variable {p : Char → Bool}

/-- Characters without a property only. -/
def IsGap (p : Char → Bool) (cs : List Char) : Prop :=
  ∀ c ∈ cs, p c = false

instance (p : Char → Bool) (cs : List Char) : Decidable (IsGap p cs) :=
  decidable_of_iff ((cs.all fun c => !p c) = true) (by simp [IsGap])

/-- A text consists of words, which are maximal parts whose characters have a property, with gaps
around them. -/
inductive Spaced (p : Char → Bool) : List (List Char) → List Char → Prop where
  /-- No words at all. -/
  | gap {cs : List Char} (h : IsGap p cs) : Spaced p [] cs
  /-- A first word; what is behind it does not go on with it. -/
  | word {gap w rest : List Char} {ws : List (List Char)} (hgap : IsGap p gap) (hne : w ≠ [])
      (hw : ∀ c ∈ w, p c = true) (hrest : ∀ c, rest.head? = some c → p c = false)
      (h : Spaced p ws rest) : Spaced p (w :: ws) (gap ++ w ++ rest)

/-! ## Texts of words -/

theorem IsGap.append {cs ds : List Char} (hcs : IsGap p cs) (hds : IsGap p ds) :
    IsGap p (cs ++ ds) := by
  intro c hc
  rcases List.mem_append.mp hc with hc | hc
  · exact hcs c hc
  · exact hds c hc

theorem Spaced.gap_append {gap cs : List Char} {ws : List (List Char)} (hgap : IsGap p gap)
    (h : Spaced p ws cs) : Spaced p ws (gap ++ cs) := by
  cases h with
  | gap hcs => exact .gap (hgap.append hcs)
  | @word front w rest ws hfront hne hw hrest h =>
      rw [← List.append_assoc, ← List.append_assoc]
      exact .word (hgap.append hfront) hne hw hrest h

/-- A character without the property ends a word, whatever is in front of it and behind it. -/
theorem Spaced.append_cons {c : Char} (hc : p c = false) {xs ys : List Char}
    {ws vs : List (List Char)} (hx : Spaced p ws xs) (hy : Spaced p vs ys) :
    Spaced p (ws ++ vs) (xs ++ c :: ys) := by
  have hgap : IsGap p [c] := by simpa [IsGap] using hc
  have hcons : Spaced p vs (c :: ys) := hy.gap_append hgap
  induction hx with
  | gap hxs => exact hcons.gap_append hxs
  | @word gap w rest ws hgap hne hw hrest _ ih =>
      rw [List.append_assoc]
      refine .word hgap hne hw (fun d hd => ?_) ih
      cases rest with
      | nil =>
          obtain rfl : c = d := by simpa using hd
          exact hc
      | cons e rest => exact hrest d hd

/-- What characters are changed into does not matter as long as they keep the property. -/
theorem Spaced.map {f : Char → Char} (hf : ∀ c, p (f c) = p c) {cs : List Char}
    {ws : List (List Char)} (h : Spaced p ws cs) : Spaced p (ws.map (List.map f)) (cs.map f) := by
  have hgap {xs : List Char} (hxs : IsGap p xs) : IsGap p (xs.map f) := by
    intro c hc
    obtain ⟨d, hd, rfl⟩ := List.mem_map.mp hc
    rw [hf, hxs d hd]
  induction h with
  | gap hcs => exact .gap (hgap hcs)
  | @word gap w rest ws hgaps hne hw hrest _ ih =>
      rw [List.map_append, List.map_append]
      refine .word (hgap hgaps) (by simpa using hne) (fun c hc => ?_) (fun c hc => ?_) ih
      · obtain ⟨d, hd, rfl⟩ := List.mem_map.mp hc
        rw [hf, hw d hd]
      · rw [List.head?_map, Option.map_eq_some_iff] at hc
        obtain ⟨d, hd, rfl⟩ := hc
        rw [hf, hrest d hd]

/-! ## Runs -/

theorem runs_cons_of_not {c : Char} (hc : p c = false) (cs : List Char) :
    runs p (c :: cs) = runs p cs := by
  simp [runs.eq_def p (c :: cs), hc]

theorem runs_gap_append {gap : List Char} (hgap : IsGap p gap) (cs : List Char) :
    runs p (gap ++ cs) = runs p cs := by
  induction gap with
  | nil => rfl
  | cons c gap ih =>
      rw [List.cons_append, runs_cons_of_not (hgap c List.mem_cons_self)]
      exact ih fun d hd => hgap d (List.mem_cons_of_mem c hd)

/-- A word with which nothing goes on is a run. -/
theorem runs_word_append {w rest : List Char} (hne : w ≠ []) (hw : ∀ c ∈ w, p c = true)
    (hrest : ∀ c, rest.head? = some c → p c = false) :
    runs p (w ++ rest) = w :: runs p rest := by
  induction w with
  | nil => exact absurd rfl hne
  | cons c w ih =>
      have hc : p c = true := hw c List.mem_cons_self
      cases w with
      | nil =>
          cases rest with
          | nil => simp [runs, hc]
          | cons d rest => simp [runs, hc, hrest d rfl]
      | cons d w =>
          have hd : p d = true := hw d (by simp)
          have hrun := ih (List.cons_ne_nil d w) fun e he => hw e (List.mem_cons_of_mem c he)
          rw [List.cons_append] at hrun
          rw [List.cons_append, List.cons_append, runs, if_pos hc, hrun]
          simp [hd]

/-- The words of which a text consists are its runs. -/
theorem runs_eq_of_spaced {cs : List Char} {ws : List (List Char)} (h : Spaced p ws cs) :
    runs p cs = ws := by
  induction h with
  | gap hcs => simpa [runs] using runs_gap_append hcs []
  | word hgap hne hw hrest _ ih =>
      rw [List.append_assoc, runs_gap_append hgap, runs_word_append hne hw hrest, ih]

/-- A character with the property goes on with the last word, if the text ends with it. -/
theorem Spaced.concat {c d : Char} (hc : p c = true) (hd : p d = true) {cs : List Char}
    {ws : List (List Char)} (h : Spaced p ws cs) (hlast : cs.getLast? = some d) :
    ∃ vs w, ws = vs ++ [w] ∧ Spaced p (vs ++ [w ++ [c]]) (cs ++ [c]) := by
  induction h with
  | gap hcs =>
      rw [hcs d (List.mem_of_getLast? hlast)] at hd
      exact absurd hd Bool.false_ne_true
  | @word gap w rest ws hgap hne hw hrest h ih =>
      cases rest with
      | nil =>
          obtain rfl : [] = ws := runs_eq_of_spaced h
          have hwc : ∀ e ∈ w ++ [c], p e = true := by
            intro e he
            rcases List.mem_append.mp he with he | he
            · exact hw e he
            · rwa [List.mem_singleton.mp he]
          refine ⟨[], w, rfl, ?_⟩
          have hword : Spaced p [w ++ [c]] (gap ++ (w ++ [c]) ++ []) :=
            .word hgap (by simp) hwc hrest h
          simpa using hword
      | cons e rest =>
          obtain ⟨vs, v, rfl, hvs⟩ := ih (by simpa using hlast)
          refine ⟨w :: vs, v, rfl, ?_⟩
          rw [List.append_assoc]
          exact .word hgap hne hw (by simpa using hrest) hvs

/-- Each text consists of words: a character goes on with the first word, or it is a word of its own
if a gap follows. -/
theorem exists_spaced (p : Char → Bool) (cs : List Char) : ∃ ws, Spaced p ws cs := by
  induction cs with
  | nil => exact ⟨[], .gap fun _ hc => absurd hc List.not_mem_nil⟩
  | cons c cs ih =>
      obtain ⟨ws, h⟩ := ih
      have hnil : IsGap p [] := fun _ hd => absurd hd List.not_mem_nil
      by_cases hc : p c = true
      · have halone (hcs : ∀ d, cs.head? = some d → p d = false) : Spaced p ([c] :: ws) (c :: cs) :=
          .word hnil (List.cons_ne_nil c []) (by simpa using hc) hcs h
        cases h with
        | gap hcs => exact ⟨_, halone fun d hd => hcs d (List.mem_of_head? hd)⟩
        | @word gap w rest ws hgap hne hw hrest hws =>
            cases gap with
            | nil =>
                have hcw : ∀ d ∈ c :: w, p d = true := List.forall_mem_cons.mpr ⟨hc, hw⟩
                exact ⟨_, .word hnil (List.cons_ne_nil c w) hcw hrest hws⟩
            | cons d gap =>
                refine ⟨_, halone fun e he => ?_⟩
                obtain rfl : d = e := by simpa using he
                exact hgap d List.mem_cons_self
      · have hgap : IsGap p [c] := by simpa [IsGap] using hc
        exact ⟨ws, h.gap_append hgap⟩

theorem spaced_runs (p : Char → Bool) (cs : List Char) : Spaced p (runs p cs) cs := by
  obtain ⟨ws, h⟩ := exists_spaced p cs
  rwa [runs_eq_of_spaced h]

theorem runs_append_cons {c : Char} (hc : p c = false) (xs ys : List Char) :
    runs p (xs ++ c :: ys) = runs p xs ++ runs p ys :=
  runs_eq_of_spaced ((spaced_runs p xs).append_cons hc (spaced_runs p ys))

/-- Runs do not see which gap is between them. -/
theorem runs_append_gap_append {gap : List Char} (hne : gap ≠ []) (hgap : IsGap p gap)
    (xs ys : List Char) : runs p (xs ++ gap ++ ys) = runs p xs ++ runs p ys := by
  cases gap with
  | nil => exact absurd rfl hne
  | cons c gap =>
      have hc : p c = false := hgap c List.mem_cons_self
      have hrest : IsGap p gap := fun d hd => hgap d (List.mem_cons_of_mem c hd)
      rw [List.append_assoc, List.cons_append, runs_append_cons hc, runs_gap_append hrest]

theorem runs_append_gap {gap : List Char} (hgap : IsGap p gap) (cs : List Char) :
    runs p (cs ++ gap) = runs p cs := by
  cases gap with
  | nil => rw [List.append_nil]
  | cons c gap =>
      have hcut := runs_append_gap_append (List.cons_ne_nil c gap) hgap cs []
      simpa [runs] using hcut

/-- A character with the property makes a run of its own at the start of a text and behind a gap. -/
theorem runs_concat_of_gap {c : Char} (hc : p c = true) {cs : List Char}
    (h : ∀ d, cs.getLast? = some d → p d = false) : runs p (cs ++ [c]) = runs p cs ++ [[c]] := by
  have hone : runs p [c] = [[c]] := by simp [runs, hc]
  cases hlast : cs.getLast? with
  | none =>
      rw [List.getLast?_eq_none_iff.mp hlast]
      exact hone
  | some d =>
      have hd : p d = false := h d hlast
      obtain ⟨ds, rfl⟩ := List.getLast?_eq_some_iff.mp hlast
      have hgap : IsGap p [d] := by simpa [IsGap] using hd
      rw [List.append_assoc, List.singleton_append, runs_append_cons hd, runs_append_gap hgap, hone]

/-- Elsewhere it goes on with the last run. -/
theorem exists_runs_concat {c d : Char} (hc : p c = true) (hd : p d = true) {cs : List Char}
    (hlast : cs.getLast? = some d) :
    ∃ ws w, runs p cs = ws ++ [w] ∧ runs p (cs ++ [c]) = ws ++ [w ++ [c]] := by
  obtain ⟨ws, w, hruns, h⟩ := (spaced_runs p cs).concat hc hd hlast
  exact ⟨ws, w, hruns, runs_eq_of_spaced h⟩

theorem runs_map {f : Char → Char} (hf : ∀ c, p (f c) = p c) (cs : List Char) :
    runs p (cs.map f) = (runs p cs).map (List.map f) :=
  runs_eq_of_spaced ((spaced_runs p cs).map hf)

/-- Runs of fewer characters are found in the words of more characters, one after another. -/
theorem Spaced.runs_eq_flatMap {q : Char → Bool} (hq : ∀ c, p c = false → q c = false)
    {cs : List Char} {ws : List (List Char)} (h : Spaced p ws cs) :
    runs q cs = ws.flatMap (runs q) := by
  induction h with
  | gap hcs => exact runs_eq_of_spaced (.gap fun c hc => hq c (hcs c hc))
  | @word gap w rest ws hgap _ _ hrest _ ih =>
      rw [List.append_assoc, runs_gap_append fun c hc => hq c (hgap c hc), List.flatMap_cons, ← ih]
      cases rest with
      | nil => simp [runs]
      | cons d rest =>
          have hd : q d = false := hq d (hrest d rfl)
          rw [runs_append_cons hd, runs_cons_of_not hd]

theorem runs_join {sep : Char} (hsep : p sep = false) (ws : List (List Char)) :
    runs p (join sep ws) = ws.flatMap (runs p) := by
  induction ws with
  | nil => rfl
  | cons w ws ih =>
      cases ws with
      | nil => simp [join]
      | cons v ws => rw [join, runs_append_cons hsep, ih]; rfl

/-- There are runs where there are characters with the property. -/
theorem runs_eq_nil_iff {cs : List Char} : runs p cs = [] ↔ IsGap p cs := by
  constructor
  · intro h c hc
    have hflat := flatten_runs p cs
    rw [h, List.flatten_nil, eq_comm, List.filter_eq_nil_iff] at hflat
    simpa using hflat c hc
  · exact fun h => runs_eq_of_spaced (.gap h)

/-! ## White space -/

/-- White space at the ends of a text is all that trimming takes away. -/
theorem exists_trimChars (cs : List Char) :
    ∃ front back, cs = front ++ trimChars cs ++ back ∧
      (∀ c ∈ front, isBlank c = true) ∧ ∀ c ∈ back, isBlank c = true := by
  refine ⟨cs.takeWhile isBlank, ((cs.dropWhile isBlank).reverse.takeWhile isBlank).reverse, ?_,
    fun c hc => ?_, fun c hc => ?_⟩
  · rw [trimChars, List.append_assoc, ← List.reverse_append, List.takeWhile_append_dropWhile,
      List.reverse_reverse, List.takeWhile_append_dropWhile]
  · exact List.all_eq_true.mp List.all_takeWhile c hc
  · exact List.all_eq_true.mp List.all_takeWhile c (List.mem_reverse.mp hc)

/-- A text without the white space around it has the runs of the text, if white space has not the
property. -/
theorem runs_trimChars (hp : ∀ c, isBlank c = true → p c = false) (cs : List Char) :
    runs p (trimChars cs) = runs p cs := by
  obtain ⟨front, back, hcs, hfront, hback⟩ := exists_trimChars cs
  calc runs p (trimChars cs)
      = runs p (front ++ (trimChars cs ++ back)) := by
        rw [runs_gap_append fun c hc => hp c (hfront c hc),
          runs_append_gap fun c hc => hp c (hback c hc)]
    _ = runs p cs := by rw [← List.append_assoc, ← hcs]

end SwaggerRoutes.Text
