/-
  Text/Pieces.lean --- texts cut at separators.

  `pieces` cuts at each separator and keeps empty pieces, so joining them again gives the text.
  `runs` gives the maximal parts whose characters all have a property, none of them empty.
-/

set_option autoImplicit false

namespace SwaggerRoutes.Text

/-! ## Pieces -/

/-- The parts of a text between separators, of which there is always one more than separators. -/
def pieces (sep : Char) : List Char → List (List Char)
  | [] => [[]]
  | c :: cs =>
    if c = sep then [] :: pieces sep cs
    else
      match pieces sep cs with
      | [] => [[c]]
      | p :: ps => (c :: p) :: ps

/-- Parts with a separator between each two. -/
def join (sep : Char) : List (List Char) → List Char
  | [] => []
  | [p] => p
  | p :: q :: ps => p ++ sep :: join sep (q :: ps)

theorem mem_join {sep c : Char} {ps : List (List Char)} (h : c ∈ join sep ps) :
    c = sep ∨ ∃ p ∈ ps, c ∈ p := by
  induction ps with
  | nil => exact absurd h List.not_mem_nil
  | cons p ps ih =>
      cases ps with
      | nil => exact .inr ⟨p, List.mem_cons_self, h⟩
      | cons q ps =>
          rcases List.mem_append.mp h with h | h
          · exact .inr ⟨p, List.mem_cons_self, h⟩
          · rcases List.mem_cons.mp h with h | h
            · exact .inl h
            · rcases ih h with h | ⟨r, hr, h⟩
              · exact .inl h
              · exact .inr ⟨r, List.mem_cons_of_mem p hr, h⟩

/-- Words with something in them, joined, are something. -/
theorem join_ne_nil {sep : Char} {ps : List (List Char)} (hne : ps ≠ [])
    (h : ∀ p ∈ ps, p ≠ []) : join sep ps ≠ [] := by
  match ps with
  | [] => exact absurd rfl hne
  | [p] => exact h p List.mem_cons_self
  | p :: q :: ps =>
      rw [join]
      exact List.append_ne_nil_of_left_ne_nil (h p List.mem_cons_self) _

/-- One more part comes behind one more separator. -/
theorem join_concat {sep : Char} {ps : List (List Char)} (hne : ps ≠ []) (q : List Char) :
    join sep (ps ++ [q]) = join sep ps ++ sep :: q := by
  induction ps with
  | nil => exact absurd rfl hne
  | cons p ps ih =>
      cases ps with
      | nil => rfl
      | cons r ps =>
          have hrest := ih (List.cons_ne_nil r ps)
          rw [List.cons_append] at hrest
          rw [List.cons_append, List.cons_append, join, hrest, join, List.append_assoc]
          rfl

/-- What is put behind the last part is put behind all. -/
theorem join_concat_append (sep : Char) (ps : List (List Char)) (p q : List Char) :
    join sep (ps ++ [p ++ q]) = join sep (ps ++ [p]) ++ q := by
  cases ps with
  | nil => rfl
  | cons r ps =>
      rw [join_concat (List.cons_ne_nil r ps), join_concat (List.cons_ne_nil r ps),
        List.append_assoc, List.cons_append]

/-- Changing each character changes the separators too. -/
theorem map_join (f : Char → Char) (sep : Char) (ps : List (List Char)) :
    (join sep ps).map f = join (f sep) (ps.map (List.map f)) := by
  induction ps with
  | nil => rfl
  | cons p ps ih =>
      cases ps with
      | nil => rfl
      | cons q ps =>
          rw [join, List.map_append, List.map_cons, ih]
          rfl

theorem toList_intercalate {s : String} {sep : Char} (h : s.toList = [sep]) (ps : List String) :
    (s.intercalate ps).toList = join sep (ps.map String.toList) := by
  induction ps with
  | nil => rfl
  | cons p ps ih =>
      cases ps with
      | nil => simp [join]
      | cons q ps =>
          rw [String.intercalate_cons_cons]
          simp [join, ih, h]

theorem pieces_ne_nil (sep : Char) (cs : List Char) : pieces sep cs ≠ [] := by
  cases cs with
  | nil => simp [pieces]
  | cons c cs =>
    simp only [pieces]
    split
    · simp
    · split <;> simp

theorem join_pieces (sep : Char) (cs : List Char) : join sep (pieces sep cs) = cs := by
  induction cs with
  | nil => rfl
  | cons c cs ih =>
    simp only [pieces]
    split
    · next h =>
      subst h
      cases hp : pieces c cs with
      | nil => exact absurd hp (pieces_ne_nil _ _)
      | cons p ps => rw [hp] at ih; simp [join, ih]
    · split
      · next hp => exact absurd hp (pieces_ne_nil _ _)
      · next p ps hp =>
        rw [hp] at ih
        cases ps with
        | nil => simpa [join] using ih
        | cons q ps => simpa [join] using ih

theorem not_mem_of_mem_pieces {sep : Char} {cs p : List Char} (h : p ∈ pieces sep cs) :
    sep ∉ p := by
  induction cs generalizing p with
  | nil => simp [pieces] at h; simp [h]
  | cons c cs ih =>
    simp only [pieces] at h
    split at h
    · rcases List.mem_cons.1 h with rfl | h
      · simp
      · exact ih h
    · next hc =>
      split at h
      · next hp => exact absurd hp (pieces_ne_nil _ _)
      · next q qs hp =>
        rcases List.mem_cons.1 h with rfl | h
        · intro hs
          rcases List.mem_cons.1 hs with hs | hs
          · exact hc hs.symm
          · exact ih (hp ▸ List.mem_cons_self) hs
        · exact ih (hp ▸ List.mem_cons_of_mem _ h)

theorem pieces_of_not_mem {sep : Char} {cs : List Char} (h : sep ∉ cs) : pieces sep cs = [cs] := by
  induction cs with
  | nil => rfl
  | cons c cs ih =>
    have hc : ¬ c = sep := fun hc => h (hc ▸ List.mem_cons_self)
    have hcs : sep ∉ cs := fun hs => h (List.mem_cons_of_mem c hs)
    rw [pieces, if_neg hc, ih hcs]

/-- A separator ends a piece, whatever is in front of it and behind it. -/
theorem pieces_append_cons (sep : Char) (cs ds : List Char) :
    pieces sep (cs ++ sep :: ds) = pieces sep cs ++ pieces sep ds := by
  induction cs with
  | nil => simp [pieces]
  | cons c cs ih =>
    rw [List.cons_append, pieces, pieces, ih]
    split
    · rfl
    · cases hp : pieces sep cs with
      | nil => exact absurd hp (pieces_ne_nil sep cs)
      | cons p ps => rfl

/-- Parts without separators are the pieces of the text that they are joined to. -/
theorem pieces_join {sep : Char} {ps : List (List Char)} (hne : ps ≠ [])
    (h : ∀ p ∈ ps, sep ∉ p) : pieces sep (join sep ps) = ps := by
  induction ps with
  | nil => exact absurd rfl hne
  | cons p ps ih =>
    have hp : pieces sep p = [p] := pieces_of_not_mem (h p List.mem_cons_self)
    cases ps with
    | nil => exact hp
    | cons q ps =>
      have hrest := ih (List.cons_ne_nil q ps) fun r hr => h r (List.mem_cons_of_mem p hr)
      rw [join, pieces_append_cons, hp, hrest]
      rfl

/-! ## Runs -/

/-- The maximal parts whose characters have a property. -/
def runs (p : Char → Bool) : List Char → List (List Char)
  | [] => []
  | c :: cs =>
    if p c then
      match cs with
      | [] => [[c]]
      | d :: _ =>
        if p d then
          match runs p cs with
          | [] => [[c]]
          | r :: rs => (c :: r) :: rs
        else [c] :: runs p cs
    else runs p cs

/-- The runs of a text hold the characters with the property, and no others. -/
theorem flatten_runs (p : Char → Bool) (cs : List Char) : (runs p cs).flatten = cs.filter p := by
  fun_induction runs p cs with
  | case1 => rfl
  | case2 c hc => simp [hc]
  | case3 c hc d tail hd hrest ih => simp_all
  | case4 c hc d tail hd r rs hrest ih => simp_all
  | case5 c hc d tail hd ih => simp_all
  | case6 c cs hc ih => simp_all

theorem of_mem_runs {p : Char → Bool} {cs r : List Char} (hr : r ∈ runs p cs) {c : Char}
    (hc : c ∈ r) : p c = true := by
  have hflat : c ∈ (runs p cs).flatten := List.mem_flatten_of_mem hr hc
  rw [flatten_runs] at hflat
  exact (List.mem_filter.mp hflat).2

theorem ne_nil_of_mem_runs {p : Char → Bool} {cs r : List Char} (h : r ∈ runs p cs) : r ≠ [] := by
  fun_induction runs p cs with
  | case1 => simp at h
  | case2 c hc => simp_all
  | case3 c hc d tail hd hrest ih => simp_all
  | case4 c hc d tail hd q rs hrest ih =>
    rw [hrest] at h
    rcases List.mem_cons.1 h with rfl | h
    · simp
    · exact ih (hrest ▸ List.mem_cons_of_mem q h)
  | case5 c hc d tail hd ih =>
    rcases List.mem_cons.1 h with rfl | h
    · simp
    · exact ih h
  | case6 c cs hc ih => exact ih h

end SwaggerRoutes.Text
