/-
  Proofs/Java/Reads.lean --- rules for reading a source piece by piece.

  `Reads cs ls` says that characters, begun between lexemes, hold no number of a character, are read
  as lexemes, and leave nothing begun.  Pieces that are read may be put one after another.  A word
  or a literal is no such piece, as what follows may belong to it: the rules for them speak of the
  character that follows, and put one lexeme in front of what is read from that character on.
-/
import Mathlib.Data.List.Chain
import SwaggerRoutes.Proofs.Java.Lexeme
import SwaggerRoutes.Source.Escape
import SwaggerRoutes.Text.Pieces

set_option autoImplicit false

namespace SwaggerRoutes.Java

open Source

/-! ## Backslashes in pairs -/

/-- Whether each backslash in a text is followed by a character other than `u`, with which it makes
a pair. -/
def isPaired : List Char → Bool
  | [] => true
  | ['\\'] => false
  | '\\' :: c :: cs => c != 'u' && isPaired cs
  | _ :: cs => isPaired cs

/-- There are no numbers of characters in a text in which each backslash makes a pair. -/
theorem translate_of_isPaired {cs : List Char} (h : isPaired cs = true) :
    translate cs = some cs := by
  fun_induction isPaired cs with
  | case1 => rw [translate]
  | case2 => exact absurd h (by simp)
  | case3 c cs ih =>
      simp only [Bool.and_eq_true, bne_iff_ne, ne_eq] at h
      obtain ⟨hu, hcs⟩ := h
      by_cases hc : c = '\\'
      · subst hc
        rw [translate, ih hcs]
        rfl
      · have htail : translate (c :: cs) = some (c :: cs) := by
          rw [translate, ih hcs]
          · rfl
          · exact fun _ h _ => hc h
          · exact fun _ h _ => hc h
        rw [translate, htail]
        · rfl
        · exact fun _ _ h => hc (List.cons.inj h).1
        · exact fun _ _ h => hu (List.cons.inj h).1
  | case4 c cs hlast hpair ih =>
      rw [translate, ih h]
      · rfl
      · exact fun ds hb hd => hpair '\\' ds hb hd
      · exact fun ds hb hd => hpair 'u' ds hb hd

theorem isPaired_append {cs ds : List Char} (hcs : isPaired cs = true) (hds : isPaired ds = true) :
    isPaired (cs ++ ds) = true := by
  fun_induction isPaired cs with
  | case1 => exact hds
  | case2 => exact absurd hcs (by simp)
  | case3 c cs ih =>
      simp only [Bool.and_eq_true, bne_iff_ne, ne_eq] at hcs
      simp [isPaired, hcs.1, ih hcs.2]
  | case4 c cs hlast hpair ih =>
      have hc : c ≠ '\\' := by
        rintro rfl
        cases cs with
        | nil => exact hlast rfl rfl
        | cons d cs => exact hpair d cs rfl rfl
      rw [List.cons_append, isPaired]
      · exact ih hcs
      · exact fun h _ => hc h
      · exact fun _ _ h _ => hc h

theorem isPaired_cons {c : Char} (hc : c ≠ '\\') (cs : List Char) :
    isPaired (c :: cs) = isPaired cs := by
  rw [isPaired]
  · exact fun h _ => hc h
  · exact fun _ _ h _ => hc h

theorem isPaired_of_not_mem {cs : List Char} (h : '\\' ∉ cs) : isPaired cs = true := by
  induction cs with
  | nil => rfl
  | cons c cs ih =>
      simp only [List.mem_cons, not_or] at h
      rw [isPaired_cons (Ne.symm h.1)]
      exact ih h.2

/-- In a string literal the escape of each character is a pair or no backslash at all. -/
theorem isPaired_escapeLiteral (cs : List Char) : isPaired (escapeLiteral cs) = true := by
  induction cs with
  | nil => rfl
  | cons c cs ih =>
      refine isPaired_append ?_ ih
      unfold literalChar
      split
      case h_6 _ hslash _ _ _ _ => exact isPaired_cons hslash []
      all_goals rfl

/-! ## Readings one after another -/

theorem Reading.after_nil (r : Reading) : r.after [] = r := by
  cases r <;> rfl

theorem Reading.after_after (ls ks : List Lexeme) (r : Reading) :
    (r.after ks).after ls = r.after (ls ++ ks) := by
  cases r with
  | none => rfl
  | some p => simp [Reading.after]

theorem scan_cons (m : Mode) (c : Char) (cs : List Char) :
    scan m (c :: cs) = (step m c).bind fun p => (scan p.2 cs).after p.1 := rfl

/-- A character at which something ends or begins. -/
theorem scan_cons_of_step {m n : Mode} {c : Char} {ls : List Lexeme}
    (h : step m c = some (ls, n)) (cs : List Char) :
    scan m (c :: cs) = (scan n cs).after ls := by
  rw [scan_cons, h]
  rfl

/-- A character at which something ends, and that is read after it as it is between lexemes. -/
theorem scan_cons_of_step_after {m : Mode} {c : Char} {ls : List Lexeme}
    (h : step m c = (start c).after ls) (cs : List Char) :
    scan m (c :: cs) = (scan .between (c :: cs)).after ls := by
  rw [scan_cons, scan_cons, h]
  change _ = Reading.after ls ((start c).bind _)
  cases start c with
  | none => rfl
  | some p => exact (Reading.after_after ls p.1 _).symm

theorem scan_append (m : Mode) (xs ys : List Char) :
    scan m (xs ++ ys) = (scan m xs).bind fun p => (scan p.2 ys).after p.1 := by
  induction xs generalizing m with
  | nil => exact (Reading.after_nil _).symm
  | cons x xs ih =>
      rw [List.cons_append, scan_cons, scan_cons]
      cases step m x with
      | none => rfl
      | some p =>
          change Reading.after p.1 (scan p.2 (xs ++ ys)) = _
          rw [ih p.2]
          change _ = Option.bind (Reading.after p.1 (scan p.2 xs)) _
          cases scan p.2 xs with
          | none => rfl
          | some q => exact Reading.after_after p.1 q.1 _

/-! ## Pieces -/

/-- The characters are read as lexemes, and nothing is begun after them. -/
structure Reads (cs : List Char) (ls : List Lexeme) : Prop where
  /-- No character is given by its number. -/
  paired : isPaired cs = true
  /-- The lexemes are those of the characters. -/
  scanned : scan .between cs = some (ls, .between)

instance (cs : List Char) (ls : List Lexeme) : Decidable (Reads cs ls) :=
  decidable_of_iff (isPaired cs = true ∧ scan .between cs = some (ls, .between))
    ⟨fun h => ⟨h.1, h.2⟩, fun h => ⟨h.1, h.2⟩⟩

namespace Reads

variable {cs ds : List Char} {ls ks : List Lexeme}

theorem nil : Reads [] [] := ⟨rfl, rfl⟩

theorem append (h : Reads cs ls) (h' : Reads ds ks) : Reads (cs ++ ds) (ls ++ ks) := by
  refine ⟨isPaired_append h.paired h'.paired, ?_⟩
  rw [scan_append, h.scanned]
  change Reading.after ls (scan .between ds) = _
  rw [h'.scanned]
  rfl

/-- Pieces of which each is read give all their lexemes. -/
theorem flatMap {α : Type} {f : α → List Char} {g : α → List Lexeme} {as : List α}
    (h : ∀ a ∈ as, Reads (f a) (g a)) : Reads (as.flatMap f) (as.flatMap g) := by
  induction as with
  | nil => exact nil
  | cons a as ih =>
      rw [List.flatMap_cons, List.flatMap_cons]
      exact (h a List.mem_cons_self).append (ih fun b hb => h b (List.mem_cons_of_mem a hb))

/-- Characters in front of a piece that give a lexeme and then leave the rest to be read. -/
theorem cons_of_scan {l : Lexeme} (hds : isPaired ds = true) (h : Reads cs ls)
    (hscan : scan .between (ds ++ cs) = (scan .between cs).after [l]) :
    Reads (ds ++ cs) (l :: ls) := by
  refine ⟨isPaired_append hds h.paired, ?_⟩
  rw [hscan, h.scanned]
  rfl

/-- What is read of a whole source. -/
theorem read_eq {source : String} (h : Reads source.toList ls) : read source = some ls := by
  simp [read, translate_of_isPaired h.paired, h.scanned, finish]

/-! ## White space -/

theorem white (h : cs.all isWhite = true) : Reads cs [] := by
  induction cs with
  | nil => exact nil
  | cons c cs ih =>
      rw [List.all_cons, Bool.and_eq_true] at h
      obtain ⟨hc, hcs⟩ := h
      have htail : Reads cs [] := ih hcs
      have hslash : c ≠ '\\' := by
        rintro rfl
        exact absurd hc (by decide)
      have hstep : step .between c = some ([], .between) := by simp [step, start, hc]
      refine ⟨(isPaired_cons hslash cs).trans htail.paired, ?_⟩
      rw [scan_cons_of_step hstep, htail.scanned]
      rfl

end Reads

/-! ## Separators -/

/-- A separator is neither white nor a letter, and it does not begin a literal. -/
theorem kind_of_isSeparator {c : Char} (hc : isSeparator c = true) :
    isWhite c = false ∧ isLetter c = false ∧ c ≠ '\\' := by
  simp only [isSeparator, Bool.or_eq_true, beq_iff_eq] at hc
  rcases hc with (((((((rfl | rfl) | rfl) | rfl) | rfl) | rfl) | rfl) | rfl) | rfl <;> decide

theorem Reads.separator {c : Char} {cs : List Char} {ls : List Lexeme}
    (hc : isSeparator c = true) (h : Reads cs ls) :
    Reads (c :: cs) (.token (.separator c) :: ls) := by
  obtain ⟨hwhite, hletter, hslash⟩ := kind_of_isSeparator hc
  have hstep : step .between c = some ([.token (.separator c)], .between) := by
    simp [step, start, hwhite, hletter, hc]
  exact cons_of_scan (isPaired_cons hslash []) h (scan_cons_of_step hstep cs)

/-! ## Words -/

/-- Whether characters form a word. -/
def isWord : List Char → Bool
  | [] => false
  | c :: cs => isLetter c && cs.all isLetterOrDigit

/-- A letter begins nothing but a word. -/
theorem kind_of_isLetter {c : Char} (hc : isLetter c = true) :
    isWhite c = false ∧ c ≠ '.' ∧ ¬ ('0' ≤ c ∧ c ≤ '9') := by
  refine ⟨?_, ?_, ?_⟩
  · cases hw : isWhite c with
    | false => rfl
    | true =>
        simp only [isWhite, Bool.or_eq_true, beq_iff_eq] at hw
        rcases hw with (((rfl | rfl) | rfl) | rfl) | rfl <;> exact absurd hc (by decide)
  · rintro rfl
    exact absurd hc (by decide)
  · rintro ⟨hlo, hhi⟩
    simp only [isLetter, Bool.or_eq_true, Bool.and_eq_true, decide_eq_true_eq, beq_iff_eq] at hc
    rcases hc with ((⟨h, -⟩ | ⟨h, -⟩) | rfl) | rfl
    · exact absurd (Char.le_trans h hhi) (by decide)
    · exact absurd (Char.le_trans h hhi) (by decide)
    · exact absurd hhi (by decide)
    · exact absurd hlo (by decide)

/-- A word has letters and digits only. -/
theorem not_mem_of_isWord {w : List Char} (hw : isWord w = true) {c : Char}
    (hc : isLetterOrDigit c = false) : c ∉ w := by
  intro hmem
  cases w with
  | nil => exact absurd hmem (by simp)
  | cons d w =>
      simp only [isWord, Bool.and_eq_true, List.all_eq_true] at hw
      rcases List.mem_cons.mp hmem with rfl | hmem
      · rw [isLetterOrDigit, hw.1, Bool.true_or] at hc
        exact absurd hc (by decide)
      · rw [hw.2 c hmem] at hc
        exact absurd hc (by decide)

theorem isPaired_of_isWord {w : List Char} (hw : isWord w = true) : isPaired w = true :=
  isPaired_of_not_mem (not_mem_of_isWord hw (by decide))

/-- Letters and digits go on with a word that has been begun. -/
theorem scan_word {cs : List Char} (hcs : cs.all isLetterOrDigit = true) (w ds : List Char) :
    scan (.word w) (cs ++ ds) = scan (.word (w ++ cs)) ds := by
  induction cs generalizing w with
  | nil => rw [List.append_nil, List.nil_append]
  | cons c cs ih =>
      simp only [List.all_cons, Bool.and_eq_true] at hcs
      have hstep : step (.word w) c = some ([], .word (w ++ [c])) := by simp [step, hcs.1]
      rw [List.cons_append, scan_cons_of_step hstep, Reading.after_nil, ih hcs.2]
      simp

/-- A word ends at the first character that does not belong to it. -/
theorem Reads.word {w : List Char} (hw : isWord w = true) {d : Char} {cs : List Char}
    {ls : List Lexeme} (hd : isLetterOrDigit d = false) (h : Reads (d :: cs) ls) :
    Reads (w ++ d :: cs) (.token (wordToken w) :: ls) := by
  refine cons_of_scan (isPaired_of_isWord hw) h ?_
  cases w with
  | nil => exact absurd hw (by decide)
  | cons c w =>
      simp only [isWord, Bool.and_eq_true] at hw
      have hbegin : step .between c = some ([], .word [c]) := by
        simp [step, start, hw.1, (kind_of_isLetter hw.1).1]
      have hend : step (.word (c :: w)) d = (start d).after [.token (wordToken (c :: w))] := by
        simp [step, hd]
      rw [List.cons_append, scan_cons_of_step hbegin, Reading.after_nil, scan_word hw.2]
      exact scan_cons_of_step_after hend cs

/-- A point in front of a word stands for itself. -/
theorem Reads.point {w : List Char} (hw : isWord w = true) {cs : List Char} {ls : List Lexeme}
    (h : Reads (w ++ cs) ls) : Reads ('.' :: (w ++ cs)) (.token (.separator '.') :: ls) := by
  cases w with
  | nil => exact absurd hw (by decide)
  | cons c w =>
      simp only [isWord, Bool.and_eq_true] at hw
      obtain ⟨-, hpoint, hdigit⟩ := kind_of_isLetter hw.1
      have hstep : step .point c = (start c).after [.token (.separator '.')] := by
        simp only [step, hpoint, hdigit, or_self, if_false]
      have hpaired : isPaired ['.'] = true := rfl
      refine cons_of_scan hpaired h ?_
      rw [List.singleton_append, scan_cons_of_step (n := .point) rfl, Reading.after_nil]
      exact scan_cons_of_step_after hstep (w ++ cs)

/-! ## Names -/

/-- Whether a text is a word that is not reserved. -/
def isName (s : String) : Bool :=
  isWord s.toList && !reservedWords.contains s

theorem wordToken_of_isName {s : String} (hs : isName s = true) :
    wordToken s.toList = .identifier s := by
  simp only [isName, Bool.and_eq_true, Bool.not_eq_true', List.contains_eq_mem,
    decide_eq_false_iff_not] at hs
  simp [wordToken, hs.2]

theorem isWord_of_isName {s : String} (hs : isName s = true) : isWord s.toList = true := by
  simp only [isName, Bool.and_eq_true] at hs
  exact hs.1

theorem Reads.name {s : String} (hs : isName s = true) {d : Char} {cs : List Char}
    {ls : List Lexeme} (hd : isLetterOrDigit d = false) (h : Reads (d :: cs) ls) :
    Reads (s.toList ++ d :: cs) (.token (.identifier s) :: ls) := by
  rw [← wordToken_of_isName hs]
  exact Reads.word (isWord_of_isName hs) hd h

/-- Joined parts begin with the first part. -/
theorem exists_join_append (w : List Char) (ws : List (List Char)) (cs : List Char) :
    ∃ rest, Text.join '.' (w :: ws) ++ cs = w ++ rest := by
  cases ws with
  | nil => exact ⟨cs, rfl⟩
  | cons v ws => exact ⟨_, List.append_assoc w ('.' :: Text.join '.' (v :: ws)) cs⟩

/-- Names with points between them end at the first character that belongs to no word. -/
theorem Reads.dotted {names : List String} (hne : names ≠ [])
    (hnames : ∀ s ∈ names, isName s = true) {d : Char} {cs : List Char} {ls : List Lexeme}
    (hd : isLetterOrDigit d = false) (h : Reads (d :: cs) ls) :
    Reads (Text.join '.' (names.map String.toList) ++ d :: cs)
      ((dottedNames names).map .token ++ ls) := by
  induction names with
  | nil => exact absurd rfl hne
  | cons s names ih =>
      have hs : isName s = true := hnames s List.mem_cons_self
      cases names with
      | nil => exact Reads.name hs hd h
      | cons t names =>
          have ht : isWord t.toList = true := isWord_of_isName (hnames t (by simp))
          have htail := ih (by simp) fun u hu => hnames u (List.mem_cons_of_mem s hu)
          obtain ⟨rest, hrest⟩ := exists_join_append t.toList (names.map String.toList) (d :: cs)
          rw [List.map_cons, hrest] at htail
          change Reads ((s.toList ++ '.' :: Text.join '.' (t.toList :: names.map String.toList)) ++
            d :: cs) _
          rw [List.append_assoc, List.cons_append, hrest]
          exact Reads.name hs (by decide) (Reads.point ht htail)

/-! ## String literals -/

theorem scan_escape {e c : Char} (h : escaped? e = some c) (acc ds : List Char) :
    scan (.literal acc) ('\\' :: e :: ds) = scan (.literal (acc ++ [c])) ds := by
  have hstep : step (.escape acc) e = some ([], .literal (acc ++ [c])) := by simp [step, h]
  rw [scan_cons_of_step (n := .escape acc) rfl, Reading.after_nil, scan_cons_of_step hstep,
    Reading.after_nil]

/-- Inside a literal the escape of a character stands for the character. -/
theorem scan_literalChar (c : Char) (acc ds : List Char) :
    scan (.literal acc) (literalChar c ++ ds) = scan (.literal (acc ++ [c])) ds := by
  unfold literalChar
  split
  case h_6 _ hslash hquote hfeed hreturn _ =>
    have hline : isLineEnd c = false := by
      rw [isLineEnd, beq_false_of_ne hfeed, beq_false_of_ne hreturn, Bool.or_self]
    have hstep : step (.literal acc) c = some ([], .literal (acc ++ [c])) := by
      rw [step, if_neg hquote, if_neg hslash, hline]
      rfl
    rw [List.singleton_append, scan_cons_of_step hstep, Reading.after_nil]
  all_goals exact scan_escape rfl acc ds

/-- Inside a literal an escaped text is read back. -/
theorem scan_escapeLiteral (cs acc ds : List Char) :
    scan (.literal acc) (escapeLiteral cs ++ ds) = scan (.literal (acc ++ cs)) ds := by
  induction cs generalizing acc with
  | nil => simp [escapeLiteral]
  | cons c cs ih =>
      rw [escapeLiteral, List.flatMap_cons, List.append_assoc, scan_literalChar]
      exact (ih (acc ++ [c])).trans (by simp)

/-- The literal for a text is read as that text, if no third quote follows. -/
theorem Reads.text (s : String) {d : Char} (hd : d ≠ '"') {cs : List Char} {ls : List Lexeme}
    (h : Reads (d :: cs) ls) : Reads ((literal s).toList ++ d :: cs) (.token (.text s) :: ls) := by
  have hchars : (literal s).toList = '"' :: (escapeLiteral s.toList ++ ['"']) := by
    simp [literal]
  refine cons_of_scan ?_ h ?_
  · rw [hchars, isPaired_cons (by decide)]
    exact isPaired_append (isPaired_escapeLiteral s.toList) rfl
  · rw [hchars, List.cons_append, scan_cons_of_step (n := .literal []) rfl, Reading.after_nil,
      List.append_assoc, scan_escapeLiteral, List.nil_append]
    by_cases hs : s.toList = []
    · have hempty : s = "" := String.toList_inj.mp hs
      have hquote : step .quotes d = (start d).after [.token (.text "")] := by simp [step, hd]
      rw [hs, List.singleton_append, scan_cons_of_step (n := .quotes) rfl, Reading.after_nil,
        hempty]
      exact scan_cons_of_step_after hquote cs
    · have hstep : step (.literal s.toList) '"' = some ([.token (.text s)], .between) := by
        simp [step, hs]
      exact scan_cons_of_step hstep (d :: cs)

/-! ## Comments -/

/-- No star of the text stands in front of a slash. -/
def HasNoEnd (cs : List Char) : Prop :=
  cs.IsChain fun a b => ¬ (a = '*' ∧ b = '/')

instance (cs : List Char) : Decidable (HasNoEnd cs) :=
  inferInstanceAs (Decidable (List.IsChain _ cs))

theorem hasNoEnd_of_not_mem {xs : List Char} (h : '*' ∉ xs) : HasNoEnd xs := by
  induction xs with
  | nil => exact List.IsChain.nil
  | cons x xs ih =>
      simp only [List.mem_cons, not_or] at h
      refine List.isChain_cons.mpr ⟨?_, ih h.2⟩
      rintro y - ⟨rfl, -⟩
      exact h.1 rfl

theorem HasNoEnd.append_of_last {xs ys : List Char} (hxs : HasNoEnd xs) (hys : HasNoEnd ys)
    (hlast : xs.getLast? ≠ some '*') : HasNoEnd (xs ++ ys) := by
  refine List.isChain_append.mpr ⟨hxs, hys, ?_⟩
  rintro x hx y - ⟨rfl, -⟩
  exact hlast hx

theorem HasNoEnd.append_of_head {xs ys : List Char} (hxs : HasNoEnd xs) (hys : HasNoEnd ys)
    (hhead : ys.head? ≠ some '/') : HasNoEnd (xs ++ ys) := by
  refine List.isChain_append.mpr ⟨hxs, hys, ?_⟩
  rintro x - y hy ⟨-, rfl⟩
  exact hhead hy

/-- In a text without an end mark a comment goes on up to the end mark after the text.  A star at
the end of what is read so far is kept apart, so the two modes are proved together. -/
theorem scan_comment (cs acc ds : List Char) :
    (HasNoEnd cs → scan (.comment acc) (cs ++ '*' :: '/' :: ds) =
      (scan .between ds).after [.comment (String.ofList (acc ++ cs))]) ∧
    (HasNoEnd ('*' :: cs) → scan (.star acc) (cs ++ '*' :: '/' :: ds) =
      (scan .between ds).after [.comment (String.ofList (acc ++ '*' :: cs))]) := by
  induction cs generalizing acc with
  | nil =>
      refine ⟨fun _ => ?_, fun _ => ?_⟩
      · rw [List.nil_append, scan_cons_of_step (n := .star acc) rfl, Reading.after_nil,
          List.append_nil]
        exact scan_cons_of_step rfl ds
      · rw [List.nil_append, scan_cons_of_step (n := .star (acc ++ ['*'])) rfl, Reading.after_nil]
        exact scan_cons_of_step rfl ds
  | cons c cs ih =>
      refine ⟨fun h => ?_, fun h => ?_⟩
      · by_cases hstar : c = '*'
        · subst hstar
          rw [List.cons_append, scan_cons_of_step (n := .star acc) rfl, Reading.after_nil]
          exact (ih acc).2 h
        · have hstep : step (.comment acc) c = some ([], .comment (acc ++ [c])) := by
            simp [step, hstar]
          rw [List.cons_append, scan_cons_of_step hstep, Reading.after_nil, (ih _).1 h.of_cons]
          simp
      · have hslash : c ≠ '/' := fun hc => h.rel ⟨rfl, hc⟩
        by_cases hstar : c = '*'
        · subst hstar
          rw [List.cons_append, scan_cons_of_step (n := .star (acc ++ ['*'])) rfl,
            Reading.after_nil, (ih _).2 h.of_cons]
          simp
        · have hstep : step (.star acc) c = some ([], .comment (acc ++ ['*', c])) := by
            simp [step, hslash, hstar]
          rw [List.cons_append, scan_cons_of_step hstep, Reading.after_nil,
            (ih _).1 h.of_cons.of_cons]
          simp

/-- A comment is read up to its end mark. -/
theorem Reads.comment {text : String} {cs : List Char} {ls : List Lexeme}
    (htext : HasNoEnd text.toList) (hslash : '\\' ∉ text.toList) (h : Reads cs ls) :
    Reads (('/' :: '*' :: text.toList ++ ['*', '/']) ++ cs) (.comment text :: ls) := by
  refine cons_of_scan (isPaired_of_not_mem (by simpa using hslash)) h ?_
  rw [List.append_assoc, List.cons_append, List.cons_append,
    scan_cons_of_step (n := .slash) rfl, Reading.after_nil,
    scan_cons_of_step (n := .comment []) rfl, Reading.after_nil]
  simpa using (scan_comment text.toList [] cs).1 htext

end SwaggerRoutes.Java
