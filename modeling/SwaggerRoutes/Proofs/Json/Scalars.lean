/-
  Proofs/Json/Scalars.lean --- integers and strings are read back as they were printed.

  Both readers are stated with an arbitrary rest of the text.  A string ends with its quote,
  whatever follows; a numeral ends where no character follows that could carry it on, so the rest
  must not start with one.
-/
import Mathlib.Data.List.TakeDrop
import Mathlib.Data.List.TakeWhile
import SwaggerRoutes.Json.Printer
import SwaggerRoutes.Json.Tree

set_option autoImplicit false

namespace SwaggerRoutes.Decimal

/-- Whether a number is an integer that sixty-four bits hold, with or without a sign. -/
def Number.IsIntegral : Number → Prop
  | .int i => -(Number.negativeBound : Int) ≤ i ∧ i < Number.positiveBound
  | .double _ => False

end SwaggerRoutes.Decimal

namespace SwaggerRoutes.Json

open Decimal Text

/-! ## Integers -/

/-- A text behind which a numeral does not go on. -/
def StopsNumeral (rest : List Char) : Prop :=
  ∀ c ∈ rest.head?, c.isDigit = false ∧ c ≠ '.' ∧ c ≠ 'e' ∧ c ≠ 'E'

theorem isDigit_of_mem_decimal {n : Nat} {c : Char} (h : c ∈ decimal n) : c.isDigit = true :=
  Nat.isDigit_of_mem_toDigits (by decide) (by decide) h

theorem decimal_zero : decimal 0 = ['0'] := Nat.toDigits_zero 10

/-- Only zero is written with a zero in front. -/
theorem decimal_head {n : Nat} (h : n ≠ 0) : ∃ c cs, decimal n = c :: cs ∧ c ≠ '0' := by
  induction n using Nat.strongRecOn with
  | ind n ih =>
      unfold decimal
      rw [Nat.toDigits_eq_if (by decide)]
      split
      · exact ⟨n.digitChar, [], rfl, fun hzero => h (Nat.digitChar_eq_zero.mp hzero)⟩
      · obtain ⟨c, cs, hcs, hc⟩ := ih (n / 10) (by omega) (by omega)
        exact ⟨c, cs ++ [(n % 10).digitChar], by unfold decimal at hcs; rw [hcs]; rfl, hc⟩

namespace Numeral

theorem spanDigits_decimal (n : Nat) {rest : List Char} (h : StopsNumeral rest) :
    spanDigits (decimal n ++ rest) = (decimal n, rest) := by
  have hdigits : ∀ c ∈ decimal n, c.isDigit = true := fun c => isDigit_of_mem_decimal
  have hstop : rest.takeWhile Char.isDigit = [] ∧ rest.dropWhile Char.isDigit = rest := by
    cases rest with
    | nil => exact ⟨rfl, rfl⟩
    | cons c cs =>
        have hc : ¬ c.isDigit = true := by rw [(h c rfl).1]; decide
        exact ⟨List.takeWhile_cons_of_neg hc, List.dropWhile_cons_of_neg hc⟩
  unfold spanDigits
  rw [List.span_eq_takeWhile_dropWhile, List.takeWhile_append_of_pos hdigits,
    List.dropWhile_append_of_pos hdigits, hstop.1, hstop.2, List.append_nil]

theorem readWhole_decimal (n : Nat) {rest : List Char} (h : StopsNumeral rest) :
    readWhole (decimal n ++ rest) = some (decimal n, rest) := by
  unfold readWhole
  rw [spanDigits_decimal n h]
  by_cases hn : n = 0
  · rw [hn, decimal_zero]
    rfl
  · obtain ⟨c, cs, hcs, hc⟩ := decimal_head hn
    rw [hcs]
    split
    · next heq => exact absurd (congrArg Prod.fst heq) (by simp)
    · next heq => exact absurd (congrArg (fun p => p.1.head?) heq) (by simpa using hc)
    · next heq => exact absurd (congrArg (fun p => p.1.head?) heq) (by simpa using hc)
    · rfl

theorem readFraction_of_stops {rest : List Char} (h : StopsNumeral rest) :
    readFraction rest = some (none, rest) := by
  unfold readFraction
  split
  · next cs => exact absurd rfl (h '.' rfl).2.1
  · rfl

theorem readExponent_of_stops {rest : List Char} (h : StopsNumeral rest) :
    readExponent rest = some (none, rest) := by
  cases rest with
  | nil => rfl
  | cons c cs =>
      obtain ⟨-, -, he, hE⟩ := h c rfl
      unfold readExponent
      dsimp only
      rw [if_neg (not_or.mpr ⟨he, hE⟩)]

theorem read_decimal (n : Nat) {rest : List Char} (h : StopsNumeral rest) :
    read (decimal n ++ rest) = some (⟨false, decimal n, none, none⟩, rest) := by
  have hminus : ∀ cs, decimal n ++ rest ≠ '-' :: cs := by
    intro cs hcs
    obtain ⟨c, ds, hds⟩ := List.exists_cons_of_ne_nil (Nat.toDigits_ne_nil (n := n) (b := 10))
    have hc := isDigit_of_mem_decimal (n := n) (c := c) (by unfold decimal; simp [hds])
    unfold decimal at hcs
    rw [hds] at hcs
    obtain rfl : c = '-' := (List.cons.inj hcs).1
    exact absurd hc (by decide)
  unfold read
  split
  · next sign cs heq =>
    split at heq
    · next hcs => exact absurd hcs (hminus _)
    · obtain ⟨rfl, rfl⟩ := Prod.mk.inj heq
      simp [readWhole_decimal n h, readFraction_of_stops h, readExponent_of_stops h]

theorem read_minus (n : Nat) {rest : List Char} (h : StopsNumeral rest) :
    read ('-' :: decimal n ++ rest) = some (⟨true, decimal n, none, none⟩, rest) := by
  simp [read, readWhole_decimal n h, readFraction_of_stops h, readExponent_of_stops h]

theorem le_ofDigitChars (ds : List Char) (significand : Nat) :
    significand ≤ Nat.ofDigitChars 10 ds significand := by
  induction ds generalizing significand with
  | nil => simp
  | cons d ds ih =>
      rw [Nat.ofDigitChars_cons]
      exact Nat.le_trans (by omega) (ih _)

/-- Digits of a number that is not too large are all gathered. -/
theorem gather_eq {ds : List Char} {significand : Nat}
    (h : Nat.ofDigitChars 10 ds significand < Number.positiveBound) :
    gather significand ds = (Nat.ofDigitChars 10 ds significand, []) := by
  induction ds generalizing significand with
  | nil => simp [gather]
  | cons d ds ih =>
      rw [Nat.ofDigitChars_cons, Nat.mul_comm 10] at h ⊢
      have hnext : significand * 10 + (d.toNat - '0'.toNat) < Number.positiveBound :=
        Nat.lt_of_le_of_lt (le_ofDigitChars ds _) h
      unfold gather
      dsimp only
      rw [if_pos hnext, ih h]

theorem gather_decimal {n : Nat} (h : n < Number.positiveBound) :
    gather 0 (decimal n) = (n, []) := by
  have hread : Nat.ofDigitChars 10 (decimal n) 0 = n := Nat.ofDigitChars_ten_toDigits
  rw [gather_eq (by rw [hread]; exact h), hread]

end Numeral

/-- The head of a numeral is a digit or a minus sign. -/
theorem head_text_of_isIntegral {n : Number} (h : n.IsIntegral) :
    ∃ c cs, n.text.toList = c :: cs ∧ (c.isDigit = true ∨ c = '-') := by
  cases n with
  | double d => exact h.elim
  | int i =>
      unfold Number.text
      rw [String.toList_ofList]
      cases i with
      | ofNat n =>
          obtain ⟨c, cs, hcs⟩ :=
            List.exists_cons_of_ne_nil (Nat.toDigits_ne_nil (n := n) (b := 10))
          have hc : c ∈ decimal n := by unfold decimal; simp [hcs]
          exact ⟨c, cs, hcs, .inl (isDigit_of_mem_decimal hc)⟩
      | negSucc n => exact ⟨'-', decimal (n + 1), rfl, .inr rfl⟩

/-- An integer is read back as it was printed. -/
theorem readNumber_text {n : Number} (hn : n.IsIntegral) {rest : List Char}
    (h : StopsNumeral rest) :
    readNumber (n.text.toList ++ rest) = (.number (some n), some rest) := by
  cases n with
  | double d => exact hn.elim
  | int i =>
      obtain ⟨hlow, hhigh⟩ := hn
      unfold Number.text readNumber
      rw [String.toList_ofList]
      cases i with
      | ofNat n =>
          have hbound : n < Number.positiveBound := by
            simp only [Int.ofNat_eq_natCast] at hhigh
            exact Int.ofNat_lt.mp hhigh
          unfold signedDecimal
          rw [Numeral.read_decimal n h]
          simp [Numeral.value?, Numeral.gather_decimal hbound]
      | negSucc n =>
          have hbound : n + 1 ≤ Number.negativeBound := by omega
          have hwide : Number.negativeBound < Number.positiveBound := by decide
          unfold signedDecimal
          rw [Numeral.read_minus (n + 1) h]
          simp [Numeral.value?, Numeral.gather_decimal (Nat.lt_of_le_of_lt hbound hwide), hbound]
          omega

/-! ## Strings -/

/-- The part of a string that a character is read back as: the control characters without a letter
of their own are printed by their number. -/
def pieceOf (c : Char) : Piece :=
  if c.toNat < 0x20 ∧ c ∉ ['\x08', '\x0c', '\n', '\r', '\t'] then .unit c.toNat else .char c

/-- Four digits are read back as the number below thirty-two that they were printed from. -/
theorem lowerHexOfWidth_control {n : Nat} (h : n < 0x20) :
    ∃ a b c d, lowerHexOfWidth 4 n = [a, b, c, d] ∧ readDigits? 16 [a, b, c, d] = some n := by
  have hall : ∀ n < 0x20, lowerHexOfWidth 4 n =
        ['0', '0', (n / 16).digitChar, (n % 16).digitChar] ∧
      readDigits? 16 ['0', '0', (n / 16).digitChar, (n % 16).digitChar] = some n := by
    decide +kernel
  exact ⟨_, _, _, _, hall n h⟩

/-- A part in front of the others. -/
def withPiece (p : Piece) (found : Option (List Piece × List Char)) :
    Option (List Piece × List Char) :=
  found.map fun q => (p :: q.1, q.2)

theorem bind_eq_withPiece (p : Piece) (found : Option (List Piece × List Char)) :
    (do let (ps, rest) ← found; pure (p :: ps, rest)) = withPiece p found := by
  cases found <;> rfl

/-- A letter after a backslash. -/
theorem readPieces_letter {c d : Char} (h : unescaped? c = some d) (rest : List Char) :
    readPieces ('\\' :: c :: rest) = withPiece (.char d) (readPieces rest) := by
  rw [readPieces.eq_def]
  split
  · next heq => exact absurd heq (by simp)
  · next heq => exact absurd (List.cons.inj heq).1 (by decide)
  · next heq =>
    obtain ⟨rfl, -⟩ := List.cons.inj (List.cons.inj heq).2
    exact absurd h.symm (Option.some_ne_none d)
  · next heq =>
    obtain ⟨rfl, rfl⟩ := List.cons.inj (List.cons.inj heq).2
    rw [h]
    exact bind_eq_withPiece (.char d) _
  · next hslash heq =>
    obtain ⟨rfl, rfl⟩ := List.cons.inj heq
    exact (hslash c rest rfl rfl).elim

/-- Four digits after a backslash. -/
theorem readPieces_digits {a b c d : Char} {u : Nat} (h : readDigits? 16 [a, b, c, d] = some u)
    (rest : List Char) :
    readPieces ('\\' :: 'u' :: a :: b :: c :: d :: rest) =
      withPiece (.unit u) (readPieces rest) := by
  rw [readPieces, h]
  exact bind_eq_withPiece (.unit u) _

/-- A character that stands for itself. -/
theorem readPieces_self {c : Char} (hquote : c ≠ '"') (hslash : c ≠ '\\')
    (hprints : ¬ c.toNat < 0x20) (rest : List Char) :
    readPieces (c :: rest) = withPiece (.char c) (readPieces rest) := by
  rw [readPieces.eq_def]
  split
  · next heq => exact absurd heq (by simp)
  · next heq => exact absurd (List.cons.inj heq).1 hquote
  · next heq => exact absurd (List.cons.inj heq).1 hslash
  · next heq => exact absurd (List.cons.inj heq).1 hslash
  · next heq =>
    obtain ⟨rfl, rfl⟩ := List.cons.inj heq
    rw [if_neg hprints]
    exact bind_eq_withPiece (.char c) _

theorem readPieces_escapedChar (c : Char) (rest : List Char) :
    readPieces (escapedChar c ++ rest) = withPiece (pieceOf c) (readPieces rest) := by
  unfold escapedChar
  split
  · exact readPieces_letter (by decide) rest
  · exact readPieces_letter (by decide) rest
  · exact readPieces_letter (by decide) rest
  · exact readPieces_letter (by decide) rest
  · exact readPieces_letter (by decide) rest
  · exact readPieces_letter (by decide) rest
  · exact readPieces_letter (by decide) rest
  · next hquote hslash hb hf hn hr ht =>
    split
    · next hcontrol =>
      obtain ⟨a, b, d, e, htext, hread⟩ := lowerHexOfWidth_control hcontrol
      have hletter : c ∉ ['\x08', '\x0c', '\n', '\r', '\t'] := by
        simp only [List.mem_cons, List.not_mem_nil, or_false, not_or]
        exact ⟨hb, hf, hn, hr, ht⟩
      rw [htext, pieceOf, if_pos ⟨hcontrol, hletter⟩]
      exact readPieces_digits hread rest
    · next hcontrol =>
      rw [pieceOf, if_neg (fun h => hcontrol h.1)]
      exact readPieces_self hquote hslash hcontrol rest

theorem readPieces_escaped (cs rest : List Char) :
    readPieces (cs.flatMap escapedChar ++ '"' :: rest) = some (cs.map pieceOf, rest) := by
  induction cs with
  | nil => rfl
  | cons c cs ih =>
      rw [List.flatMap_cons, List.append_assoc, readPieces_escapedChar, ih]
      rfl

theorem joinPieces_pieceOf (cs : List Char) : joinPieces (cs.map pieceOf) = some cs := by
  induction cs with
  | nil => rfl
  | cons c cs ih =>
      rw [List.map_cons, pieceOf]
      split
      · next hcontrol =>
        have hlow : ¬(0xD800 ≤ c.toNat ∧ c.toNat < 0xDC00) := by omega
        have hhigh : ¬(0xDC00 ≤ c.toNat ∧ c.toNat < 0xE000) := by omega
        rw [joinPieces.eq_def]
        dsimp only
        rw [if_neg hlow, if_neg hhigh, ih, Char.ofNat_toNat]
        rfl
      · rw [joinPieces, ih]
        rfl

/-- A string is read back as it was printed. -/
theorem readString_escaped (s : String) (rest : List Char) :
    readString (s.toList.flatMap escapedChar ++ '"' :: rest) = some (some s, rest) := by
  unfold readString
  rw [readPieces_escaped, Option.map_some]
  dsimp only
  rw [joinPieces_pieceOf, Option.map_some, String.ofList_toList]

end SwaggerRoutes.Json
