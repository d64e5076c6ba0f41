import BoundSql.Sql.Fragment

/-!
# Numbers in statement text

The numbers in a text are the values of its longest runs of decimal digits.  No word of the
vocabulary has a digit, so in pieces that keep their numbers apart by words these are the numbers of
the pieces, in their order.

Digits inside names are not told from others, so this is about pieces without names.
-/

namespace BoundSql

namespace Text

/-- The longest runs of digits in a text. -/
def digitRuns (cs : List Char) : List (List Char) :=
  (cs.splitOnP fun c => !c.isDigit).filter fun run => !run.isEmpty

/-- The decimal numbers in a text. -/
def numbers (s : String) : List Nat :=
  (digitRuns s.toList).map fun run => Nat.ofDigitChars 10 run 0

variable {cs : List Char} {c : Char}

theorem digitRuns_append_cons (cs : List Char) (hc : c.isDigit = false) (rest : List Char) :
    digitRuns (cs ++ c :: rest) = digitRuns cs ++ digitRuns rest := by
  have hends : (!c.isDigit) = true := by simp [hc]
  rw [digitRuns, List.splitOnP_append_cons (p := fun c => !c.isDigit) cs rest hends,
    List.filter_append]
  rfl

theorem digitRuns_append_of_no_digit (h : ∀ c ∈ cs, c.isDigit = false) (rest : List Char) :
    digitRuns (cs ++ rest) = digitRuns rest := by
  induction cs with
  | nil => rfl
  | cons c cs ih =>
      have hc : c.isDigit = false := h c List.mem_cons_self
      have hcs : digitRuns (cs ++ rest) = digitRuns rest :=
        ih fun c' hc' => h c' (List.mem_cons_of_mem c hc')
      rw [← hcs]
      exact digitRuns_append_cons [] hc (cs ++ rest)

theorem digitRuns_repr (n : Nat) : digitRuns n.repr.toList = [Nat.toDigits 10 n] := by
  have hdigits : ∀ c ∈ Nat.toDigits 10 n, (!c.isDigit) = false := fun c hc => by
    rw [Nat.isDigit_of_mem_toDigits (by decide) (by decide) hc]
    rfl
  have hne : (!(Nat.toDigits 10 n).isEmpty) = true := by simp [Nat.toDigits_ne_nil]
  rw [digitRuns, Nat.toList_repr, List.splitOnP_eq_singleton hdigits,
    List.filter_cons_of_pos (by exact hne), List.filter_nil]

end Text

/-! ## Numbers of pieces -/

namespace Word

theorem isDigit_of_mem_chars (w : Word) : ∀ c ∈ w.chars, c.isDigit = false := by
  have hnone : (w.chars.any fun c => c.isDigit) = false := by cases w <;> decide
  simpa using hnone

theorem exists_chars_cons (w : Word) : ∃ c cs, w.chars = c :: cs := by
  refine List.exists_cons_of_ne_nil fun h => w.text_ne_empty ?_
  exact String.toList_eq_nil_iff.mp h

end Word

namespace Piece

/-- The number of a piece, if it is one. -/
def number? : Piece → Option Nat
  | .number n => some n
  | _ => none

/-- Words and numbers, in which a word follows every number but the last piece. -/
inductive Parted : List Piece → Prop where
  | nil : Parted []
  | last (n : Nat) : Parted [.number n]
  | word (w : Word) {ps : List Piece} (rest : Parted ps) : Parted (.word w :: ps)
  | number (n : Nat) (w : Word) {ps : List Piece} (rest : Parted ps) :
      Parted (.number n :: .word w :: ps)

theorem Parted.digitRuns {ps : List Piece} (h : Parted ps) :
    Text.digitRuns (ps.flatMap chars) = (ps.filterMap number?).map (Nat.toDigits 10) := by
  induction h with
  | nil => rfl
  | last n =>
      rw [List.flatMap_singleton]
      exact Text.digitRuns_repr n
  | word w _ ih =>
      rw [List.flatMap_cons, Piece.chars,
        Text.digitRuns_append_of_no_digit w.isDigit_of_mem_chars, ih]
      rfl
  | @number n w ps _ ih =>
      -- the word ends the run of the number, and has none itself
      obtain ⟨c, cs, hchars⟩ := w.exists_chars_cons
      have hword := w.isDigit_of_mem_chars
      rw [hchars, List.forall_mem_cons] at hword
      obtain ⟨hc, hcs⟩ := hword
      have hrest : Text.digitRuns (n.repr.toList ++ (c :: cs ++ ps.flatMap chars)) =
          Text.digitRuns n.repr.toList ++ Text.digitRuns (ps.flatMap chars) := by
        rw [List.cons_append, Text.digitRuns_append_cons _ hc,
          Text.digitRuns_append_of_no_digit hcs]
      rw [List.flatMap_cons, List.flatMap_cons, Piece.chars, Piece.chars, hchars, hrest,
        Text.digitRuns_repr, ih]
      rfl

/-- The numbers in the text of pieces are those of the pieces. -/
theorem Parted.numbers {ps : List Piece} (h : Parted ps) :
    Text.numbers (String.ofList (ps.flatMap chars)) = ps.filterMap number? := by
  rw [Text.numbers, String.toList_ofList, h.digitRuns, List.map_map]
  simp [Function.comp_def, Nat.ofDigitChars_ten_toDigits]

end Piece

end BoundSql
