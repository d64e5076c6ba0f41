import BoundSql.Text.Repeat
import Mathlib.Data.List.Nodup

/-!
# First faults in lists

Where a property fails in a list, it fails first somewhere, and the element there splits the list.
The first repeated text splits it into texts that all differ, an occurrence of one of them, and a
rest that is not looked at.
-/

namespace BoundSql

/-- A property that fails somewhere in a list fails first somewhere. -/
theorem forall_or_first {α : Type} (P : α → Prop) [DecidablePred P] (xs : List α) :
    (∀ x ∈ xs, P x) ∨
      ∃ before x rest, xs = before ++ x :: rest ∧ (∀ y ∈ before, P y) ∧ ¬P x := by
  cases hfind : xs.find? fun x => !decide (P x) with
  | none => exact Or.inl (by simpa using List.find?_eq_none.mp hfind)
  | some x =>
      obtain ⟨hx, before, rest, hsplits, hbefore⟩ := List.find?_eq_some_iff_append.mp hfind
      exact Or.inr ⟨before, x, rest, hsplits, by simpa using hbefore, by simpa using hx⟩

namespace Text

theorem firstRepeated?_eq_none_iff {seen texts : List String} :
    firstRepeated? seen texts = none ↔ texts.Nodup ∧ ∀ s ∈ texts, s ∉ seen := by
  induction texts generalizing seen with
  | nil => simp [firstRepeated?]
  | cons s texts ih =>
      rw [firstRepeated?]
      split
      · rename_i hseen
        have hmem : s ∈ seen := by simpa using hseen
        simp [hmem]
      · rename_i hfresh
        have hnot : s ∉ seen := by simpa using hfresh
        rw [ih, List.nodup_cons, List.forall_mem_cons]
        constructor
        · rintro ⟨hnodup, hdisjoint⟩
          exact ⟨⟨fun hs => hdisjoint s hs List.mem_cons_self, hnodup⟩, hnot,
            fun t ht hmem => hdisjoint t ht (List.mem_cons_of_mem s hmem)⟩
        · rintro ⟨⟨hs, hnodup⟩, -, hdisjoint⟩
          refine ⟨hnodup, fun t ht hmem => ?_⟩
          rcases List.mem_cons.mp hmem with rfl | hmem
          · exact hs ht
          · exact hdisjoint t ht hmem

theorem firstRepeated?_eq_some_iff {seen texts : List String} {s : String} :
    firstRepeated? seen texts = some s ↔
      ∃ before rest, texts = before ++ s :: rest ∧ firstRepeated? seen before = none ∧
        (s ∈ before ∨ s ∈ seen) := by
  induction texts generalizing seen with
  | nil => simp [firstRepeated?]
  | cons t texts ih =>
      rw [firstRepeated?]
      split
      · rename_i hseen
        constructor
        · intro h
          cases h
          exact ⟨[], texts, rfl, rfl, Or.inr (by simpa using hseen)⟩
        · rintro ⟨before, rest, hsplit, hnone, -⟩
          -- a text that was seen before ends the search, so nothing stands before it
          cases before with
          | nil => exact congrArg some (List.cons.inj hsplit).1
          | cons u before =>
              rw [← (List.cons.inj hsplit).1, firstRepeated?, if_pos hseen] at hnone
              cases hnone
      · rename_i hfresh
        have hnot : t ∉ seen := by simpa using hfresh
        rw [ih]
        constructor
        · rintro ⟨before, rest, rfl, hnone, hs⟩
          refine ⟨t :: before, rest, rfl, ?_, ?_⟩
          · rw [firstRepeated?, if_neg hfresh]
            exact hnone
          · simpa [or_assoc, or_left_comm] using hs
        · rintro ⟨before, rest, hsplit, hnone, hs⟩
          cases before with
          | nil =>
              obtain ⟨rfl, -⟩ := List.cons.inj hsplit
              exact absurd (hs.resolve_left List.not_mem_nil) hnot
          | cons u before =>
              obtain ⟨rfl, rfl⟩ := List.cons.inj hsplit
              rw [firstRepeated?, if_neg hfresh] at hnone
              exact ⟨before, rest, rfl, hnone, by simpa [or_assoc, or_left_comm] using hs⟩

section Fresh

variable {texts : List String}

theorem firstRepeated?_nil_eq_none_iff : firstRepeated? [] texts = none ↔ texts.Nodup := by
  rw [firstRepeated?_eq_none_iff]
  exact and_iff_left fun _ _ => List.not_mem_nil

theorem firstRepeated?_nil_eq_some_iff {s : String} :
    firstRepeated? [] texts = some s ↔
      ∃ before rest, texts = before ++ s :: rest ∧ before.Nodup ∧ s ∈ before := by
  simp only [firstRepeated?_eq_some_iff, firstRepeated?_nil_eq_none_iff, List.not_mem_nil, or_false]

end Fresh

end Text

end BoundSql
