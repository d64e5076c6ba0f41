import BoundSql.Filter.Basic

/-!
# Entries of filters

Changing the condition of a column changes its first entry in place, or adds one behind all others
if the column has none.  Nothing else is touched, and columns are never listed twice.
-/

namespace BoundSql.Filter

variable {column : String} {change : Option Condition → Condition}
  {entries before after : List (String × Condition)}

theorem alterEntries_of_split {old : Condition} (h : column ∉ before.map Prod.fst) :
    alterEntries column change (before ++ (column, old) :: after) =
      before ++ (column, change (some old)) :: after := by
  induction before with
  | nil => simp [alterEntries]
  | cons entry before ih =>
      have hne : entry.1 ≠ column := fun heq => h (by simp [heq])
      have htail : column ∉ before.map Prod.fst := fun hmem => h (List.mem_cons_of_mem _ hmem)
      rw [List.cons_append, alterEntries, if_neg hne, ih htail]
      rfl

theorem alterEntries_of_notMem (h : column ∉ entries.map Prod.fst) :
    alterEntries column change entries = entries ++ [(column, change none)] := by
  induction entries with
  | nil => rfl
  | cons entry entries ih =>
      have hne : entry.1 ≠ column := fun heq => h (by simp [heq])
      have htail : column ∉ entries.map Prod.fst := fun hmem => h (List.mem_cons_of_mem _ hmem)
      rw [alterEntries, if_neg hne, ih htail]
      rfl

/-- A column is new, or the entries are split at its first one. -/
theorem notMem_or_split (column : String) (entries : List (String × Condition)) :
    column ∉ entries.map Prod.fst ∨ ∃ before old after,
      entries = before ++ (column, old) :: after ∧ column ∉ before.map Prod.fst := by
  induction entries with
  | nil => exact Or.inl List.not_mem_nil
  | cons entry entries ih =>
      obtain ⟨c, old⟩ := entry
      by_cases hc : c = column
      · subst hc
        exact Or.inr ⟨[], old, entries, rfl, List.not_mem_nil⟩
      rcases ih with hnew | ⟨before, old', after, rfl, hbefore⟩
      · exact Or.inl (by simpa [Ne.symm hc] using hnew)
      · exact Or.inr ⟨(c, old) :: before, old', after, rfl, by simpa [Ne.symm hc] using hbefore⟩

theorem columns_alterEntries (column : String) (change : Option Condition → Condition)
    (entries : List (String × Condition)) :
    (alterEntries column change entries).map Prod.fst =
      if column ∈ entries.map Prod.fst then entries.map Prod.fst
      else entries.map Prod.fst ++ [column] := by
  rcases notMem_or_split column entries with hnew | ⟨before, old, after, rfl, hbefore⟩
  · rw [alterEntries_of_notMem hnew, if_neg hnew]
    simp
  · rw [alterEntries_of_split hbefore, if_pos (by simp)]
    simp

theorem lookup_alterEntries (column : String) (change : Option Condition → Condition)
    (entries : List (String × Condition)) :
    (alterEntries column change entries).lookup column = some (change (entries.lookup column)) := by
  induction entries with
  | nil => simp [alterEntries]
  | cons entry entries ih =>
      obtain ⟨c, old⟩ := entry
      by_cases hc : c = column
      · subst hc
        simp [alterEntries]
      · have hbeq : (column == c) = false := by simpa using Ne.symm hc
        rw [alterEntries, if_neg hc, List.lookup_cons, List.lookup_cons, hbeq]
        exact ih

theorem others_alterEntries (column : String) (change : Option Condition → Condition)
    (entries : List (String × Condition)) :
    (alterEntries column change entries).filter (fun entry => entry.1 ≠ column) =
      entries.filter fun entry => entry.1 ≠ column := by
  rcases notMem_or_split column entries with hnew | ⟨before, old, after, rfl, hbefore⟩
  · rw [alterEntries_of_notMem hnew]
    simp
  · rw [alterEntries_of_split hbefore]
    simp

theorem lookup_alterEntries_of_ne {other : String} (hne : other ≠ column)
    (change : Option Condition → Condition) (entries : List (String × Condition)) :
    (alterEntries column change entries).lookup other = entries.lookup other := by
  have hbeq : (other == column) = false := by simpa using hne
  rcases notMem_or_split column entries with hnew | ⟨before, old, after, rfl, hbefore⟩
  · rw [alterEntries_of_notMem hnew, List.lookup_append, List.lookup_cons, hbeq]
    simp
  · rw [alterEntries_of_split hbefore, List.lookup_append, List.lookup_append, List.lookup_cons,
      List.lookup_cons, hbeq]

end BoundSql.Filter
