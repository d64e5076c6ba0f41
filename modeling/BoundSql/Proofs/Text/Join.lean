/-!
# Joined lists

A list joined by a separator has the elements of its parts and of the separator, and
nothing else.  Counting and mapping therefore go through a join part by part.
-/

namespace BoundSql

variable {α β : Type}

theorem mem_of_mem_intercalate {a : α} {sep : List α} {parts : List (List α)}
    (h : a ∈ sep.intercalate parts) : a ∈ sep ∨ ∃ part ∈ parts, a ∈ part := by
  induction parts with
  | nil => simp at h
  | cons part rest ih =>
      cases rest with
      | nil => exact Or.inr ⟨part, List.mem_cons_self, by simpa using h⟩
      | cons next rest =>
          simp only [List.intercalate_cons_cons, List.mem_append] at h
          rcases h with (h | h) | h
          · exact Or.inr ⟨part, List.mem_cons_self, h⟩
          · exact Or.inl h
          · refine (ih h).imp_right ?_
            rintro ⟨q, hq, hmem⟩
            exact ⟨q, List.mem_cons_of_mem part hq, hmem⟩

theorem flatMap_intercalate (f : α → List β) (sep : List α) (parts : List (List α)) :
    (sep.intercalate parts).flatMap f =
      (sep.flatMap f).intercalate (parts.map fun part => part.flatMap f) := by
  induction parts with
  | nil => rfl
  | cons part rest ih =>
      cases rest with
      | nil => simp
      | cons next rest =>
          simp only [List.map_cons, List.intercalate_cons_cons, List.flatMap_append] at ih ⊢
          rw [ih]

theorem intercalate_cons (sep part : List α) (after : List (List α)) :
    sep.intercalate (part :: after) = part ++ after.flatMap (sep ++ ·) := by
  induction after generalizing part with
  | nil => simp
  | cons next after ih =>
      rw [List.intercalate_cons_cons, ih next]
      simp

/-- The neighbours of a part in a join. -/
theorem intercalate_append_cons (sep : List α) (before : List (List α)) (part : List α)
    (after : List (List α)) :
    sep.intercalate (before ++ part :: after) =
      before.flatMap (· ++ sep) ++ (part ++ after.flatMap (sep ++ ·)) := by
  induction before with
  | nil => exact intercalate_cons sep part after
  | cons first before ih =>
      have hne : before ++ part :: after ≠ [] := by simp
      obtain ⟨next, rest, hcons⟩ := List.exists_cons_of_ne_nil hne
      rw [List.cons_append, hcons, List.intercalate_cons_cons, ← hcons, ih]
      simp

theorem mem_intercalate_of_mem {a : α} {part : List α} {parts : List (List α)} (sep : List α)
    (hpart : part ∈ parts) (ha : a ∈ part) : a ∈ sep.intercalate parts := by
  obtain ⟨before, after, rfl⟩ := List.append_of_mem hpart
  rw [intercalate_append_cons]
  exact List.mem_append_right _ (List.mem_append_left _ ha)

theorem count_intercalate [BEq α] {a : α} {sep : List α} (hsep : sep.count a = 0)
    (parts : List (List α)) : (sep.intercalate parts).count a = parts.flatten.count a := by
  induction parts with
  | nil => rfl
  | cons part rest ih =>
      cases rest with
      | nil => simp
      | cons next rest =>
          rw [List.intercalate_cons_cons, List.count_append, List.count_append, hsep, ih,
            List.flatten_cons (l := part), List.count_append, Nat.add_zero]

theorem length_flatten_of_forall {width : Nat} {rows : List (List α)}
    (h : ∀ row ∈ rows, row.length = width) : rows.flatten.length = rows.length * width := by
  induction rows with
  | nil => simp
  | cons row rows ih =>
      have hrow := h row List.mem_cons_self
      have hrows := ih fun r hr => h r (List.mem_cons_of_mem row hr)
      rw [List.flatten_cons, List.length_append, hrow, hrows, List.length_cons, Nat.add_mul]
      omega

end BoundSql
