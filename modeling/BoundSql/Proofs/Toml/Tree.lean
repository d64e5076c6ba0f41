import BoundSql.Toml.Document
import Mathlib.Data.List.Nodup

/-!
# Trees of plain documents

A document of assignments, followed by the entries of one array of tables with assignments of their
own, has the tree that one reads off it: the assignments in their order, and behind them the array
with a table for every entry.  All that is needed is that no table gives a key two values.
-/

namespace BoundSql.Toml

variable {key : String} {members : Members} {es : Members}

/-! ## Changes at the end of a tree -/

theorem alter_absent (h : key ∉ members.map Prod.fst) (f : Option Toml → Option Toml) :
    alter key f members = (f none).map fun v => members ++ [(key, v)] := by
  induction members with
  | nil => rfl
  | cons m members ih =>
      rw [List.map_cons, List.mem_cons, not_or] at h
      rw [alter, if_neg (Ne.symm h.1), ih h.2, Option.map_map]
      rfl

theorem alter_last (h : key ∉ members.map Prod.fst) (f : Option Toml → Option Toml) (v : Toml) :
    alter key f (members ++ [(key, v)]) = (f (some v)).map fun w => members ++ [(key, w)] := by
  induction members with
  | nil => exact if_pos rfl
  | cons m members ih =>
      rw [List.map_cons, List.mem_cons, not_or] at h
      rw [List.cons_append, alter, if_neg (Ne.symm h.1), ih h.2, Option.map_map]
      rfl

/-! ## Assignments -/

/-- The clause that gives a key of the current table its value. -/
def entryClause (e : String × Toml) : Clause := .assignment (.bare e.1 [' ']) e.2

/-- The clause that opens the next entry of an array of tables. -/
def elementClause (key : String) : Clause := .element (.bare key [])

/-- A key that is new to a list with distinct keys. -/
theorem not_mem_of_nodup_append {e : String × Toml}
    (h : ((members ++ e :: es).map Prod.fst).Nodup) : e.1 ∉ members.map Prod.fst := by
  rw [List.map_append, List.nodup_append] at h
  exact fun hmem => h.2.2 e.1 hmem e.1 (by simp) rfl

theorem build_entries (members es : Members) (h : ((members ++ es).map Prod.fst).Nodup)
    (rest : List Clause) :
    build [] members (es.map entryClause ++ rest) = build [] (members ++ es) rest := by
  induction es generalizing members with
  | nil => rw [List.append_nil]; rfl
  | cons e es ih =>
      have happly : (entryClause e).apply [] members = some (members ++ [e]) :=
        alter_absent (not_mem_of_nodup_append h) (fresh e.2)
      have hassoc : members ++ e :: es = members ++ [e] ++ es := by simp
      rw [hassoc] at h ⊢
      rw [List.map_cons, List.cons_append, build, happly, ← ih _ h]
      rfl

/-! ## Entries of an array -/

/-- A tree that ends with an array of tables. -/
def withArray (front : Members) (key : String) (tables : List Members) : Members :=
  front ++ [(key, .arr true (tables.map (.table .header)))]

/-- Assignments behind the header of an entry go to the last table of the array. -/
theorem build_element_entries {front : Members} (hkey : key ∉ front.map Prod.fst)
    (done : List Members) (members : Members) {es : Members}
    (h : ((members ++ es).map Prod.fst).Nodup) (rest : List Clause) :
    build [.bare key] (withArray front key (done ++ [members])) (es.map entryClause ++ rest) =
      build [.bare key] (withArray front key (done ++ [members ++ es])) rest := by
  induction es generalizing members with
  | nil => rw [List.append_nil]; rfl
  | cons e es ih =>
      have hfresh := alter_absent (not_mem_of_nodup_append h) (fresh e.2)
      have happly : (entryClause e).apply [.bare key] (withArray front key (done ++ [members])) =
          some (withArray front key (done ++ [members ++ [e]])) := by
        show alter key (enter false fun _ m => alter e.1 (fresh e.2) m) _ = _
        rw [withArray, alter_last hkey]
        simp [enter, hfresh, fresh, withArray]
      have hassoc : members ++ e :: es = members ++ [e] ++ es := by simp
      rw [hassoc] at h ⊢
      rw [List.map_cons, List.cons_append, build, happly, ← ih _ h]
      rfl

/-- The clauses of an array of tables. -/
def arrayClauses (key : String) (tables : List Members) : List Clause :=
  tables.flatMap fun entries => elementClause key :: entries.map entryClause

theorem build_arrayClauses {front : Members} (hkey : key ∉ front.map Prod.fst)
    (done : List Members) {tables : List Members}
    (h : ∀ entries ∈ tables, (entries.map Prod.fst).Nodup) (current : List Key) :
    build current (withArray front key done) (arrayClauses key tables) =
      some (withArray front key (done ++ tables)) := by
  induction tables generalizing done current with
  | nil => rw [List.append_nil]; rfl
  | cons entries tables ih =>
      obtain ⟨hentries, htables⟩ := List.forall_mem_cons.mp h
      have hopen : (elementClause key).apply current (withArray front key done) =
          some (withArray front key (done ++ [[]])) := by
        show alter key openElement _ = _
        rw [withArray, alter_last hkey]
        simp [openElement, withArray]
      have htable := build_element_entries hkey done [] hentries (arrayClauses key tables)
      have hrest := ih (done ++ [entries]) htables [.bare key]
      rw [arrayClauses, List.flatMap_cons, List.cons_append, build, hopen]
      show build [.bare key] (withArray front key (done ++ [[]]))
        (entries.map entryClause ++ arrayClauses key tables) = _
      rw [htable, List.nil_append, hrest]
      simp

/-- The tree of assignments and the tables of an array behind them. -/
theorem build_document {front : Members} (hfront : (front.map Prod.fst).Nodup)
    (hkey : key ∉ front.map Prod.fst) {first : Members} {others : List Members}
    (h : ∀ entries ∈ first :: others, (entries.map Prod.fst).Nodup) :
    build [] [] (front.map entryClause ++ arrayClauses key (first :: others)) =
      some (withArray front key (first :: others)) := by
  obtain ⟨hfirst, hothers⟩ := List.forall_mem_cons.mp h
  have hopen : (elementClause key).apply [] front = some (withArray front key ([] ++ [[]])) :=
    alter_absent hkey openElement
  have htable := build_element_entries hkey [] [] hfirst (arrayClauses key others)
  have hrest := build_arrayClauses hkey [first] hothers [.bare key]
  rw [build_entries [] front hfront, List.nil_append, arrayClauses, List.flatMap_cons,
    List.cons_append, build, hopen]
  show build [.bare key] (withArray front key ([] ++ [[]]))
    (first.map entryClause ++ arrayClauses key others) = _
  rw [htable, List.nil_append, List.nil_append, hrest]
  rfl

end BoundSql.Toml
