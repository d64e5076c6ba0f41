import BoundSql.Proofs.Query.Statement

/-!
# Lexical safety of statements

No name can change how a statement is read.  Whatever characters the table, the columns
and the identifier column hold, the text of a statement that has been built is scanned
to its end; its quoted segments are segments of the names that the request may mention,
the rest is the fixed vocabulary, and the placeholders are as many as the parameters.

Orderings by trusted expressions are excluded: their text is the caller's own.
-/

namespace BoundSql.Statement

/-- Whether all orderings of a request are by columns. -/
def SortsByColumns : Statement → Prop
  | .select q => ∀ s ∈ q.sorts, ∃ c, s.target = .column c
  | _ => True

/-- The names that the statements of a request may mention: the table, the listed columns
among those it refers to and, if it inserts, the identifier column. -/
def Mentions (o : Options) (s : Statement) (name : String) : Prop :=
  name = o.table ∨ (name ∈ s.columns ∧ o.hasColumn name = true) ∨
    (s.inserts = true ∧ o.idColumn = some name)

/-- The numbers that the statements of a request may hold, which are those of its page. -/
def HoldsNumber : Statement → Nat → Prop
  | .select q, n => ∃ p, q.page = some p ∧ (n = p.size ∨ n = (p.number - 1) * p.size)
  | _, _ => False

section Builders

variable {o : Options} {f : Fragment}

theorem tidy_select {q : SelectQuery} (h : (q.build o).result = .ok f)
    (hsorts : SortsByColumns (.select q)) :
    Piece.Tidy o.dialect (Mentions o (.select q)) (HoldsNumber (.select q)) f.pieces ∧
      Piece.holes f.pieces = f.params.length := by
  obtain ⟨-, hcolumns, restriction, ordering, paging, hrestriction, hordering, hpaging, rfl⟩ :=
    SelectQuery.build_eq_ok_iff.mp h
  have hmentions (c : String) (hc : c ∈ (Statement.select q).columns) (hlisted : o.hasColumn c) :
      Mentions o (.select q) c := Or.inr (Or.inl ⟨hc, hlisted⟩)
  have hselected : Piece.Tidy o.dialect (Mentions o (.select q)) (HoldsNumber (.select q))
      (SelectQuery.selected o.dialect q.columns) := by
    unfold SelectQuery.selected
    split
    · exact .word .star .nil
    · exact .quotedNames fun c hc => hmentions c (by simp [columns, hc]) (hcolumns c hc).1
  have hselectedHoles : Piece.holes (SelectQuery.selected o.dialect q.columns) = 0 := by
    unfold SelectQuery.selected
    split
    · rfl
    · exact Piece.holes_quotedNames o.dialect q.columns
  have hwhere : Piece.Tidy o.dialect (Mentions o (.select q)) (HoldsNumber (.select q))
      restriction.pieces :=
    Options.tidy_buildWhere hrestriction
      fun c hc hlisted => hmentions c (by simp [columns, hc]) hlisted
  have horder : Piece.Tidy o.dialect (Mentions o (.select q)) (HoldsNumber (.select q))
      ordering.pieces ∧ Piece.holes ordering.pieces = 0 :=
    Options.tidy_buildOrderBy hordering hsorts
      fun c hc hlisted => hmentions c (by simp [columns, hc]) hlisted
  have hpage : ∀ w ∈ paging, Piece.Tidy o.dialect (Mentions o (.select q)) (HoldsNumber (.select q))
      w.pieces ∧ Piece.holes w.pieces = 0 := by
    unfold SelectQuery.pagination at hpaging
    cases hp : q.page with
    | none =>
        rw [hp] at hpaging
        cases hpaging
        simp
    | some p =>
        rw [hp] at hpaging
        obtain ⟨w, hw, rfl⟩ := map_eq_ok_iff.mp hpaging
        intro w' hw'
        cases hw'
        exact Options.tidy_buildPagination hw ⟨p, hp, Or.inl rfl⟩ ⟨p, hp, Or.inr rfl⟩
  constructor
  · apply Fragment.tidy_spaced
    · intro part hpart
      simp only [List.mem_cons, List.not_mem_nil, or_false] at hpart
      rcases hpart with rfl | rfl | rfl | rfl
      · exact .word .select .nil
      · exact hselected
      · exact .word .from .nil
      · exact .lastName (Or.inl rfl)
    · intro w hw
      rcases List.mem_append.mp hw with hw | hw
      · have hclause := (List.mem_filter.mp hw).1
        simp only [List.mem_cons, List.not_mem_nil, or_false] at hclause
        rcases hclause with rfl | rfl
        · exact hwhere
        · exact horder.1
      · exact (hpage w (Option.mem_toList.mp hw)).1
  · have hpageHoles : Piece.holes (paging.toList.map Fragment.pieces).flatten = 0 := by
      cases paging with
      | none => rfl
      | some w => simpa using (hpage w rfl).2
    have hwhereHoles := Options.holes_buildWhere hrestriction
    rw [Piece.holes_spaced, List.flatten_append, List.map_append, List.flatten_append,
      Piece.holes_append, Piece.holes_append, Fragment.holes_filter, hpageHoles]
    simp [hselectedHoles, hwhereHoles, horder.2]

theorem tidy_count {q : SelectQuery} (h : (q.buildCount o).result = .ok f) :
    Piece.Tidy o.dialect (Mentions o (.count q)) (HoldsNumber (.count q)) f.pieces ∧
      Piece.holes f.pieces = f.params.length := by
  obtain ⟨-, restriction, hrestriction, rfl⟩ := SelectQuery.buildCount_eq_ok h
  have hwhere : Piece.Tidy o.dialect (Mentions o (.count q)) (HoldsNumber (.count q))
      restriction.pieces :=
    Options.tidy_buildWhere hrestriction fun c hc hlisted => Or.inr (Or.inl ⟨hc, hlisted⟩)
  constructor
  · apply Fragment.tidy_spaced
    · intro part hpart
      simp only [List.mem_cons, List.not_mem_nil, or_false] at hpart
      rcases hpart with rfl | rfl | rfl | rfl
      · exact .word .select .nil
      · exact .word .count (.parenthesised (.word .star .nil))
      · exact .word .from .nil
      · exact .lastName (Or.inl rfl)
    · intro w hw
      rw [List.mem_singleton.mp (List.mem_filter.mp hw).1]
      exact hwhere
  · have hwhereHoles := Options.holes_buildWhere hrestriction
    rw [Piece.holes_spaced, List.flatten_append, Piece.holes_append, Fragment.holes_filter]
    simp [hwhereHoles]

theorem tidy_delete {q : DeleteQuery} (h : (q.build o).result = .ok f) :
    Piece.Tidy o.dialect (Mentions o (.delete q)) (HoldsNumber (.delete q)) f.pieces ∧
      Piece.holes f.pieces = f.params.length := by
  obtain ⟨-, restriction, hrestriction, rfl⟩ := DeleteQuery.build_eq_ok h
  have hwhere : Piece.Tidy o.dialect (Mentions o (.delete q)) (HoldsNumber (.delete q))
      restriction.pieces :=
    Options.tidy_buildWhere hrestriction fun c hc hlisted => Or.inr (Or.inl ⟨hc, hlisted⟩)
  constructor
  · apply Fragment.tidy_spaced
    · intro part hpart
      simp only [List.mem_cons, List.not_mem_nil, or_false] at hpart
      rcases hpart with rfl | rfl
      · exact .word .deleteFrom .nil
      · exact .lastName (Or.inl rfl)
    · intro w hw
      rw [List.mem_singleton.mp (List.mem_filter.mp hw).1]
      exact hwhere
  · have hwhereHoles := Options.holes_buildWhere hrestriction
    rw [Piece.holes_spaced, List.flatten_append, Piece.holes_append, Fragment.holes_filter]
    simp [hwhereHoles]

theorem tidy_update {q : UpdateQuery} (h : (q.build o).result = .ok f) :
    Piece.Tidy o.dialect (Mentions o (.update q)) (HoldsNumber (.update q)) f.pieces ∧
      Piece.holes f.pieces = f.params.length := by
  obtain ⟨-, hassigned, restriction, hrestriction, rfl⟩ := UpdateQuery.build_eq_ok h
  have hmentions (c : String) (hc : c ∈ (Statement.update q).columns) (hlisted : o.hasColumn c) :
      Mentions o (.update q) c := Or.inr (Or.inl ⟨hc, hlisted⟩)
  have hwhere : Piece.Tidy o.dialect (Mentions o (.update q)) (HoldsNumber (.update q))
      restriction.pieces :=
    Options.tidy_buildWhere hrestriction
      fun c hc hlisted => hmentions c (by simp [columns, hc]) hlisted
  have hset : Piece.Tidy o.dialect (Mentions o (.update q)) (HoldsNumber (.update q))
      (Piece.commaSeparated ((q.assignments.map Prod.fst).map fun c =>
        UpdateQuery.assignment (.ofText o.dialect c))) := by
    apply Piece.Tidy.commaSeparated
    intro part hpart
    obtain ⟨c, hc, rfl⟩ := List.mem_map.mp hpart
    have hname := hmentions c (List.mem_append_left _ hc) (hassigned c hc).1
    exact .name hname .space (.word .equal (.word .space (.placeholder .nil)))
  constructor
  · apply Piece.Tidy.spaced
    intro part hpart
    simp only [List.mem_cons, List.not_mem_nil, or_false] at hpart
    rcases hpart with rfl | rfl | rfl | rfl | rfl
    · exact .word .update .nil
    · exact .lastName (Or.inl rfl)
    · exact .word .set .nil
    · exact hset
    · exact hwhere
  · have hwhereHoles := Options.holes_buildWhere hrestriction
    simp only [Piece.holes_spaced, List.flatten_cons, List.flatten_nil, Piece.holes_append,
      UpdateQuery.holes_assignments, hwhereHoles]
    simp

/-- An insert is tidy for single rows and batches alike. -/
theorem tidy_insert {s : Statement} (hs : s.inserts = true) (rows : Nat)
    (hlisted : ∀ c ∈ s.columns, o.hasColumn c = true) :
    Piece.Tidy o.dialect (Mentions o s) (HoldsNumber s) (o.insertPieces s.columns rows) :=
  Options.tidy_insertPieces (Or.inl rfl) (fun c hc => Or.inr (Or.inl ⟨hc, hlisted c hc⟩))
    fun _ hc => Or.inr (Or.inr ⟨hs, hc⟩)

theorem result_return_eq_ok {t : Traced QueryError Fragment} {fs : List Fragment}
    (h : (do return [← t] : Traced QueryError (List Fragment)).result = .ok fs) :
    ∃ f, t.result = .ok f ∧ fs = [f] := by
  rw [Traced.result_bind_eq_ok_iff] at h
  obtain ⟨f, hf, hfs⟩ := h
  cases hfs
  exact ⟨f, hf, rfl⟩

theorem tidy_build {s : Statement} {fs : List Fragment} (hsorts : s.SortsByColumns)
    (h : (s.build o).result = .ok fs) (hf : f ∈ fs) :
    Piece.Tidy o.dialect (Mentions o s) (HoldsNumber s) f.pieces ∧
      Piece.holes f.pieces = f.params.length := by
  cases s with
  | select q =>
      obtain ⟨g, hg, rfl⟩ := result_return_eq_ok h
      rw [List.mem_singleton.mp hf]
      exact tidy_select hg hsorts
  | count q =>
      obtain ⟨g, hg, rfl⟩ := result_return_eq_ok h
      rw [List.mem_singleton.mp hf]
      exact tidy_count hg
  | update q =>
      obtain ⟨g, hg, rfl⟩ := result_return_eq_ok h
      rw [List.mem_singleton.mp hf]
      exact tidy_update hg
  | delete q =>
      obtain ⟨g, hg, rfl⟩ := result_return_eq_ok h
      rw [List.mem_singleton.mp hf]
      exact tidy_delete hg
  | insert q =>
      obtain ⟨g, hg, rfl⟩ := result_return_eq_ok h
      obtain ⟨-, hcolumns, rfl⟩ := InsertQuery.build_eq_ok hg
      rw [List.mem_singleton.mp hf]
      refine ⟨tidy_insert (s := .insert q) rfl 1 fun c hc => (hcolumns c hc).1, ?_⟩
      rw [Options.holes_insertPieces, Nat.one_mul, q.aligned]
  -- each batch has a text of its own, as long as its group of rows
  | insertMany b =>
      simp only [build, Traced.result_bind_eq_ok_iff, Traced.pure_result, Except.ok.injEq,
        BulkInsert.plan_eq_ok_iff] at h
      obtain ⟨p, ⟨hb, size, -, rfl⟩, rfl⟩ := h
      obtain ⟨batch, hbatch, rfl⟩ := List.mem_map.mp hf
      obtain ⟨i, hi, rfl⟩ := List.mem_mapIdx.mp hbatch
      refine ⟨tidy_insert (s := .insertMany b) rfl _ fun c hc => (hb.listed c hc).1, ?_⟩
      apply BulkInsert.holes_batchOf
      intro row hrow
      exact hb.aligned row (BulkInsert.mem_of_mem_groups (List.getElem_mem hi) hrow)

end Builders

/-- Every statement that a request is built into is lexically safe. -/
theorem lexicallySafe_of_build {o : Options} {s : Statement} {fs : List Fragment}
    (hsorts : s.SortsByColumns) (h : (s.build o).result = .ok fs) :
    ∀ f ∈ fs, f.LexicallySafe o.dialect (s.Mentions o) s.HoldsNumber := by
  intro f hf
  obtain ⟨htidy, hholes⟩ := tidy_build hsorts h hf
  exact Fragment.lexicallySafe_of_tidy htidy hholes

/-- Options whose names hold quotes, question marks, dots and a conjunction. -/
def misleadingOptions : Options :=
  { Options.defaults .sqlite "a\"? AND.b" ["x\" = ?", "y"] with idColumn := some "?" }

/-- A selection over misleading names. -/
def misleadingSelect : Statement :=
  .select ⟨["y"], ⟨[("x\" = ?", .list [.integer 1, .integer 2])]⟩, [.asc "y"], some ⟨2, 10⟩⟩

theorem lexicallySafe_misleadingSelect :
    misleadingSelect.SortsByColumns ∧ ∃ f,
      (misleadingSelect.build misleadingOptions).result = .ok [f] ∧
      f.sql = "SELECT \"y\" FROM \"a\"\"? AND\".\"b\" WHERE \"x\"\" = ?\" IN(?, ?) " ++
        "ORDER BY \"y\" ASC LIMIT 10 OFFSET 10" ∧
      f.LexicallySafe .sqlite (misleadingSelect.Mentions misleadingOptions)
        misleadingSelect.HoldsNumber := by
  have hsorts : misleadingSelect.SortsByColumns := by
    intro s hs
    rw [List.mem_singleton.mp hs]
    exact ⟨"y", rfl⟩
  refine ⟨hsorts, _, rfl, by decide +kernel, ?_⟩
  exact lexicallySafe_of_build (o := misleadingOptions) hsorts rfl _ List.mem_cons_self

end BoundSql.Statement
