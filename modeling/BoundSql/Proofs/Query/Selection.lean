import BoundSql.Proofs.Query.Ordering
import BoundSql.Proofs.Query.Pagination
import BoundSql.Proofs.Query.Restriction
import Mathlib.Data.List.Induction

/-!
# Selections

What a selection says depends on the contents of its query and not on the order of the calls that
put them together: all selected columns, the last filter, all terms of the ordering and the last
page.  Each clause has its place in the text, and is there exactly if the query has something for
it to say.

A dialect that pages by skipping rows of the ordering refuses a page without an ordering.
-/

namespace BoundSql

namespace SelectQuery

/-! ## Queries from calls -/

/-- One call on a query. -/
inductive Call where
  | columns (names : List String)
  | filter (f : Filter)
  | orderBy (s : SortTerm)
  | page (p : Page)

namespace Call

/-- The query after a call. -/
def on (q : SelectQuery) : Call → SelectQuery
  | .columns names => q.addColumns names
  | .filter f => q.withFilter f
  | .orderBy s => q.orderBy s
  | .page p => q.withPage p

/-- The columns that a call selects. -/
def names : Call → List String
  | .columns names => names
  | .filter _ | .orderBy _ | .page _ => []

def filter? : Call → Option Filter
  | .filter f => some f
  | .columns _ | .orderBy _ | .page _ => none

def sort? : Call → Option SortTerm
  | .orderBy s => some s
  | .columns _ | .filter _ | .page _ => none

def page? : Call → Option Page
  | .page p => some p
  | .columns _ | .filter _ | .orderBy _ => none

end Call

/-- The query that calls make of the empty one. -/
def ofCalls (calls : List Call) : SelectQuery := calls.foldl Call.on .empty

/-- The query with the contents of calls: all columns and all terms of the ordering, the last filter
and the last page. -/
def collected (calls : List Call) : SelectQuery where
  columns := calls.flatMap Call.names
  filter := (calls.filterMap Call.filter?).getLast?.getD .empty
  sorts := calls.filterMap Call.sort?
  page := (calls.filterMap Call.page?).getLast?

theorem collected_concat (calls : List Call) (call : Call) :
    collected (calls ++ [call]) = call.on (collected calls) := by
  cases call <;>
    simp [collected, Call.on, Call.names, Call.filter?, Call.sort?, Call.page?, addColumns,
      withFilter, orderBy, withPage]

theorem ofCalls_eq_collected (calls : List Call) : ofCalls calls = collected calls := by
  induction calls using List.reverseRecOn with
  | nil => rfl
  | append_singleton calls call ih =>
      have hstep : ofCalls (calls ++ [call]) = call.on (ofCalls calls) := by simp [ofCalls]
      rw [hstep, ih, collected_concat]

theorem page_collected_ne_none {calls : List Call} {p : Page} (h : .page p ∈ calls) :
    (collected calls).page ≠ none := by
  have hmem : p ∈ calls.filterMap Call.page? := List.mem_filterMap.mpr ⟨_, h, rfl⟩
  rw [collected, ne_eq, List.getLast?_eq_none_iff]
  exact List.ne_nil_of_mem hmem

theorem sorts_collected_eq_nil {calls : List Call} (h : ∀ s, .orderBy s ∉ calls) :
    (collected calls).sorts = [] := by
  rw [collected, List.filterMap_eq_nil_iff]
  intro call hcall
  cases call with
  | orderBy s => exact absurd hcall (h s)
  | columns | filter | page => rfl

end SelectQuery

/-! ## Clauses -/

namespace Fragment

/-- The restriction to the rows of a filter; without entries it has no text. -/
def restriction (d : Dialect) (f : Filter) : Fragment :=
  if f.isEmpty then .empty else Predicate.restriction (f.tests.map (Filter.predicateOf d))

/-- The clause for a page, if there is one. -/
def paging (d : Dialect) (page : Option Page) : Option Fragment :=
  page.map fun p => ⟨d.paginationStyle.pieces p.span, []⟩

theorem params_restriction (d : Dialect) (f : Filter) :
    (restriction d f).params = f.tests.flatMap fun t => t.2.values := by
  unfold restriction
  split
  · rename_i hempty
    have hentries : f.entries = [] := List.isEmpty_iff.mp hempty
    simp [Filter.tests, hentries, Fragment.empty]
  · exact Predicate.params_restriction d f.tests

end Fragment

variable {o : Options}

theorem Options.buildWhere_eq_ok_restriction_iff {f : Filter} {w : Fragment} :
    (o.buildWhere f).result = .ok w ↔
      (∀ entry ∈ f.entries, o.AdmitsEntry entry) ∧ w = .restriction o.dialect f := by
  rw [buildWhere_eq_ok_iff]
  simp only [Filter.predicates_eq_ok_iff, and_assoc, exists_and_left, exists_eq_left]
  rfl

namespace SelectQuery

variable {q : SelectQuery} {f : Fragment}

theorem pagination_eq_ok_iff {ordered : Bool} {paging : Option Fragment} :
    q.pagination o ordered = .ok paging ↔
      (∀ p, q.page = some p →
        p.Valid o.maxPageSize ∧ (o.dialect.paginationStyle = .offsetFetch → ordered = true)) ∧
      paging = Fragment.paging o.dialect q.page := by
  unfold pagination Fragment.paging
  cases q.page with
  | none => simp [eq_comm]
  | some p =>
      simp only [map_eq_ok_iff, Options.buildPagination_eq_ok_iff, Option.some.injEq,
        forall_eq', Option.map_some]
      constructor
      · rintro ⟨_, ⟨hvalid, hordered, rfl⟩, rfl⟩
        exact ⟨⟨hvalid, hordered⟩, rfl⟩
      · rintro ⟨⟨hvalid, hordered⟩, rfl⟩
        exact ⟨_, ⟨hvalid, hordered, rfl⟩, rfl⟩

/-! ## Statements -/

/-- A query that can be built: everything in it can be named and compiled, its page can be
requested, and there is an ordering to page by where one is needed. -/
structure Buildable (o : Options) (q : SelectQuery) : Prop where
  table : Name.Escapable o.table
  columns : ∀ c ∈ q.columns, o.hasColumn c = true ∧ Name.Escapable c
  entries : ∀ entry ∈ q.filter.entries, o.AdmitsEntry entry
  sorts : ∀ s ∈ q.sorts, s.Admitted o
  page : ∀ p, q.page = some p → p.Valid o.maxPageSize
  ordered : q.page ≠ none → o.dialect.paginationStyle = .offsetFetch → q.sorts ≠ []

/-- The clauses of a query behind its table, in their order. -/
def clauses (d : Dialect) (q : SelectQuery) : List Fragment :=
  [.restriction d q.filter, .ordering d q.sorts].filter (fun c => !c.isEmpty) ++
    (Fragment.paging d q.page).toList

/-- The statement of a query. -/
def statement (o : Options) (q : SelectQuery) : Fragment where
  pieces := Piece.spaced ([[.word .select], selected o.dialect q.columns, [.word .from],
    [.name (.ofText o.dialect o.table)]] ++ (q.clauses o.dialect).map Fragment.pieces)
  params := q.filter.tests.flatMap fun t => t.2.values

theorem build_eq_ok_iff_buildable :
    (q.build o).result = .ok f ↔ q.Buildable o ∧ f = q.statement o := by
  simp only [build_eq_ok_iff, Options.buildWhere_eq_ok_restriction_iff,
    Options.buildOrderBy_eq_ok_iff, pagination_eq_ok_iff]
  constructor
  · rintro ⟨htable, hcolumns, _, _, _, ⟨hentries, rfl⟩, ⟨hsorts, rfl⟩, ⟨hpage, rfl⟩, rfl⟩
    refine ⟨⟨htable, hcolumns, hentries, hsorts, fun p hp => (hpage p hp).1, ?_⟩, ?_⟩
    · intro hpaged hstyle
      obtain ⟨p, hp⟩ := Option.ne_none_iff_exists'.mp hpaged
      simpa [Fragment.isEmpty_ordering] using (hpage p hp).2 hstyle
    · rw [Fragment.params_restriction]
      rfl
  · rintro ⟨h, rfl⟩
    refine ⟨h.table, h.columns, _, _, _, ⟨h.entries, rfl⟩, ⟨h.sorts, rfl⟩, ⟨?_, rfl⟩, ?_⟩
    · intro p hp
      refine ⟨h.page p hp, fun hstyle => ?_⟩
      have hordered : q.sorts ≠ [] := h.ordered (by simp [hp]) hstyle
      simpa [Fragment.isEmpty_ordering] using hordered
    · rw [Fragment.params_restriction]
      rfl

end SelectQuery

/-! ## The text of a statement -/

theorem Piece.text_name (n : Name) : text [.name n] = n.text := by
  rw [text, List.flatMap_singleton]
  rfl

/-- The text of a term of an ordering. -/
def SortTerm.text (d : Dialect) (s : SortTerm) : String :=
  (s.named d).text ++ match s.direction with
    | .asc => " ASC"
    | .desc => " DESC"

theorem SortTerm.text_termPieces (d : Dialect) (s : SortTerm) :
    Piece.text (s.termPieces d) = s.text d := by
  apply String.ext
  cases hdirection : s.direction <;>
    simp [Piece.text, termPieces, text, hdirection, Direction.word, Piece.chars, Word.chars,
      Word.text, Name.text]

namespace SelectQuery

/-- The text of the selected columns; no columns means all. -/
def columnsText (d : Dialect) (columns : List String) : String :=
  if columns = [] then "*"
  else String.intercalate ", " (columns.map fun c => (Name.ofText d c).text)

def restrictionText? (d : Dialect) (f : Filter) : Option String :=
  if f.entries = [] then none
  else some ("WHERE " ++ String.intercalate " AND "
    (f.tests.map fun t => (Filter.predicateOf d t).fragment.sql))

def orderingText? (d : Dialect) (sorts : List SortTerm) : Option String :=
  if sorts = [] then none
  else some ("ORDER BY " ++ String.intercalate ", " (sorts.map (SortTerm.text d)))

def pagingText? (d : Dialect) (page : Option Page) : Option String :=
  page.map fun p => d.paginationStyle.text p.span

/-- The text of the statement of a query. -/
def text (o : Options) (q : SelectQuery) : String :=
  String.intercalate " "
    (["SELECT", columnsText o.dialect q.columns, "FROM", (Name.ofText o.dialect o.table).text] ++
      ((restrictionText? o.dialect q.filter).toList ++ (orderingText? o.dialect q.sorts).toList ++
        (pagingText? o.dialect q.page).toList))

variable (d : Dialect)

theorem text_selected (columns : List String) :
    Piece.text (selected d columns) = columnsText d columns := by
  unfold selected columnsText
  cases columns with
  | nil => rfl
  | cons c columns =>
      simp only [List.isEmpty_cons, Bool.false_eq_true, if_false, reduceCtorEq]
      rw [Piece.commaSeparated, Piece.text_intercalate, List.map_map]
      exact congrArg (String.intercalate ", ")
        (List.map_congr_left fun c _ => Piece.text_name (.ofText d c))

theorem sql_restriction (f : Filter) :
    ([Fragment.restriction d f].filter fun c => !c.isEmpty).map Fragment.sql =
      (restrictionText? d f).toList := by
  unfold Fragment.restriction restrictionText?
  cases hentries : f.entries with
  | nil =>
      have hempty : Fragment.empty.isEmpty = true := rfl
      simp [Filter.isEmpty, hentries, hempty]
  | cons entry rest =>
      have hrestriction :
          (Predicate.restriction (f.tests.map (Filter.predicateOf d))).isEmpty = false := rfl
      simp [Filter.isEmpty, hentries, hrestriction, Predicate.sql_restriction]

theorem sql_ordering (sorts : List SortTerm) :
    ([Fragment.ordering d sorts].filter fun c => !c.isEmpty).map Fragment.sql =
      (orderingText? d sorts).toList := by
  cases sorts with
  | nil => rfl
  | cons s sorts =>
      have hordering : (Fragment.ordering d (s :: sorts)).sql =
          "ORDER BY " ++ String.intercalate ", " ((s :: sorts).map (SortTerm.text d)) := by
        show Piece.text ([.word .orderBy, .word .space] ++ Piece.commaSeparated _) = _
        rw [Piece.text_append, Piece.commaSeparated, Piece.text_intercalate, List.map_map]
        simp only [Function.comp_def, SortTerm.text_termPieces]
        rfl
      simp [Fragment.isEmpty_ordering, orderingText?, hordering]

theorem sql_paging (page : Option Page) :
    (Fragment.paging d page).toList.map Fragment.sql = (pagingText? d page).toList := by
  cases page with
  | none => rfl
  | some p => exact congrArg (fun s => [s]) (PaginationStyle.text_pieces _ _)

theorem sql_statement (o : Options) (q : SelectQuery) : (q.statement o).sql = q.text o := by
  have hclauses : (q.clauses o.dialect).map Fragment.sql =
      (restrictionText? o.dialect q.filter).toList ++
        (orderingText? o.dialect q.sorts).toList ++ (pagingText? o.dialect q.page).toList := by
    rw [clauses, ← List.singleton_append, List.filter_append, List.map_append, List.map_append,
      sql_restriction, sql_ordering, sql_paging]
  show Piece.text (Piece.spaced _) = _
  rw [Piece.spaced, Piece.text_intercalate, List.map_append, List.map_map, text, ← hclauses]
  simp only [List.map_cons, text_selected, Piece.text_name]
  rfl

end SelectQuery

/-! ## Ordered pages -/

variable {d : Dialect}

theorem Filter.fetchNext_notMem_predicateOf (t : String × Test) :
    .word .fetchNext ∉ (predicateOf d t).pieces := by
  have hplaceholders (n : Nat) : .word .fetchNext ∉ Piece.placeholders n := by
    refine notMem_intercalate (by decide) fun part hpart => ?_
    rw [List.eq_of_mem_replicate hpart]
    decide
  obtain ⟨column, test⟩ := t
  cases test with
  | isNull | isNotNull => simp [predicateOf, Test.on, Predicate.pieces]
  | compare op v => cases op <;> simp [predicateOf, Test.on, Predicate.pieces, Operator.word]
  | oneOf vs | noneOf vs =>
      simp [predicateOf, Test.on, Predicate.pieces, Piece.parenthesised, hplaceholders]

theorem Fragment.fetchNext_notMem_restriction (f : Filter) :
    .word .fetchNext ∉ (restriction d f).pieces := by
  unfold restriction
  split
  · exact List.not_mem_nil
  · have hconjoined : .word .fetchNext ∉ Piece.conjoined
        ((f.tests.map (Filter.predicateOf d)).map Predicate.pieces) := by
      refine notMem_intercalate (by decide) fun part hpart => ?_
      rw [List.map_map] at hpart
      obtain ⟨t, -, rfl⟩ := List.mem_map.mp hpart
      exact Filter.fetchNext_notMem_predicateOf t
    simpa [Predicate.restriction] using hconjoined

namespace SelectQuery

variable {q : SelectQuery}

/-- Rows are fetched for a page only, and only by a dialect that skips rows of the ordering. -/
theorem page_of_fetchNext_mem (h : .word .fetchNext ∈ (q.statement o).pieces) :
    q.page ≠ none ∧ o.dialect.paginationStyle = .offsetFetch := by
  rcases mem_of_mem_intercalate h with h | ⟨part, hpart, h⟩
  · simp at h
  rcases List.mem_append.mp hpart with hpart | hpart
  · have hselected : .word .fetchNext ∉ selected o.dialect q.columns :=
      word_notMem_selected (by decide) _ _
    simp only [List.mem_cons, List.not_mem_nil, or_false] at hpart
    rcases hpart with rfl | rfl | rfl | rfl <;> simp_all
  · obtain ⟨c, hc, rfl⟩ := List.mem_map.mp hpart
    rcases List.mem_append.mp hc with hc | hc
    · obtain rfl | rfl : c = .restriction o.dialect q.filter ∨ c = .ordering o.dialect q.sorts := by
        simpa using (List.mem_filter.mp hc).1
      · exact absurd h (Fragment.fetchNext_notMem_restriction _)
      · exact absurd h (Fragment.word_notMem_ordering (by decide) _ _)
    · rw [Fragment.paging, Option.mem_toList, Option.map_eq_some_iff] at hc
      obtain ⟨p, hp, rfl⟩ := hc
      refine ⟨by simp [hp], ?_⟩
      cases hstyle : o.dialect.paginationStyle with
      | offsetFetch => rfl
      | limitOffset => simp [hstyle, PaginationStyle.pieces, Window.limitOffset] at h

theorem orderBy_mem_statement (h : q.sorts ≠ []) :
    .word .orderBy ∈ (q.statement o).pieces := by
  have hordering : .ordering o.dialect q.sorts ∈ q.clauses o.dialect := by
    simp [clauses, Fragment.isEmpty_ordering, h]
  refine mem_intercalate_of_mem _ (List.mem_append_right _ (List.mem_map_of_mem hordering)) ?_
  simp [Fragment.ordering, h]

/-! ## Selections from calls -/

/-- The order of the calls on a query does not matter to what it says.  A statement that is built
has its clauses in their places, each exactly if the calls have given it something to say, and binds
the values of the last filter.  A dialect that pages by skipping rows of the ordering never builds
a page without one, so rows are fetched only in statements with an ordering. -/
theorem ofCalls_build_statement (o : Options) (calls : List Call) :
    (ofCalls calls).build o = (collected calls).build o ∧
      (∀ f, ((ofCalls calls).build o).result = .ok f →
        f.sql = (collected calls).text o ∧
          f.params = (collected calls).filter.tests.flatMap fun t => t.2.values) ∧
      (o.dialect.paginationStyle = .offsetFetch → (∃ p, .page p ∈ calls) →
        (∀ s, .orderBy s ∉ calls) → ∀ f, ((ofCalls calls).build o).result ≠ .ok f) ∧
      ∀ f, ((ofCalls calls).build o).result = .ok f →
        .word .fetchNext ∈ f.pieces → .word .orderBy ∈ f.pieces := by
  rw [ofCalls_eq_collected]
  refine ⟨rfl, ?_⟩
  simp only [build_eq_ok_iff_buildable, ne_eq]
  refine ⟨?_, ?_, ?_⟩
  · rintro _ ⟨-, rfl⟩
    exact ⟨sql_statement o _, rfl⟩
  · rintro hstyle ⟨p, hp⟩ hsorts _ ⟨hbuildable, -⟩
    exact hbuildable.ordered (page_collected_ne_none hp) hstyle (sorts_collected_eq_nil hsorts)
  · rintro _ ⟨hbuildable, rfl⟩ hfetch
    obtain ⟨hpaged, hstyle⟩ := page_of_fetchNext_mem hfetch
    exact orderBy_mem_statement (hbuildable.ordered hpaged hstyle)

/-- Calls in which each setter is used twice, and clauses are given against their order. -/
def mixedCalls : List Call :=
  [.page ⟨1, 10⟩, .orderBy (.trusted "LOWER([b])" .desc), .columns ["id"],
    .filter ⟨[("a", .value (.integer 1))]⟩, .page ⟨3, 20⟩, .columns ["b", "a"],
    .filter ⟨[("b", .value (.text "x")), ("a", .value .null)]⟩, .orderBy (.asc "id")]

theorem ofCalls_build_statement_mixedCalls :
    (∃ f, ((ofCalls mixedCalls).build (.defaults .sqlserver "t" ["id", "a", "b"])).result = .ok f ∧
      f.sql = "SELECT [id], [b], [a] FROM [t] WHERE [b] = ? AND [a] IS NULL " ++
        "ORDER BY LOWER([b]) DESC, [id] ASC OFFSET 40 ROWS FETCH NEXT 20 ROWS ONLY" ∧
      f.params = [.text "x"] ∧ .word .orderBy ∈ f.pieces) ∧
    ∀ f, ((ofCalls [.page ⟨1, 10⟩, .columns ["id"]]).build
      (.defaults .sqlserver "t" ["id", "a", "b"])).result ≠ .ok f := by
  obtain ⟨-, hstatement, -, hordered⟩ :=
    ofCalls_build_statement (.defaults .sqlserver "t" ["id", "a", "b"]) mixedCalls
  obtain ⟨-, -, hrefused, -⟩ :=
    ofCalls_build_statement (.defaults .sqlserver "t" ["id", "a", "b"])
      [.page ⟨1, 10⟩, .columns ["id"]]
  refine ⟨⟨_, rfl, ?_, ?_, ?_⟩, hrefused rfl ⟨_, List.mem_cons_self⟩ ?_⟩
  · exact (hstatement _ rfl).1.trans (by decide +kernel)
  · exact (hstatement _ rfl).2.trans rfl
  · exact hordered _ rfl (by decide)
  · intro s hs
    simp at hs

end SelectQuery

end BoundSql
