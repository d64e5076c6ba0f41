import BoundSql.Proofs.Filter.Denotation
import BoundSql.Proofs.Query.Ordering
import BoundSql.Proofs.Query.Pagination
import BoundSql.Proofs.Sql.Vocabulary
import BoundSql.Query.Insert

/-!
# Clauses of statements

Every clause that can be built is tidy over the columns it was asked for, and carries
one parameter for each of its placeholders.  An ordering is tidy only if all of its
terms are columns; a trusted expression is outside what is promised here.
-/

namespace BoundSql

variable {names : String → Prop} {numbers : Nat → Prop}

/-! ## Restrictions -/

namespace Filter

variable {d : Dialect}

theorem tidy_predicateOf {t : String × Test} (ht : names t.1) :
    Piece.Tidy d names numbers (predicateOf d t).pieces := by
  obtain ⟨column, test⟩ := t
  cases test with
  | isNull => exact .name ht .space (.word .isNull .nil)
  | isNotNull => exact .name ht .space (.word .isNotNull .nil)
  | compare op v => exact .name ht .space (.word op.word (.word .space (.placeholder .nil)))
  | oneOf vs => exact .name ht .space (.word .in (.parenthesised (.placeholders vs.length)))
  | noneOf vs => exact .name ht .space (.word .notIn (.parenthesised (.placeholders vs.length)))

theorem holes_predicateOf (d : Dialect) (t : String × Test) :
    Piece.holes (predicateOf d t).pieces = t.2.values.length := by
  obtain ⟨column, test⟩ := t
  cases test <;> simp [predicateOf, Test.on, Predicate.pieces, Test.values]

theorem column_mem_of_mem_tests {f : Filter} {t : String × Test} (ht : t ∈ f.tests) :
    t.1 ∈ f.columns := by
  obtain ⟨entry, hentry, ht⟩ := List.mem_flatMap.mp ht
  obtain ⟨test, -, rfl⟩ := List.mem_map.mp ht
  exact List.mem_map_of_mem hentry

end Filter

/-- Parameters of a conjunction of tests. -/
theorem Predicate.params_restriction (d : Dialect) (ts : List (String × Test)) :
    (restriction (ts.map (Filter.predicateOf d))).params = ts.flatMap fun t => t.2.values := by
  simp [restriction, List.flatMap_map, Filter.predicateOf]

/-- A conjunction of tests has one placeholder for each of its parameters. -/
theorem Predicate.holes_restriction (d : Dialect) (ts : List (String × Test)) :
    Piece.holes (restriction (ts.map (Filter.predicateOf d))).pieces =
      (restriction (ts.map (Filter.predicateOf d))).params.length := by
  rw [params_restriction]
  simp only [restriction, Piece.holes_word_cons, Piece.holes_conjoined]
  induction ts with
  | nil => rfl
  | cons t ts ih =>
      rw [List.map_cons, List.map_cons, List.flatten_cons, Piece.holes_append,
        Filter.holes_predicateOf, ih, List.flatMap_cons, List.length_append]

namespace Options

variable {o : Options}

/-- A filter without entries has no text; any other stands for its tests. -/
theorem buildWhere_cases {f : Filter} {w : Fragment} (h : (o.buildWhere f).result = .ok w) :
    (f.isEmpty = true ∧ w = .empty) ∨
      (f.isEmpty = false ∧ (∀ c ∈ f.columns, o.hasColumn c = true ∧ Name.Escapable c) ∧
        w = Predicate.restriction (f.tests.map (Filter.predicateOf o.dialect))) := by
  cases hf : f.isEmpty with
  | true =>
      simp only [buildWhere, hf, if_true] at h
      cases h
      exact Or.inl ⟨rfl, rfl⟩
  | false =>
      obtain ⟨hcolumns, hw, -, -⟩ := buildWhere_eq_ok hf h
      exact Or.inr ⟨rfl, hcolumns, hw⟩

theorem tidy_buildWhere {f : Filter} {w : Fragment} (h : (o.buildWhere f).result = .ok w)
    (hnames : ∀ c ∈ f.columns, o.hasColumn c = true → names c) :
    Piece.Tidy o.dialect names numbers w.pieces := by
  rcases buildWhere_cases h with ⟨-, rfl⟩ | ⟨-, hcolumns, rfl⟩
  · exact .nil
  · refine .word .where (.word .space (.conjoined ?_))
    intro part hpart
    rw [List.map_map] at hpart
    obtain ⟨t, ht, rfl⟩ := List.mem_map.mp hpart
    have hcolumn := Filter.column_mem_of_mem_tests ht
    exact Filter.tidy_predicateOf (hnames t.1 hcolumn (hcolumns t.1 hcolumn).1)

theorem holes_buildWhere {f : Filter} {w : Fragment} (h : (o.buildWhere f).result = .ok w) :
    Piece.holes w.pieces = w.params.length := by
  rcases buildWhere_cases h with ⟨-, rfl⟩ | ⟨-, -, rfl⟩
  · rfl
  · exact Predicate.holes_restriction o.dialect f.tests

/-! ## Orderings and pages -/

/-- The columns that ordering terms sort by. -/
def sortColumns (sorts : List SortTerm) : List String :=
  sorts.filterMap fun s =>
    match s.target with
    | .column c => some c
    | .trusted _ => none

theorem mem_sortColumns_iff {sorts : List SortTerm} {c : String} :
    c ∈ sortColumns sorts ↔ ∃ s ∈ sorts, s.target = .column c := by
  rw [sortColumns, List.mem_filterMap]
  refine exists_congr fun s => and_congr_right fun _ => ?_
  cases s.target <;> simp

theorem tidy_buildOrderBy {sorts : List SortTerm} {w : Fragment}
    (h : o.buildOrderBy sorts = .ok w) (hcolumns : ∀ s ∈ sorts, ∃ c, s.target = .column c)
    (hnames : ∀ c ∈ sortColumns sorts, o.hasColumn c = true → names c) :
    Piece.Tidy o.dialect names numbers w.pieces ∧ Piece.holes w.pieces = 0 := by
  obtain ⟨hadmitted, rfl⟩ := buildOrderBy_eq_ok_iff.mp h
  unfold Fragment.ordering
  split
  · exact ⟨.nil, rfl⟩
  · have hterms : ∀ term ∈ sorts.map (SortTerm.termPieces o.dialect),
        Piece.Tidy o.dialect names numbers term ∧ Piece.holes term = 0 := by
      intro term hterm
      obtain ⟨s, hs, rfl⟩ := List.mem_map.mp hterm
      obtain ⟨c, hc⟩ := hcolumns s hs
      have hname : names c :=
        hnames c (mem_sortColumns_iff.mpr ⟨s, hs, hc⟩) (hadmitted s hs c hc).1
      rw [SortTerm.termPieces, SortTerm.named, hc]
      exact ⟨.name hname .space (.word s.direction.word .nil), by simp⟩
    refine ⟨.word .orderBy (.word .space (.commaSeparated fun t ht => (hterms t ht).1)), ?_⟩
    rw [Piece.holes_word_cons, Piece.holes_word_cons, Piece.holes_commaSeparated]
    exact Piece.holes_flatten_eq_zero fun t ht => (hterms t ht).2

theorem tidy_buildPagination {p : Page} {ordered : Bool} {w : Fragment}
    (h : o.buildPagination p ordered = .ok w) (hsize : numbers p.size)
    (hoffset : numbers ((p.number - 1) * p.size)) :
    Piece.Tidy o.dialect names numbers w.pieces ∧ Piece.holes w.pieces = 0 := by
  obtain ⟨-, -, rfl⟩ := buildPagination_eq_ok_iff.mp h
  cases o.dialect.paginationStyle with
  | limitOffset =>
      exact ⟨.word _ (.word _ (.number hsize (.word _ (.word _ (.word _ (.number hoffset .nil)))))),
        rfl⟩
  | offsetFetch =>
      exact ⟨.word _ (.word _ (.number hoffset (.word _ (.word _ (.word _ (.word _ (.word _
        (.number hsize (.word _ (.word _ .nil)))))))))), rfl⟩

end Options

end BoundSql
