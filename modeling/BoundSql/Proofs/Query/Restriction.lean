import BoundSql.Proofs.Filter.Buildable
import BoundSql.Proofs.Query.Statement

/-!
# One restriction for all statements

A selection, a count, a deletion and an update with the same filter carry the same restriction,
character by character and value by value, and report what building it reports.  Each column of
the filter is tested in it, so a filter that restricts anything is neither dropped nor thinned
out on the way into a statement; where it cannot be built, no statement is.

An update needs a filter that restricts something.  The other statements are built without a
restriction if the filter is empty, and a deletion then concerns every row.
-/

namespace BoundSql

/-! ## Computations that go on -/

namespace Traced

variable {ε α β γ : Type}

theorem ofExcept_bind {x : Except ε α} {a : α} (h : x = .ok a) (f : α → Traced ε β) :
    ofExcept x >>= f = f a := by
  subst h
  rfl

/-- A computation that ends as another one does, up to a function of its result, and reports the
same events. -/
structure Continues (g : α → β) (x : Traced ε α) (y : Traced ε β) : Prop where
  result : y.result = x.result.map g
  events : y.events = x.events

/-- What follows a computation may log, and has to succeed where the computation does.  Where the
computation fails, nothing follows. -/
theorem Continues.bind {x : Traced ε α} {f : α → Traced ε β} {g : α → β}
    (h : ∀ a, x.result = .ok a → (f a).result = .ok (g a) ∧ (f a).events = []) :
    Continues g x (x >>= f) := by
  cases hx : x.result with
  | error e =>
      rw [bind_of_error f hx]
      refine ⟨?_, rfl⟩
      rw [hx]
      rfl
  | ok a =>
      obtain ⟨hresult, hevents⟩ := h a hx
      rw [bind_of_ok f hx]
      refine ⟨?_, ?_⟩
      · rw [hx]
        exact hresult
      · have hsilent : Note.events (f a).notes = [] := hevents
        show Note.events (x.notes ++ (f a).notes) = Note.events x.notes
        rw [Note.events_append, hsilent, List.append_nil]

theorem Continues.singleton {x : Traced ε α} {y : Traced ε β} {g : α → β} (h : Continues g x y) :
    Continues (fun a => [g a]) x (do return [← y]) := by
  have hlist : Continues (fun b => [b]) y (do return [← y]) := .bind fun b _ => ⟨rfl, rfl⟩
  refine ⟨?_, hlist.events.trans h.events⟩
  rw [hlist.result, h.result]
  cases x.result <;> rfl

end Traced

/-! ## Frames -/

/-- The text of pieces. -/
def Piece.text (ps : List Piece) : String := String.ofList (ps.flatMap Piece.chars)

theorem Piece.text_append (ps qs : List Piece) : text (ps ++ qs) = text ps ++ text qs := by
  apply String.ext
  simp [text]

theorem Piece.text_intercalate (sep : List Piece) (parts : List (List Piece)) :
    text (sep.intercalate parts) = String.intercalate (text sep) (parts.map text) := by
  apply String.ext
  rw [String.toList_intercalate, List.map_map, text, String.toList_ofList, flatMap_intercalate]
  simp [text, Function.comp_def]

/-- What surrounds the restriction of a statement: the pieces on both sides of it, and the values
that are bound before its own. -/
structure Frame where
  opening : List Piece
  closing : List Piece
  values : List Value

namespace Frame

/-- The statement with a restriction in the frame; one without text leaves no gap. -/
def fill (fr : Frame) (w : Fragment) : Fragment where
  pieces := fr.opening ++ ((if w.isEmpty then [] else .word .space :: w.pieces) ++ fr.closing)
  params := fr.values ++ w.params

/-- The statement with the frame only. -/
def bare (fr : Frame) : Fragment := ⟨fr.opening ++ fr.closing, fr.values⟩

theorem fill_empty (fr : Frame) : fr.fill .empty = fr.bare := by
  have hempty : Fragment.empty.isEmpty = true := rfl
  simp only [fill, bare, hempty, if_true, List.nil_append]
  rw [Fragment.empty, List.append_nil]

theorem sql_fill (fr : Frame) {w : Fragment} (h : w.isEmpty = false) :
    (fr.fill w).sql = Piece.text fr.opening ++ " " ++ w.sql ++ Piece.text fr.closing := by
  apply String.ext
  simp [fill, h, Fragment.sql, Fragment.chars, Piece.text, Piece.chars, Word.chars, Word.text]

/-- Nothing in the frame restricts the statement. -/
structure Unrestricted (fr : Frame) : Prop where
  opening : .word .where ∉ fr.opening
  closing : .word .where ∉ fr.closing

end Frame

/-- Clauses, each behind a space. -/
def Fragment.following (clauses : List Fragment) : List Piece :=
  clauses.flatMap fun c => .word .space :: c.pieces

theorem Piece.spaced_cons_append (part : List Piece) (parts others : List (List Piece)) :
    spaced (part :: parts ++ others) =
      spaced (part :: parts) ++ others.flatMap fun other => .word .space :: other := by
  unfold spaced
  rw [List.cons_append, intercalate_cons, intercalate_cons, List.flatMap_append, List.append_assoc]
  rfl

theorem Piece.spaced_concat (part : List Piece) (parts : List (List Piece)) (last : List Piece) :
    spaced (part :: parts ++ [last]) = spaced (part :: parts) ++ .word .space :: last := by
  rw [spaced_cons_append, List.flatMap_singleton]

namespace Statement

/-- The filter of a statement that can have one. -/
def filter? : Statement → Option Filter
  | .select q | .count q => some q.filter
  | .update q => some q.filter
  | .delete q => some q.filter
  | .insert _ | .insertMany _ => none

/-- Apart from its filter a statement is valid under options; it puts a restriction into a
frame. -/
inductive Framed (o : Options) : Statement → Frame → Prop where
  | select {q : SelectQuery} {ordering : Fragment} {paging : Option Fragment}
      (selected : ∀ c ∈ q.columns, o.hasColumn c = true ∧ Name.Escapable c)
      (orders : o.buildOrderBy q.sorts = .ok ordering)
      (pages : q.pagination o (!ordering.isEmpty) = .ok paging) :
      Framed o (.select q)
        { opening := Piece.spaced [[.word .select], SelectQuery.selected o.dialect q.columns,
            [.word .from], [.name (.ofText o.dialect o.table)]]
          closing := Fragment.following ([ordering].filter (fun c => !c.isEmpty) ++ paging.toList)
          values := [] }
  | count (q : SelectQuery) :
      Framed o (.count q)
        { opening := Piece.spaced [[.word .select],
            .word .count :: Piece.parenthesised [.word .star], [.word .from],
            [.name (.ofText o.dialect o.table)]]
          closing := []
          values := [] }
  | update {q : UpdateQuery} (assigns : q.assignments ≠ [])
      (distinct : (q.assignments.map Prod.fst).Nodup)
      (assigned : ∀ c ∈ q.assignments.map Prod.fst, o.hasColumn c = true ∧ Name.Escapable c) :
      Framed o (.update q)
        { opening := Piece.spaced [[.word .update], [.name (.ofText o.dialect o.table)],
            [.word .set], Piece.commaSeparated ((q.assignments.map Prod.fst).map fun c =>
              UpdateQuery.assignment (.ofText o.dialect c))]
          closing := []
          values := q.assignments.map Prod.snd }
  | delete (q : DeleteQuery) :
      Framed o (.delete q)
        { opening := Piece.spaced [[.word .deleteFrom], [.name (.ofText o.dialect o.table)]]
          closing := []
          values := [] }

end Statement

/-! ## Filling a frame -/

/-- A clause stands behind the others if it has text. -/
theorem Fragment.following_singleton (w : Fragment) :
    following ([w].filter fun c => !c.isEmpty) =
      if w.isEmpty then [] else .word .space :: w.pieces := by
  cases h : w.isEmpty <;> simp [following, h]

theorem Fragment.following_filter (w : Fragment) (clauses : List Fragment) :
    following ([w].filter (fun c => !c.isEmpty) ++ clauses) =
      (if w.isEmpty then [] else .word .space :: w.pieces) ++ following clauses := by
  rw [← following_singleton]
  exact List.flatMap_append

theorem Fragment.spaced_following (part : List Piece) (parts : List (List Piece))
    (clauses : List Fragment) :
    Piece.spaced (part :: parts ++ clauses.map pieces) =
      Piece.spaced (part :: parts) ++ following clauses := by
  rw [Piece.spaced_cons_append, List.flatMap_map]
  rfl

/-! ## The text of a restriction -/

theorem Predicate.sql_restriction (d : Dialect) (ts : List (String × Test)) :
    (restriction (ts.map (Filter.predicateOf d))).sql = "WHERE " ++ String.intercalate " AND "
      (ts.map fun t => (Filter.predicateOf d t).fragment.sql) := by
  show Piece.text ([.word .where, .word .space] ++ Piece.conjoined _) = _
  rw [Piece.text_append, Piece.conjoined, Piece.text_intercalate, List.map_map, List.map_map]
  rfl

namespace Options

variable {o : Options} {f : Filter} {w : Fragment}

/-- A restriction tests every column of its filter. -/
theorem exists_test_of_buildWhere (h : (o.buildWhere f).result = .ok w) :
    ∀ c ∈ f.columns, ∃ t ∈ f.tests, t.1 = c := by
  obtain ⟨ps, hps, -⟩ := buildWhere_eq_ok_iff.mp h
  obtain ⟨hentries, -⟩ := Filter.predicates_eq_ok_iff.mp hps
  intro c hc
  obtain ⟨entry, hentry, rfl⟩ := List.mem_map.mp hc
  have hne : entry.2.tests ≠ [] := (hentries entry hentry).wellFormed.tests_ne_nil
  obtain ⟨test, htest⟩ := List.exists_mem_of_ne_nil _ hne
  exact ⟨(entry.1, test), List.mem_flatMap.mpr ⟨entry, hentry, List.mem_map_of_mem htest⟩, rfl⟩

theorem buildWhere_of_isEmpty (hf : f.isEmpty = true) : o.buildWhere f = pure .empty := by
  rw [buildWhere, if_pos hf]

theorem isEmpty_of_buildWhere (hf : f.isEmpty = false) (h : (o.buildWhere f).result = .ok w) :
    w.isEmpty = false := by
  obtain ⟨-, rfl, -⟩ := buildWhere_eq_ok hf h
  rfl

/-- The text of a restriction is the conjunction of its tests. -/
theorem sql_buildWhere (hf : f.isEmpty = false) (h : (o.buildWhere f).result = .ok w) :
    w.sql = "WHERE " ++ String.intercalate " AND "
      (f.tests.map fun t => (Filter.predicateOf o.dialect t).fragment.sql) := by
  obtain ⟨-, rfl, -⟩ := buildWhere_eq_ok hf h
  exact Predicate.sql_restriction o.dialect f.tests

end Options

/-! ## Clauses that restrict nothing -/

theorem notMem_intercalate {α : Type} {a : α} {sep : List α} {parts : List (List α)}
    (hsep : a ∉ sep) (h : ∀ part ∈ parts, a ∉ part) : a ∉ sep.intercalate parts := by
  intro hmem
  rcases mem_of_mem_intercalate hmem with hmem | ⟨part, hpart, hmem⟩
  · exact hsep hmem
  · exact h part hpart hmem

/-- An ordering has no words but its own, its signs and the directions. -/
theorem Fragment.word_notMem_ordering {w : Word} (hw : w ∉ [.orderBy, .space, .comma, .asc, .desc])
    (d : Dialect) (sorts : List SortTerm) : .word w ∉ (ordering d sorts).pieces := by
  unfold ordering
  split
  · exact List.not_mem_nil
  · have hterms : .word w ∉ Piece.commaSeparated (sorts.map (SortTerm.termPieces d)) := by
      refine notMem_intercalate (by simp_all) fun term hterm => ?_
      obtain ⟨s, -, rfl⟩ := List.mem_map.mp hterm
      cases hdirection : s.direction <;> simp_all [SortTerm.termPieces, Direction.word]
    simp_all

namespace Options

variable {o : Options}

theorem where_notMem_buildOrderBy {sorts : List SortTerm} {w : Fragment}
    (h : o.buildOrderBy sorts = .ok w) : .word .where ∉ w.pieces := by
  obtain ⟨-, rfl⟩ := buildOrderBy_eq_ok_iff.mp h
  exact Fragment.word_notMem_ordering (by decide) _ _

theorem where_notMem_buildPagination {p : Page} {ordered : Bool} {w : Fragment}
    (h : o.buildPagination p ordered = .ok w) : .word .where ∉ w.pieces := by
  obtain ⟨-, -, rfl⟩ := buildPagination_eq_ok_iff.mp h
  cases o.dialect.paginationStyle <;>
    simp [PaginationStyle.pieces, Window.limitOffset, Window.offsetFetch]

end Options

theorem Fragment.where_notMem_following {clauses : List Fragment}
    (h : ∀ c ∈ clauses, .word .where ∉ c.pieces) : .word .where ∉ following clauses := by
  intro hmem
  obtain ⟨c, hc, hmem⟩ := List.mem_flatMap.mp hmem
  rcases List.mem_cons.mp hmem with hmem | hmem
  · cases hmem
  · exact h c hc hmem

/-- A selection has no words but the signs that separate or stand for columns. -/
theorem SelectQuery.word_notMem_selected {w : Word} (hw : w ∉ [.star, .comma, .space])
    (d : Dialect) (columns : List String) : .word w ∉ selected d columns := by
  unfold selected
  split
  · simp_all
  · refine notMem_intercalate (by simp_all) fun part hpart => ?_
    obtain ⟨c, -, rfl⟩ := List.mem_map.mp hpart
    simp

namespace Statement

variable {o : Options} {s : Statement} {fr : Frame} {f : Filter}

theorem Framed.unrestricted (h : s.Framed o fr) : fr.Unrestricted := by
  have hspaced {parts : List (List Piece)} (hparts : ∀ part ∈ parts, .word .where ∉ part) :
      .word .where ∉ Piece.spaced parts := notMem_intercalate (by decide) hparts
  cases h with
  | @select q ordering paging selected orders pages =>
      refine ⟨hspaced ?_, Fragment.where_notMem_following ?_⟩
      · simpa using SelectQuery.word_notMem_selected (by decide) o.dialect q.columns
      · intro c hc
        rcases List.mem_append.mp hc with hc | hc
        · rw [List.mem_singleton.mp (List.mem_filter.mp hc).1]
          exact Options.where_notMem_buildOrderBy orders
        · unfold SelectQuery.pagination at pages
          split at pages
          · cases pages
            exact absurd hc List.not_mem_nil
          · obtain ⟨w, hw, rfl⟩ := map_eq_ok_iff.mp pages
            rw [List.mem_singleton.mp hc]
            exact Options.where_notMem_buildPagination hw
  | count q => exact ⟨hspaced (by simp [Piece.parenthesised]), List.not_mem_nil⟩
  | @update q assigns distinct assigned =>
      refine ⟨hspaced ?_, List.not_mem_nil⟩
      have hassigned : .word .where ∉ Piece.commaSeparated
          ((q.assignments.map Prod.fst).map fun c =>
            UpdateQuery.assignment (.ofText o.dialect c)) := by
        refine notMem_intercalate (by decide) fun part hpart => ?_
        obtain ⟨c, -, rfl⟩ := List.mem_map.mp hpart
        simp [UpdateQuery.assignment]
      simpa using hassigned
  | delete q => exact ⟨hspaced (by simp), List.not_mem_nil⟩

/-! ## Statements with a restriction -/

/-- A statement that is valid apart from its filter ends as building its restriction does, and
puts the restriction into the frame. -/
theorem Framed.continues (htable : Name.Escapable o.table) (h : s.Framed o fr)
    (hf : s.filter? = some f) (hupdate : ∀ q, s = .update q → f.isEmpty = false) :
    Traced.Continues (fun w => [fr.fill w]) (o.buildWhere f) (s.build o) := by
  have hname : o.tableName = .ok (.ofText o.dialect o.table) :=
    Options.tableName_eq_ok_iff.mpr ⟨htable, rfl⟩
  cases h with
  | @select q ordering paging selected orders pages =>
      cases hf
      have hselection : SelectQuery.selection o q.columns =
          .ok (SelectQuery.selected o.dialect q.columns) :=
        SelectQuery.selection_eq_ok_iff.mpr ⟨selected, rfl⟩
      refine Traced.Continues.singleton ?_
      rw [SelectQuery.build, Traced.ofExcept_bind hname, Traced.ofExcept_bind hselection]
      refine .bind fun w _ => ?_
      rw [Traced.ofExcept_bind orders, Traced.ofExcept_bind pages]
      refine ⟨congrArg Except.ok ?_, rfl⟩
      -- the ordering and the page stand behind the restriction whether it has text or not
      have hclauses : [w, ordering].filter (fun c => !c.isEmpty) ++ paging.toList =
          [w].filter (fun c => !c.isEmpty) ++
            ([ordering].filter (fun c => !c.isEmpty) ++ paging.toList) := by
        rw [← List.append_assoc, ← List.filter_append]
        rfl
      rw [hclauses]
      simp only [Frame.fill, Fragment.mk.injEq, List.nil_append, and_true]
      rw [Fragment.spaced_following, Fragment.following_filter]
  | count q =>
      cases hf
      refine Traced.Continues.singleton ?_
      rw [SelectQuery.buildCount, Traced.ofExcept_bind hname]
      refine .bind fun w _ => ⟨congrArg Except.ok ?_, rfl⟩
      simp only [Frame.fill, Fragment.mk.injEq, List.nil_append, and_true]
      rw [Fragment.spaced_following, Fragment.following_singleton, List.append_nil]
  | @update q assigns distinct assigned =>
      cases hf
      have hfilled : q.filter.isEmpty = false := hupdate q rfl
      have hnames : UpdateQuery.assignedNames o [] (q.assignments.map Prod.fst) =
          .ok ((q.assignments.map Prod.fst).map (Name.ofText o.dialect)) :=
        UpdateQuery.assignedNames_eq_ok_iff.mpr
          ⟨distinct, fun _ _ => List.not_mem_nil, assigned, rfl⟩
      refine Traced.Continues.singleton ?_
      rw [UpdateQuery.build, if_neg (by simp [assigns, hfilled]), Traced.ofExcept_bind hname,
        Traced.ofExcept_bind hnames]
      refine .bind fun w hw => ⟨congrArg Except.ok ?_, rfl⟩
      -- the restriction of an update always has text
      simp only [Frame.fill, Options.isEmpty_of_buildWhere hfilled hw, Bool.false_eq_true, if_false,
        Fragment.mk.injEq, and_true, List.append_nil]
      rw [List.map_map]
      exact Piece.spaced_concat [.word .update]
        [[.name (.ofText o.dialect o.table)], [.word .set], _] w.pieces
  | delete q =>
      cases hf
      refine Traced.Continues.singleton ?_
      rw [DeleteQuery.build, Traced.ofExcept_bind hname]
      refine .bind fun w _ => ⟨congrArg Except.ok ?_, rfl⟩
      simp only [Frame.fill, Fragment.mk.injEq, List.nil_append, and_true]
      rw [Fragment.spaced_following, Fragment.following_singleton, List.append_nil]

/-- A statement that is built is valid apart from its filter. -/
theorem exists_framed_of_build (hf : s.filter? = some f) {fs : List Fragment}
    (h : (s.build o).result = .ok fs) : ∃ fr, s.Framed o fr := by
  cases s with
  | select q =>
      obtain ⟨g, hg, -⟩ := Traced.result_bind_eq_ok_iff.mp h
      obtain ⟨-, selected, _, ordering, paging, -, orders, pages, -⟩ :=
        SelectQuery.build_eq_ok_iff.mp hg
      exact ⟨_, .select selected orders pages⟩
  | count q => exact ⟨_, .count q⟩
  | update q =>
      obtain ⟨g, hg, -⟩ := Traced.result_bind_eq_ok_iff.mp h
      unfold UpdateQuery.build at hg
      split at hg
      · cases hg
      · rename_i hfilled
        simp only [Traced.result_bind_eq_ok_iff, Traced.ofExcept_result] at hg
        obtain ⟨_, -, _, hnames, -⟩ := hg
        obtain ⟨distinct, -, assigned, -⟩ := UpdateQuery.assignedNames_eq_ok_iff.mp hnames
        refine ⟨_, .update ?_ distinct assigned⟩
        simpa using fun hnil => hfilled (Or.inl hnil)
  | delete q => exact ⟨_, .delete q⟩
  | insert q | insertMany b => cases hf

/-- How the restriction of a filter gets into a statement. -/
structure CarriesRestriction (o : Options) (s : Statement) (f : Filter) : Prop where
  /-- A restriction has text, and tests every column of the filter. -/
  tested : f.isEmpty = false → ∀ w, (o.buildWhere f).result = .ok w →
    w.sql = "WHERE " ++ String.intercalate " AND "
        (f.tests.map fun t => (Filter.predicateOf o.dialect t).fragment.sql) ∧
      ∀ c ∈ f.columns, ∃ t ∈ f.tests, t.1 = c
  /-- A statement that is otherwise valid has the restriction, with its values behind all
  others, and has no other one. -/
  carried : f.isEmpty = false → ∀ fr w, s.Framed o fr → (o.buildWhere f).result = .ok w →
    fr.Unrestricted ∧ ∃ g, (s.build o).result = .ok [g] ∧
      g.sql = Piece.text fr.opening ++ " " ++ w.sql ++ Piece.text fr.closing ∧
      g.params = fr.values ++ w.params ∧
      (s.build o).events = (o.buildWhere f).events
  /-- It fails as the restriction does. -/
  refused : ∀ fr e, s.Framed o fr → (o.buildWhere f).result = .error e →
    (s.build o).result = .error e ∧ (s.build o).events = (o.buildWhere f).events
  /-- An update without a restriction is refused whatever it assigns. -/
  required : f.isEmpty = true → ∀ q, s = .update q → q.build o = .fail .emptyUpdateClause
  /-- Any other statement is built without one. -/
  omitted : f.isEmpty = true → (∀ q, s ≠ .update q) → ∀ fr, s.Framed o fr →
    fr.Unrestricted ∧ fr.values = [] ∧ (s.build o).result = .ok [fr.bare]
  /-- A statement that is built has been valid otherwise, and its filter has been compiled. -/
  exhaustive : ∀ fs, (s.build o).result = .ok fs →
    ∃ fr w, s.Framed o fr ∧ (o.buildWhere f).result = .ok w ∧ fs = [fr.fill w]

theorem build_update_of_isEmpty {q : UpdateQuery} (h : q.filter.isEmpty = true) :
    q.build o = .fail .emptyUpdateClause := by
  rw [UpdateQuery.build, if_pos (Or.inr h)]

/-- Only an update has values of its own. -/
theorem Framed.values_eq_nil (h : s.Framed o fr) (hupdate : ∀ q, s ≠ .update q) :
    fr.values = [] := by
  cases h with
  | update => exact absurd rfl (hupdate _)
  | select | count | delete => rfl

/-- A restricted update has a filter that is not empty, as it is not built with any other. -/
theorem filter_ne_empty_of_build {fs : List Fragment} (hf : s.filter? = some f)
    (h : (s.build o).result = .ok fs) : ∀ q, s = .update q → f.isEmpty = false := by
  rintro q rfl
  cases hf
  rw [← Bool.not_eq_true]
  intro hempty
  obtain ⟨g, hg, -⟩ := Traced.result_bind_eq_ok_iff.mp h
  rw [build_update_of_isEmpty hempty] at hg
  cases hg

/-- Each statement with a filter carries the restriction that the filter builds. -/
theorem carriesRestriction (htable : Name.Escapable o.table) (hf : s.filter? = some f) :
    s.CarriesRestriction o f where
  tested hfilled w hw :=
    ⟨Options.sql_buildWhere hfilled hw, Options.exists_test_of_buildWhere hw⟩
  carried hfilled fr w hframed hw := by
    have hbuild := hframed.continues htable hf fun _ _ => hfilled
    refine ⟨hframed.unrestricted, fr.fill w, ?_, ?_, rfl, hbuild.events⟩
    · rw [hbuild.result, hw]
      rfl
    · exact fr.sql_fill (Options.isEmpty_of_buildWhere hfilled hw)
  refused fr e hframed hw := by
    have hfilled : f.isEmpty = false := by
      rw [← Bool.not_eq_true]
      intro hempty
      rw [Options.buildWhere_of_isEmpty hempty] at hw
      cases hw
    have hbuild := hframed.continues htable hf fun _ _ => hfilled
    refine ⟨?_, hbuild.events⟩
    rw [hbuild.result, hw]
    rfl
  required hempty q hq := by
    subst hq
    cases hf
    exact build_update_of_isEmpty hempty
  omitted hempty hupdate fr hframed := by
    have hbuild := hframed.continues htable hf fun q hq => absurd hq (hupdate q)
    refine ⟨hframed.unrestricted, hframed.values_eq_nil hupdate, ?_⟩
    rw [hbuild.result, Options.buildWhere_of_isEmpty hempty, ← fr.fill_empty]
    rfl
  exhaustive fs h := by
    obtain ⟨fr, hframed⟩ := exists_framed_of_build hf h
    have hbuild := hframed.continues htable hf (filter_ne_empty_of_build hf h)
    rw [hbuild.result] at h
    obtain ⟨w, hw, rfl⟩ := map_eq_ok_iff.mp h
    exact ⟨fr, w, hframed, hw, rfl⟩

/-- An update whose filter compares with null. -/
def restrictedUpdate : UpdateQuery :=
  ⟨[("a", .integer 1)], ⟨[("b", .value .null), ("a", .ops [(.ge, .value (.integer 2))])]⟩⟩

theorem carriesRestriction_restrictedUpdate :
    Name.Escapable "t" ∧ ∃ g,
      ((update restrictedUpdate).build (.defaults .sqlite "t" ["a", "b"])).result = .ok [g] ∧
      g.sql = "UPDATE \"t\" SET \"a\" = ? WHERE \"b\" IS NULL AND \"a\" >= ?" ∧
      g.params = [.integer 1, .integer 2] ∧
      ((update restrictedUpdate).build (.defaults .sqlite "t" ["a", "b"])).events =
        [.nullComparison "b" "eq" "nu"] := by
  have htable : Name.Escapable "t" := by decide
  obtain ⟨-, hcarried, -, -, -, hbuilt⟩ := carriesRestriction
    (o := .defaults .sqlite "t" ["a", "b"]) (s := .update restrictedUpdate) htable rfl
  obtain ⟨fr, w, hframed, hw, -⟩ := hbuilt _ rfl
  obtain ⟨-, g, hg, -, -, hevents⟩ := hcarried rfl fr w hframed hw
  cases hg
  exact ⟨htable, _, rfl, by decide +kernel, rfl, hevents.trans rfl⟩

end Statement

end BoundSql
