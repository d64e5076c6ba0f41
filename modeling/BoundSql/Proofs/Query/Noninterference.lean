import BoundSql.Proofs.Query.LexicalSafety
import BoundSql.Proofs.Trace.Agreement

/-!
# Bound values do not reach the text

Two requests of the same shape are built into the same text, or refused for the same
reason, and report the same events; a placeholder is bound to the value that stands at the
same place of either request.  The shape of a request is everything but its values.  Of
the values of a filter it keeps which are null and which are the empty text, since an
operator may ask for that much; of the values that are stored it keeps nothing.

The log shows bound values, so nothing is said about log entries.
-/

namespace BoundSql

/-! ## Shapes -/

/-- Values that no operator tells apart. -/
structure Value.Alike (v w : Value) : Prop where
  isNull : v.isNull = w.isNull
  isBlank : v.isBlank = w.isBlank

/-- Operands that differ in values that no operator tells apart. -/
inductive Operand.SameShape : Operand → Operand → Prop where
  | value {v w : Value} (h : v.Alike w) : SameShape (.value v) (.value w)
  | list {vs ws : List Value} (h : List.Forall₂ Value.Alike vs ws) : SameShape (.list vs) (.list ws)

/-- The same operators in the same order, with operands of the same shape. -/
def Condition.SameShape (c d : Condition) : Prop :=
  List.Forall₂ (fun a b => a.1 = b.1 ∧ a.2.SameShape b.2) c.toOps d.toOps

/-- The same columns in the same order, with conditions of the same shape. -/
def Filter.SameShape (f g : Filter) : Prop :=
  List.Forall₂ (fun a b => a.1 = b.1 ∧ a.2.SameShape b.2) f.entries g.entries

/-- Rows that agree position by position in their numbers of values. -/
abbrev SameWidths (rows rows' : List (List Value)) : Prop :=
  List.Forall₂ (fun row row' => row.length = row'.length) rows rows'

/-- Requests of one kind that differ in their values only. -/
inductive Statement.SameShape : Statement → Statement → Prop where
  | select {q r : SelectQuery} (columns : q.columns = r.columns)
      (filter : q.filter.SameShape r.filter) (sorts : q.sorts = r.sorts) (page : q.page = r.page) :
      SameShape (.select q) (.select r)
  | count {q r : SelectQuery} (filter : q.filter.SameShape r.filter) :
      SameShape (.count q) (.count r)
  | update {q r : UpdateQuery}
      (columns : q.assignments.map Prod.fst = r.assignments.map Prod.fst)
      (filter : q.filter.SameShape r.filter) : SameShape (.update q) (.update r)
  | delete {q r : DeleteQuery} (filter : q.filter.SameShape r.filter) :
      SameShape (.delete q) (.delete r)
  | insert {q r : InsertQuery} (columns : q.columns = r.columns) :
      SameShape (.insert q) (.insert r)
  | insertMany {b c : BulkInsert} (columns : b.columns = c.columns)
      (widths : SameWidths b.rows c.rows) :
      SameShape (.insertMany b) (.insertMany c)

/-! ## Places of values -/

def Operand.values : Operand → List Value
  | .value v => [v]
  | .list vs => vs

def Condition.values (c : Condition) : List Value := c.toOps.flatMap fun entry => entry.2.values

def Filter.values (f : Filter) : List Value := f.entries.flatMap fun entry => entry.2.values

/-- The values of a request, in the order in which it holds them. -/
def Statement.values : Statement → List Value
  | .select q | .count q => q.filter.values
  | .update q => q.assignments.map Prod.snd ++ q.filter.values
  | .delete q => q.filter.values
  | .insert q => q.values
  | .insertMany b => b.rows.flatten

/-- Two lists of parameters hold the values at the same places of two lists of values: paired
up, they are some of the pairs of values, in order. -/
structure SamePlaces (vs ws ps qs : List Value) : Prop where
  length_values : vs.length = ws.length
  length_params : ps.length = qs.length
  sublist : (ps.zip qs).Sublist (vs.zip ws)

namespace SamePlaces

variable {vs ws vs' ws' ps qs ps' qs' : List Value}

theorem none (h : vs.length = ws.length) : SamePlaces vs ws [] [] :=
  ⟨h, rfl, List.nil_sublist _⟩

theorem all (h : vs.length = ws.length) : SamePlaces vs ws vs ws := ⟨h, h, .refl _⟩

theorem append (h : SamePlaces vs ws ps qs) (h' : SamePlaces vs' ws' ps' qs') :
    SamePlaces (vs ++ vs') (ws ++ ws') (ps ++ ps') (qs ++ qs') where
  length_values := by simp only [List.length_append, h.length_values, h'.length_values]
  length_params := by simp only [List.length_append, h.length_params, h'.length_params]
  sublist := by
    rw [List.zip_append h.length_params, List.zip_append h.length_values]
    exact h.sublist.append h'.sublist

/-- Parameters that hold the values at the same places do so in every part. -/
theorem of_append (h : SamePlaces vs ws (ps ++ ps') (qs ++ qs')) (hlen : ps.length = qs.length) :
    SamePlaces vs ws ps qs ∧ SamePlaces vs ws ps' qs' := by
  have hlen' : ps'.length = qs'.length := by
    have hboth := h.length_params
    rw [List.length_append, List.length_append] at hboth
    omega
  have hsub := h.sublist
  rw [List.zip_append hlen] at hsub
  exact ⟨⟨h.length_values, hlen, (List.sublist_append_left _ _).trans hsub⟩,
    ⟨h.length_values, hlen', (List.sublist_append_right _ _).trans hsub⟩⟩

end SamePlaces

/-- Fragments with the same text that are bound to values at the same places. -/
structure Fragment.Parallel (vs ws : List Value) (f g : Fragment) : Prop where
  sql : f.sql = g.sql
  params : SamePlaces vs ws f.params g.params

/-- Predicates with the same texts that bind values at the same places. -/
structure Predicate.Parallel (vs ws : List Value) (ps qs : List Predicate) : Prop where
  pieces : ps.map pieces = qs.map pieces
  params : SamePlaces vs ws (ps.flatMap params) (qs.flatMap params)

theorem Predicate.Parallel.append {vs ws vs' ws' : List Value} {ps qs ps' qs' : List Predicate}
    (h : Parallel vs ws ps qs) (h' : Parallel vs' ws' ps' qs') :
    Parallel (vs ++ vs') (ws ++ ws') (ps ++ ps') (qs ++ qs') where
  pieces := by rw [List.map_append, List.map_append, h.pieces, h'.pieces]
  params := by
    rw [List.flatMap_append, List.flatMap_append]
    exact h.params.append h'.params

/-! ## Restrictions -/

theorem Value.Alike.eq_null_iff {v w : Value} (h : v.Alike w) : v = .null ↔ w = .null := by
  rw [← Value.isNull_iff, ← Value.isNull_iff, h.isNull]

theorem any_isNull_of_alike {vs ws : List Value} (h : List.Forall₂ Value.Alike vs ws) :
    vs.any Value.isNull = ws.any Value.isNull := by
  induction h with
  | nil => rfl
  | cons hvw _ ih => rw [List.any_cons, List.any_cons, hvw.isNull, ih]

theorem Operand.SameShape.length_values {a b : Operand} (h : a.SameShape b) :
    a.values.length = b.values.length := by
  cases h with
  | value h => rfl
  | list h => exact h.length_eq

namespace Condition

variable {column : String} {n : Name}

/-- Comparisons with different values have the same texts. -/
theorem parallel_map_compare {op : Operator} {vs ws : List Value} (h : vs.length = ws.length) :
    Predicate.Parallel vs ws (vs.map (.compare n op)) (ws.map (.compare n op)) where
  pieces := by
    have hpieces (us : List Value) : (us.map (Predicate.compare n op)).map Predicate.pieces =
        List.replicate us.length
          [.name n, .word .space, .word op.word, .word .space, .placeholder] := by
      rw [List.map_map, ← List.map_const']
      rfl
    rw [hpieces, hpieces, h]
  params := by
    have hparams (us : List Value) :
        (us.map (Predicate.compare n op)).flatMap Predicate.params = us := by
      induction us with
      | nil => rfl
      | cons u us ih =>
          rw [List.map_cons, List.flatMap_cons, ih]
          rfl
    rw [hparams, hparams]
    exact .all h

theorem parallel_nullCheck (isNull : Bool) {vs ws : List Value} (h : vs.length = ws.length) :
    Predicate.Parallel vs ws [.nullCheck n isNull] [.nullCheck n isNull] := ⟨rfl, .none h⟩

theorem agree_compileOp_value (op : Operator) {v w : Value} (h : v.Alike w) :
    Traced.Agree (Predicate.Parallel [v] [w])
      (compileOp column n op (.value v)) (compileOp column n op (.value w)) := by
  by_cases hv : v = .null
  -- null against null: both are refused, or both become the same check
  · obtain rfl : w = .null := h.eq_null_iff.mp hv
    subst hv
    cases hcounterpart : op.nullCounterpart? with
    | none =>
        simp only [compileOp, hcounterpart]
        exact .fail _
    | some counterpart =>
        simp only [compileOp, hcounterpart]
        refine .bind_same _ fun _ => ?_
        refine .bind_same _ fun _ => ?_
        exact .pure (parallel_nullCheck _ rfl)
  · have hw : w ≠ .null := fun hw => hv (h.eq_null_iff.mpr hw)
    rw [compileOp_value column n op hv, compileOp_value column n op hw]
    cases op.arity with
    | blank =>
        simp only [h.isBlank]
        split
        · exact .pure (parallel_nullCheck _ rfl)
        · exact .fail _
    | scalar | scalarOrList => exact .pure ⟨rfl, .all rfl⟩

theorem agree_compileOp_list (op : Operator) {vs ws : List Value}
    (h : List.Forall₂ Value.Alike vs ws) :
    Traced.Agree (Predicate.Parallel vs ws)
      (compileOp column n op (.list vs)) (compileOp column n op (.list ws)) := by
  have hlen : vs.length = ws.length := h.length_eq
  have hempty : vs.isEmpty = ws.isEmpty := isEmpty_eq_of_forall₂ h
  cases harity : op.arity with
  | blank | scalar =>
      simp only [compileOp, harity]
      exact .fail _
  | scalarOrList =>
      simp only [compileOp, harity, hempty, any_isNull_of_alike h]
      split
      · exact .fail _
      split
      · exact .fail _
      split
      -- one test of membership; its text holds the length of the list
      · refine .pure ⟨?_, ?_⟩
        · simp only [List.map_cons, List.map_nil, Predicate.pieces, hlen]
        · simpa [Predicate.params] using SamePlaces.all hlen
      · exact .pure (parallel_map_compare hlen)

/-- Compiling an operator asks of its operand only what the shape keeps. -/
theorem agree_compileOp (op : Operator) {a b : Operand} (h : a.SameShape b) :
    Traced.Agree (Predicate.Parallel a.values b.values)
      (compileOp column n op a) (compileOp column n op b) := by
  cases h with
  | value hvalue => exact agree_compileOp_value op hvalue
  | list hlist => exact agree_compileOp_list op hlist

theorem agree_compileOps {entries entries' : List (Operator × Operand)}
    (h : List.Forall₂ (fun a b => a.1 = b.1 ∧ a.2.SameShape b.2) entries entries') :
    Traced.Agree
      (Predicate.Parallel (values (.ops entries)) (values (.ops entries')))
      (compileOps column n entries) (compileOps column n entries') := by
  induction h with
  | nil => exact .pure ⟨rfl, .none rfl⟩
  | @cons a b entries entries' hab _ ih =>
      obtain ⟨op, operand⟩ := a
      obtain ⟨op', operand'⟩ := b
      obtain ⟨rfl, hshape⟩ := hab
      refine (agree_compileOp op hshape).bind fun first first' hfirst => ?_
      exact ih.bind fun others others' hothers => .pure (hfirst.append hothers)

theorem agree_compile {c d : Condition} (h : c.SameShape d) :
    Traced.Agree (Predicate.Parallel c.values d.values)
      (c.compile column n) (d.compile column n) := by
  have hempty : c.toOps.isEmpty = d.toOps.isEmpty := isEmpty_eq_of_forall₂ h
  unfold compile
  rw [hempty]
  split
  · exact .fail _
  · exact agree_compileOps h

theorem SameShape.length_values {c d : Condition} (h : c.SameShape d) :
    c.values.length = d.values.length :=
  length_flatMap_eq_of_forall₂ h fun _ _ hab => hab.2.length_values

end Condition

namespace Filter

theorem SameShape.length_values {f g : Filter} (h : f.SameShape g) :
    f.values.length = g.values.length :=
  length_flatMap_eq_of_forall₂ h fun _ _ hab => hab.2.length_values

theorem SameShape.columns_eq {f g : Filter} (h : f.SameShape g) : f.columns = g.columns := by
  obtain ⟨entries⟩ := f
  obtain ⟨entries'⟩ := g
  change List.Forall₂ _ entries entries' at h
  show entries.map Prod.fst = entries'.map Prod.fst
  induction h with
  | nil => rfl
  | cons hab _ ih => rw [List.map_cons, List.map_cons, hab.1, ih]

theorem agree_compileEntries {entries entries' : List (String × Condition)}
    (h : List.Forall₂ (fun a b => a.1 = b.1 ∧ a.2.SameShape b.2) entries entries')
    (names : List Name) :
    Traced.Agree (Predicate.Parallel (values ⟨entries⟩) (values ⟨entries'⟩))
      (compileEntries (entries.zip names)) (compileEntries (entries'.zip names)) := by
  induction h generalizing names with
  | nil => exact .pure ⟨rfl, .none rfl⟩
  | @cons a b entries entries' hab hrest ih =>
      cases names with
      -- columns without a name are left out on both sides
      | nil =>
          exact .pure ⟨rfl, .none (SameShape.length_values (f := ⟨a :: entries⟩)
            (g := ⟨b :: entries'⟩) (.cons hab hrest))⟩
      | cons name names =>
          obtain ⟨column, c⟩ := a
          obtain ⟨column', d⟩ := b
          obtain ⟨rfl, hshape⟩ := hab
          refine (Condition.agree_compile hshape).bind fun first first' hfirst => ?_
          exact (ih names).bind fun others others' hothers => .pure (hfirst.append hothers)

end Filter

/-- Restrictions with the same pieces, bound to values at the same places. -/
theorem Options.agree_buildWhere (o : Options) {f g : Filter} (h : f.SameShape g) :
    Traced.Agree
      (fun w w' => w.pieces = w'.pieces ∧ SamePlaces f.values g.values w.params w'.params)
      (o.buildWhere f) (o.buildWhere g) := by
  have hempty : f.isEmpty = g.isEmpty := isEmpty_eq_of_forall₂ h
  unfold buildWhere
  rw [hempty]
  split
  · exact .pure ⟨rfl, .none h.length_values⟩
  · have hpredicates : Traced.Agree (Predicate.Parallel f.values g.values)
        (f.predicates o) (g.predicates o) := by
      unfold Filter.predicates
      rw [h.columns_eq]
      refine .bind_same _ fun names => ?_
      exact Filter.agree_compileEntries h names
    refine hpredicates.bind fun ps qs hps => .pure ⟨?_, hps.params⟩
    simp only [Predicate.restriction, hps.pieces]

/-! ## Statements -/

theorem Fragment.sql_eq_of_pieces {f g : Fragment} (h : f.pieces = g.pieces) : f.sql = g.sql := by
  unfold sql chars
  rw [h]

/-- Whether a clause has text depends on its pieces only. -/
theorem Fragment.pieces_filter (fs : List Fragment) :
    (fs.filter fun f => !f.isEmpty).map pieces =
      (fs.map pieces).filter fun ps => !(ps.flatMap Piece.chars).isEmpty := by
  rw [List.filter_map]
  rfl

section Builders

variable (o : Options)

theorem SelectQuery.agree_build {q r : SelectQuery} (hcolumns : q.columns = r.columns)
    (hfilter : q.filter.SameShape r.filter) (hsorts : q.sorts = r.sorts) (hpage : q.page = r.page) :
    Traced.Agree (Fragment.Parallel q.filter.values r.filter.values) (q.build o) (r.build o) := by
  unfold build pagination
  rw [hcolumns, hsorts, hpage]
  refine .bind_same _ fun table => ?_
  refine .bind_same _ fun selected => ?_
  refine (o.agree_buildWhere hfilter).bind fun w w' ⟨hpieces, hparams⟩ => ?_
  refine .bind_same _ fun ordering => ?_
  refine .bind_same _ fun paging => ?_
  refine .log_bind _ _ ?_
  refine .log_bind _ _ ?_
  refine .pure ⟨Fragment.sql_eq_of_pieces ?_, hparams⟩
  simp only [List.map_append, Fragment.pieces_filter, List.map_cons, hpieces]

theorem SelectQuery.agree_buildCount {q r : SelectQuery} (hfilter : q.filter.SameShape r.filter) :
    Traced.Agree (Fragment.Parallel q.filter.values r.filter.values)
      (q.buildCount o) (r.buildCount o) := by
  unfold buildCount
  refine .bind_same _ fun table => ?_
  refine (o.agree_buildWhere hfilter).bind fun w w' ⟨hpieces, hparams⟩ => ?_
  refine .log_bind _ _ ?_
  refine .pure ⟨Fragment.sql_eq_of_pieces ?_, hparams⟩
  simp only [Fragment.pieces_filter, List.map_cons, List.map_nil, hpieces]

theorem DeleteQuery.agree_build {q r : DeleteQuery} (hfilter : q.filter.SameShape r.filter) :
    Traced.Agree (Fragment.Parallel q.filter.values r.filter.values) (q.build o) (r.build o) := by
  unfold build
  refine .bind_same _ fun table => ?_
  refine (o.agree_buildWhere hfilter).bind fun w w' ⟨hpieces, hparams⟩ => ?_
  refine .log_bind _ _ ?_
  refine .log_bind _ _ ?_
  refine .pure ⟨Fragment.sql_eq_of_pieces ?_, hparams⟩
  simp only [Fragment.pieces_filter, List.map_cons, List.map_nil, hpieces]

/-- What an update assigns is bound without being looked at. -/
theorem UpdateQuery.agree_build {q r : UpdateQuery}
    (hcolumns : q.assignments.map Prod.fst = r.assignments.map Prod.fst)
    (hfilter : q.filter.SameShape r.filter) :
    Traced.Agree
      (Fragment.Parallel (q.assignments.map Prod.snd ++ q.filter.values)
        (r.assignments.map Prod.snd ++ r.filter.values))
      (q.build o) (r.build o) := by
  have hlen : q.assignments.length = r.assignments.length := by
    simpa only [List.length_map] using congrArg List.length hcolumns
  have hnone : q.assignments.isEmpty = r.assignments.isEmpty := by
    rw [Bool.eq_iff_iff, List.isEmpty_iff_length_eq_zero, List.isEmpty_iff_length_eq_zero, hlen]
  have hempty : q.filter.isEmpty = r.filter.isEmpty := isEmpty_eq_of_forall₂ hfilter
  have hassigned : SamePlaces (q.assignments.map Prod.snd) (r.assignments.map Prod.snd)
      (q.assignments.map Prod.snd) (r.assignments.map Prod.snd) := by
    apply SamePlaces.all
    rw [List.length_map, List.length_map, hlen]
  unfold build
  rw [hnone, hempty]
  split
  · exact .fail _
  · rw [hcolumns]
    refine .bind_same _ fun table => ?_
    refine .bind_same _ fun names => ?_
    refine (o.agree_buildWhere hfilter).bind fun w w' ⟨hpieces, hparams⟩ => ?_
    refine .log_bind _ _ ?_
    refine .log_bind _ _ ?_
    refine .pure ⟨Fragment.sql_eq_of_pieces ?_, hassigned.append hparams⟩
    simp only [hpieces]

theorem InsertQuery.agree_build {q r : InsertQuery} (hcolumns : q.columns = r.columns) :
    Traced.Agree (Fragment.Parallel q.values r.values) (q.build o) (r.build o) := by
  have hlen : q.values.length = r.values.length := by
    rw [← q.aligned, ← r.aligned, hcolumns]
  have hfragment : Agree (Fragment.Parallel q.values r.values) (q.fragment o) (r.fragment o) := by
    unfold fragment
    rw [hcolumns]
    split
    · exact .error _
    · refine .bind_same _ fun names => ?_
      refine .bind_same _ fun _ => ?_
      refine .bind_same _ fun pieces => ?_
      exact .ok ⟨rfl, .all hlen⟩
  unfold build
  refine (Traced.Agree.ofExcept hfragment).bind fun f g hfg => ?_
  refine .log_bind _ _ ?_
  refine .log_bind _ _ ?_
  exact .pure hfg

end Builders

/-! ## Inserts of many rows -/

namespace BulkInsert

theorem length_flatten_eq_of_sameWidths {rows rows' : List (List Value)}
    (h : SameWidths rows rows') :
    rows.flatten.length = rows'.flatten.length := by
  rw [List.flatten_eq_flatMap, List.flatten_eq_flatMap]
  exact length_flatMap_eq_of_forall₂ h fun _ _ hlen => hlen

theorem firstRagged?_eq_of_sameWidths {rows rows' : List (List Value)} (h : SameWidths rows rows')
    (width index : Nat) : firstRagged? width index rows = firstRagged? width index rows' := by
  induction h generalizing index with
  | nil => rfl
  | cons hlen _ ih =>
      unfold firstRagged?
      rw [hlen, ih]

/-- Groups of as many rows, whose values stand at the same places. -/
structure SameGroup (vs ws : List Value) (group group' : List (List Value)) : Prop where
  length_eq : group.length = group'.length
  values : SamePlaces vs ws group.flatten group'.flatten

/-- Where rows are cut depends on how many there are.  The rows that are left stand at the same
places, and so does what is cut off their front. -/
theorem groupsOnto_sameGroup {vs ws : List Value} (size bound : Nat)
    {rows rows' : List (List Value)} (h : SameWidths rows rows')
    (hrows : SamePlaces vs ws rows.flatten rows'.flatten)
    {done done' : List (List (List Value))} (hdone : List.Forall₂ (SameGroup vs ws) done done') :
    List.Forall₂ (SameGroup vs ws) (groupsOnto size bound rows done)
      (groupsOnto size bound rows' done') := by
  induction bound generalizing rows rows' done done' with
  | zero => exact List.rel_reverse hdone
  | succ bound ih =>
      cases h with
      | nil => exact List.rel_reverse hdone
      | @cons row row' rest rest' hlen hrest =>
          have hall : SameWidths (row :: rest) (row' :: rest') := .cons hlen hrest
          have htake := List.forall₂_take size hall
          have hdrop := List.forall₂_drop size hall
          rw [← List.take_append_drop size (row :: rest),
            ← List.take_append_drop size (row' :: rest'), List.flatten_append,
            List.flatten_append] at hrows
          obtain ⟨hfirst, hothers⟩ := hrows.of_append (length_flatten_eq_of_sameWidths htake)
          exact ih hdrop hothers (.cons ⟨htake.length_eq, hfirst⟩ hdone)

/-- Batches with the same text for the same range of rows, bound to values at the same places. -/
structure ParallelBatch (vs ws : List Value) (s t : InsertBatch) : Prop where
  fragment : s.fragment.Parallel vs ws t.fragment
  start : s.start = t.start
  stop : s.stop = t.stop

theorem agree_batch (o : Options) (names : List Name) (size index : Nat) {vs ws : List Value}
    {group group' : List (List Value)} (h : SameGroup vs ws group group') :
    Agree (ParallelBatch vs ws) (batch o names size index group)
      (batch o names size index group') := by
  unfold batch
  rw [h.length_eq]
  refine .bind_same _ fun pieces => ?_
  exact .ok ⟨⟨rfl, h.values⟩, rfl, rfl⟩

/-- Plans for as many rows, batch by batch with the same texts and ranges. -/
structure ParallelPlan (vs ws : List Value) (p q : InsertPlan) : Prop where
  statements : List.Forall₂ (ParallelBatch vs ws) p.statements q.statements
  totalRows : p.totalRows = q.totalRows

variable {b c : BulkInsert}

theorem agree_statements (o : Options) (hcolumns : b.columns = c.columns)
    (hrows : SameWidths b.rows c.rows) :
    Agree (ParallelPlan b.rows.flatten c.rows.flatten) (b.statements o) (c.statements o) := by
  have hempty : b.rows.isEmpty = c.rows.isEmpty := isEmpty_eq_of_forall₂ hrows
  have hlen : b.rows.length = c.rows.length := hrows.length_eq
  unfold statements
  rw [hcolumns, hempty]
  split
  · exact .error _
  refine .bind_same _ fun names => ?_
  rw [firstRagged?_eq_of_sameWidths hrows]
  split
  · exact .error _
  refine .bind_same _ fun size => ?_
  have hgroups : List.Forall₂ (SameGroup b.rows.flatten c.rows.flatten)
      (groups size b.rows) (groups size c.rows) := by
    unfold groups
    rw [hlen]
    exact groupsOnto_sameGroup size _ hrows
      (.all (length_flatten_eq_of_sameWidths hrows)) .nil
  have hbatches := forall₂_mapIdx hgroups (S := Agree (ParallelBatch _ _))
    fun index _ _ hgroup => agree_batch o names size index hgroup
  exact (Agree.mapM_id hbatches).bind fun ss ts hss => .ok ⟨hss, hlen⟩

theorem agree_plan (o : Options) (hcolumns : b.columns = c.columns)
    (hrows : SameWidths b.rows c.rows) :
    Traced.Agree (ParallelPlan b.rows.flatten c.rows.flatten) (b.plan o) (c.plan o) := by
  unfold plan
  refine (Traced.Agree.ofExcept (agree_statements o hcolumns hrows)).bind fun p q hpq => ?_
  refine .log_bind _ _ ?_
  rw [hpq.totalRows, hpq.statements.length_eq]
  refine .bind_same _ fun _ => ?_
  exact .pure hpq

end BulkInsert

/-! ## Requests -/

namespace Statement

/-- The ranges of input rows that the statements of a request carry.  Only an insert of many
rows has any. -/
def ranges (o : Options) : Statement → Except QueryError (List (Nat × Nat))
  | .insertMany b => (b.plan o).result.map fun p => p.statements.map fun s => (s.start, s.stop)
  | _ => .ok []

theorem agree_single {vs ws : List Value} {x y : Traced QueryError Fragment}
    (h : Traced.Agree (Fragment.Parallel vs ws) x y) :
    Traced.Agree (List.Forall₂ (Fragment.Parallel vs ws))
      (do return [← x]) (do return [← y]) :=
  h.bind fun _ _ hfg => .pure (.cons hfg .nil)

/-- Requests of the same shape are refused alike or built alike: text by text the same, with
parameters from the same places, for the same ranges of rows and with the same events. -/
theorem noninterference (o : Options) {s t : Statement} (h : s.SameShape t) :
    Traced.Agree (List.Forall₂ (Fragment.Parallel s.values t.values)) (s.build o) (t.build o) ∧
      s.ranges o = t.ranges o := by
  cases h with
  | select hcolumns hfilter hsorts hpage =>
      exact ⟨agree_single (SelectQuery.agree_build o hcolumns hfilter hsorts hpage), rfl⟩
  | count hfilter => exact ⟨agree_single (SelectQuery.agree_buildCount o hfilter), rfl⟩
  | update hcolumns hfilter =>
      exact ⟨agree_single (UpdateQuery.agree_build o hcolumns hfilter), rfl⟩
  | delete hfilter => exact ⟨agree_single (DeleteQuery.agree_build o hfilter), rfl⟩
  | insert hcolumns => exact ⟨agree_single (InsertQuery.agree_build o hcolumns), rfl⟩
  | insertMany hcolumns hwidths =>
      have hplan := BulkInsert.agree_plan o hcolumns hwidths
      constructor
      · refine hplan.bind fun p q hpq => .pure ?_
        rw [List.forall₂_map_left_iff, List.forall₂_map_right_iff]
        exact hpq.statements.imp fun _ _ hst => hst.fragment
      · refine hplan.result.map_eq fun p q hpq => ?_
        have hranges := hpq.statements.imp
          (S := fun s t => (s.start, s.stop) = (t.start, t.stop))
          fun s t hst => by rw [hst.start, hst.stop]
        rw [← List.forall₂_eq_eq_eq, List.forall₂_map_left_iff, List.forall₂_map_right_iff]
        exact hranges

/-- A selection by one of two values, the first of which is a text. -/
def namedSelect (name : String) : Statement :=
  .select ⟨[], ⟨[("y", .list [.text name, .integer 1])]⟩, [.desc "y"], none⟩

theorem noninterference_namedSelect :
    (namedSelect "Ann").SameShape (namedSelect "' OR ''='") ∧
      ((namedSelect "Ann").build misleadingOptions).result.map (·.map Fragment.sql) =
        .ok ["SELECT * FROM \"a\"\"? AND\".\"b\" WHERE \"y\" IN(?, ?) ORDER BY \"y\" DESC"] ∧
      Traced.Agree
        (List.Forall₂ (Fragment.Parallel [.text "Ann", .integer 1] [.text "' OR ''='", .integer 1]))
        ((namedSelect "Ann").build misleadingOptions)
        ((namedSelect "' OR ''='").build misleadingOptions) := by
  have hshape : (namedSelect "Ann").SameShape (namedSelect "' OR ''='") := by
    refine .select rfl (.cons ⟨rfl, .cons ⟨rfl, .list ?_⟩ .nil⟩ .nil) rfl rfl
    exact .cons ⟨rfl, by decide⟩ (.cons ⟨rfl, rfl⟩ .nil)
  refine ⟨hshape, by decide +kernel, ?_⟩
  exact (noninterference misleadingOptions hshape).1

end Statement

end BoundSql
