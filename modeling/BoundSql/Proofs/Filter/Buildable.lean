import BoundSql.Proofs.Filter.Grammar

/-!
# Filters that can be built

A restriction is built exactly if every column of its filter can be named and every condition is
well formed, and it is then the conjunction of the tests of the filter.  So whether a restriction
is built is decided entry by entry, and what is built is put together entry by entry.
-/

namespace BoundSql

namespace Condition

/-- A condition that is compiled whatever column it is on. -/
structure WellFormed (c : Condition) : Prop where
  ne_nil : c.toOps ≠ []
  admits : ∀ entry ∈ c.toOps, entry.1.Admits entry.2

variable {column : String} {n : Name} {c : Condition} {ps : List Predicate}

theorem compile_eq_ok_iff :
    (c.compile column n).result = .ok ps ↔ c.WellFormed ∧ ps = c.tests.map (Test.on n) := by
  rcases c.admits_or_refused column with ⟨hne, hadmits⟩ | ⟨e, hrefused⟩
  · obtain ⟨⟨qs, hqs⟩, -⟩ := compile_of_admits column n hne hadmits
    obtain ⟨rfl, -⟩ := compile_eq_ok hqs
    rw [hqs, Except.ok.injEq, and_iff_right (WellFormed.mk hne hadmits), eq_comm]
  · obtain ⟨herror, -⟩ := compile_of_refused (n := n) hrefused
    refine iff_of_false (fun h => ?_) fun h => ?_
    · cases herror.symm.trans h
    · obtain ⟨⟨qs, hqs⟩, -⟩ := compile_of_admits column n h.1.ne_nil h.1.admits
      cases herror.symm.trans hqs

theorem WellFormed.tests_ne_nil (h : c.WellFormed) : c.tests ≠ [] := by
  have hcompiled : (c.compile "" (.trusted "")).result =
      .ok (c.tests.map (Test.on (.trusted ""))) := compile_eq_ok_iff.mpr ⟨h, rfl⟩
  obtain ⟨-, hne, -⟩ := compile_eq_ok hcompiled
  simpa using hne

theorem tests_value (v : Value) : (value v).tests = Test.ofOperator .eq (.value v) :=
  List.append_nil _

theorem tests_list (vs : List Value) : (list vs).tests = Test.ofOperator .eq (.list vs) :=
  List.append_nil _

theorem tests_single (op : Operator) (operand : Operand) :
    (ops [(op, operand)]).tests = Test.ofOperator op operand := List.append_nil _

theorem tests_ops_cons (entry : Operator × Operand) (entries : List (Operator × Operand)) :
    (ops (entry :: entries)).tests = Test.ofOperator entry.1 entry.2 ++ (ops entries).tests :=
  List.flatMap_cons

/-- A condition to which an operator is added keeps its tests. -/
theorem tests_concat (c : Condition) (op : Operator) (operand : Operand) :
    (ops (c.toOps ++ [(op, operand)])).tests = c.tests ++ Test.ofOperator op operand := by
  simp [tests, toOps]

theorem wellFormed_single_iff {op : Operator} {operand : Operand} :
    (ops [(op, operand)]).WellFormed ↔ op.Admits operand := by
  refine ⟨fun h => h.admits (op, operand) List.mem_cons_self, fun h => ⟨by simp [toOps], ?_⟩⟩
  intro entry hentry
  rw [List.mem_singleton.mp hentry]
  exact h

theorem WellFormed.concat {op : Operator} {operand : Operand} (hc : c.WellFormed)
    (h : op.Admits operand) : (ops (c.toOps ++ [(op, operand)])).WellFormed where
  ne_nil := List.concat_ne_nil _ _
  admits entry hentry := by
    rcases List.mem_append.mp hentry with hentry | hentry
    · exact hc.admits entry hentry
    · rw [List.mem_singleton.mp hentry]
      exact h

end Condition

namespace Filter

theorem tests_append (entries rest : List (String × Condition)) :
    tests ⟨entries ++ rest⟩ = tests ⟨entries⟩ ++ tests ⟨rest⟩ := List.flatMap_append

theorem tests_cons (column : String) (c : Condition) (rest : List (String × Condition)) :
    tests ⟨(column, c) :: rest⟩ = c.tests.map (fun t => (column, t)) ++ tests ⟨rest⟩ :=
  List.flatMap_cons

theorem compileEntries_eq_ok_iff {d : Dialect} {entries : List (String × Condition)}
    {ps : List Predicate} :
    (compileEntries (entries.zip
        (entries.map fun entry => Name.ofText d entry.1))).result = .ok ps ↔
      (∀ entry ∈ entries, entry.2.WellFormed) ∧ ps = (tests ⟨entries⟩).map (predicateOf d) := by
  induction entries generalizing ps with
  | nil =>
      simp [compileEntries, tests, eq_comm]
  | cons entry rest ih =>
      have htests : (tests ⟨entry :: rest⟩).map (predicateOf d) =
          entry.2.tests.map (Test.on (.ofText d entry.1)) ++
            (tests ⟨rest⟩).map (predicateOf d) := by
        simp [tests, predicateOf, Function.comp_def]
      simp only [List.map_cons, List.zip_cons_cons, compileEntries, Traced.result_bind_eq_ok_iff,
        Condition.compile_eq_ok_iff, ih, Traced.pure_result, Except.ok.injEq,
        List.forall_mem_cons, htests]
      constructor
      · rintro ⟨_, ⟨hfirst, rfl⟩, _, ⟨hrest, rfl⟩, rfl⟩
        exact ⟨⟨hfirst, hrest⟩, rfl⟩
      · rintro ⟨⟨hfirst, hrest⟩, rfl⟩
        exact ⟨_, ⟨hfirst, rfl⟩, _, ⟨hrest, rfl⟩, rfl⟩

end Filter

/-- An entry whose column can be named and whose condition is well formed. -/
structure Options.AdmitsEntry (o : Options) (entry : String × Condition) : Prop where
  listed : o.hasColumn entry.1 = true
  escapable : Name.Escapable entry.1
  wellFormed : entry.2.WellFormed

namespace Filter

variable {o : Options} {f : Filter}

theorem predicates_eq_ok_iff {ps : List Predicate} :
    (f.predicates o).result = .ok ps ↔
      (∀ entry ∈ f.entries, o.AdmitsEntry entry) ∧ ps = f.tests.map (predicateOf o.dialect) := by
  have hnames : f.columns.map (Name.ofText o.dialect) =
      f.entries.map fun entry => Name.ofText o.dialect entry.1 := List.map_map
  simp only [predicates, Traced.result_bind_eq_ok_iff, Traced.ofExcept_result,
    Options.columnNames_eq_ok_iff]
  constructor
  · rintro ⟨_, ⟨hcolumns, rfl⟩, h⟩
    rw [hnames, compileEntries_eq_ok_iff] at h
    refine ⟨fun entry hentry => ?_, h.2⟩
    obtain ⟨hlisted, hescapable⟩ := hcolumns entry.1 (List.mem_map_of_mem hentry)
    exact ⟨hlisted, hescapable, h.1 entry hentry⟩
  · rintro ⟨hentries, hps⟩
    refine ⟨_, ⟨fun c hc => ?_, rfl⟩, ?_⟩
    · obtain ⟨entry, hentry, rfl⟩ := List.mem_map.mp hc
      exact ⟨(hentries entry hentry).listed, (hentries entry hentry).escapable⟩
    · rw [hnames, compileEntries_eq_ok_iff]
      exact ⟨fun entry hentry => (hentries entry hentry).wellFormed, hps⟩

end Filter

namespace Options

variable {o : Options} {f : Filter} {w : Fragment}

/-- A restriction is built from the predicates of its filter; without entries it has no text. -/
theorem buildWhere_eq_ok_iff :
    (o.buildWhere f).result = .ok w ↔
      ∃ ps, (f.predicates o).result = .ok ps ∧
        w = if f.isEmpty then .empty else Predicate.restriction ps := by
  cases hf : f.isEmpty with
  | true =>
      have hentries : f.entries = [] := by simpa [Filter.isEmpty] using hf
      have hnone : (f.predicates o).result = .ok [] := by
        rw [Filter.predicates_eq_ok_iff]
        simp [Filter.tests, hentries]
      simp [buildWhere, hf, hnone, eq_comm]
  | false =>
      simp only [buildWhere, hf, Bool.false_eq_true, if_false, Traced.result_bind_eq_ok_iff,
        Traced.pure_result, Except.ok.injEq]
      exact exists_congr fun ps => and_congr_right fun _ => eq_comm

/-- The values of a restriction are those of its predicates, in order. -/
theorem params_of_buildWhere (h : (o.buildWhere f).result = .ok w) {ps : List Predicate}
    (hps : (f.predicates o).result = .ok ps) : w.params = ps.flatMap Predicate.params := by
  obtain ⟨ps', hps', rfl⟩ := buildWhere_eq_ok_iff.mp h
  cases hps.symm.trans hps'
  cases hf : f.isEmpty with
  | true =>
      have hentries : f.entries = [] := by simpa [Filter.isEmpty] using hf
      obtain ⟨-, rfl⟩ := Filter.predicates_eq_ok_iff.mp hps
      simp [Filter.tests, hentries, Fragment.empty]
  | false => rfl

end Options

end BoundSql
