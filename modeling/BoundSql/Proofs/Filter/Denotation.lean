import BoundSql.Proofs.Sql.Name
import BoundSql.Query.Where

/-!
# What a filter tests

A filter stands for a list of tests, each of one column: its entries in order, and in
each entry its operators in order.  A restriction that can be built is the conjunction
of exactly these tests, with every column quoted as a whole.
-/

namespace BoundSql

/-- A test of the value in a column. -/
inductive Test where
  | isNull
  | isNotNull
  | compare (op : Operator) (v : Value)
  | oneOf (vs : List Value)
  | noneOf (vs : List Value)
deriving DecidableEq

namespace Test

/-- The tests that an operator stands for.  Operands that the operator refuses are given
some meaning too; nothing depends on it. -/
def ofOperator : Operator → Operand → List Test
  | .eq, .value .null => [.isNull]
  | .ne, .value .null => [.isNotNull]
  | .nu, .value _ => [.isNull]
  | .nn, .value _ => [.isNotNull]
  | op, .value v => [.compare op v]
  | .eq, .list vs => [.oneOf vs]
  | .ne, .list vs => [.noneOf vs]
  | op, .list vs => vs.map (.compare op)

/-- A value other than null has no meaning of its own. -/
theorem ofOperator_value (op : Operator) {v : Value} (hv : v ≠ .null) :
    ofOperator op (.value v) =
      match op with
      | .nu => [.isNull]
      | .nn => [.isNotNull]
      | op => [.compare op v] := by
  cases v with
  | null => exact absurd rfl hv
  | bool | integer | real | text | blob => cases op <;> rfl

/-- The values of a test, in the order in which it binds them. -/
def values : Test → List Value
  | .isNull | .isNotNull => []
  | .compare _ v => [v]
  | .oneOf vs | .noneOf vs => vs

/-- The predicate that applies a test to a named column. -/
def on (n : Name) : Test → Predicate
  | .isNull => .nullCheck n true
  | .isNotNull => .nullCheck n false
  | .compare op v => .compare n op v
  | .oneOf vs => .member n false vs
  | .noneOf vs => .member n true vs

/-- Whether a test can stand in a restriction: a comparison has a symbol for its operator, and
a list is not empty. -/
def Admissible : Test → Prop
  | .isNull | .isNotNull => True
  | .compare op _ => op.arity ≠ .blank
  | .oneOf vs | .noneOf vs => vs ≠ []

@[simp] theorem params_on (n : Name) (t : Test) : (t.on n).params = t.values := by
  cases t <;> rfl

end Test

/-- The tests of a condition, in the order of its operators. -/
def Condition.tests (c : Condition) : List Test :=
  c.toOps.flatMap fun entry => Test.ofOperator entry.1 entry.2

/-- The tests of a filter with their columns, in order. -/
def Filter.tests (f : Filter) : List (String × Test) :=
  f.entries.flatMap fun entry => entry.2.tests.map fun t => (entry.1, t)

namespace Condition

variable {column : String} {n : Name} {ps : List Predicate}

theorem compileOp_value (column : String) (n : Name) (op : Operator) {v : Value}
    (hv : v ≠ .null) :
    compileOp column n op (.value v) =
      match op.arity with
      | .blank =>
          if v.isBlank then pure [.nullCheck n (op = .nu)]
          else .fail (.operandMismatch column op.code .takesNoValue)
      | .scalar | .scalarOrList => pure [.compare n op v] := by
  cases v with
  | null => exact absurd rfl hv
  | bool | integer | real | text | blob => rfl

/-- An operator that is compiled stands for admissible tests, and for at least one. -/
theorem compileOp_eq_ok {op : Operator} {operand : Operand}
    (h : (compileOp column n op operand).result = .ok ps) :
    ps = (Test.ofOperator op operand).map (Test.on n) ∧ ps ≠ [] ∧
      ∀ t ∈ Test.ofOperator op operand, t.Admissible := by
  cases operand with
  | value v =>
      by_cases hv : v = .null
      · subst hv
        cases op <;> cases h <;> simp [Test.ofOperator, Test.on, Test.Admissible]
      · rw [compileOp_value column n op hv] at h
        rw [Test.ofOperator_value op hv]
        cases op with
        | nu | nn =>
            simp only [Operator.arity] at h
            split at h
            · cases h
              simp [Test.on, Test.Admissible]
            · cases h
        | eq | ne | lt | le | gt | ge | lk | nl =>
            cases h
            simp [Test.on, Test.Admissible, Operator.arity]
  | list vs =>
      by_cases hempty : vs.isEmpty
      · cases op <;> simp only [compileOp, Operator.arity, hempty, if_true] at h <;> cases h
      by_cases hnull : vs.any Value.isNull
      · cases op <;> simp only [compileOp, Operator.arity, hempty, hnull, if_true] at h <;> cases h
      have hne : vs ≠ [] := by simpa using hempty
      cases op <;> simp [compileOp, Operator.arity, hempty, hnull] at h <;> subst h <;>
        simp [Test.ofOperator, Test.on, Test.Admissible, Operator.arity, hne]

theorem compileOps_eq_ok {entries : List (Operator × Operand)}
    (h : (compileOps column n entries).result = .ok ps) :
    ps = (tests (.ops entries)).map (Test.on n) ∧ (entries ≠ [] → ps ≠ []) ∧
      ∀ t ∈ tests (.ops entries), t.Admissible := by
  induction entries generalizing ps with
  | nil =>
      cases h
      simp [tests, toOps]
  | cons entry rest ih =>
      simp only [compileOps, Traced.result_bind_eq_ok_iff] at h
      obtain ⟨first, hfirst, others, hothers, hps⟩ := h
      cases hps
      obtain ⟨rfl, hne, hadmissible⟩ := compileOp_eq_ok hfirst
      obtain ⟨rfl, -, hrest⟩ := ih hothers
      refine ⟨by simp [tests, toOps], fun _ => List.append_ne_nil_of_left_ne_nil hne _, ?_⟩
      intro t ht
      rcases List.mem_append.mp ht with ht | ht
      · exact hadmissible t ht
      · exact hrest t ht

theorem compile_eq_ok {c : Condition} (h : (c.compile column n).result = .ok ps) :
    ps = c.tests.map (Test.on n) ∧ ps ≠ [] ∧ ∀ t ∈ c.tests, t.Admissible := by
  unfold compile at h
  split at h
  · cases h
  · rename_i hempty
    obtain ⟨hps, hne, hadmissible⟩ := compileOps_eq_ok h
    exact ⟨hps, hne (by simpa using hempty), hadmissible⟩

end Condition

namespace Filter

/-- The predicate for a test of a column, the column being quoted for a dialect. -/
def predicateOf (d : Dialect) (t : String × Test) : Predicate := t.2.on (.ofText d t.1)

theorem compileEntries_eq_ok {d : Dialect} {entries : List (String × Condition)}
    {ps : List Predicate}
    (h : (compileEntries (entries.zip
      (entries.map fun entry => Name.ofText d entry.1))).result = .ok ps) :
    ps = (tests ⟨entries⟩).map (predicateOf d) ∧ (entries ≠ [] → ps ≠ []) ∧
      ∀ t ∈ tests ⟨entries⟩, t.2.Admissible := by
  induction entries generalizing ps with
  | nil =>
      cases h
      simp [tests]
  | cons entry rest ih =>
      simp only [List.map_cons, List.zip_cons_cons, compileEntries,
        Traced.result_bind_eq_ok_iff] at h
      obtain ⟨first, hfirst, others, hothers, hps⟩ := h
      cases hps
      obtain ⟨rfl, hne, hadmissible⟩ := Condition.compile_eq_ok hfirst
      obtain ⟨rfl, -, hrest⟩ := ih hothers
      refine ⟨by simp [tests, predicateOf, Function.comp_def],
        fun _ => List.append_ne_nil_of_left_ne_nil hne _, ?_⟩
      intro t ht
      rcases List.mem_append.mp ht with ht | ht
      · obtain ⟨test, htest, rfl⟩ := List.mem_map.mp ht
        exact hadmissible test htest
      · exact hrest t ht

end Filter

/-- A restriction is the conjunction of the tests of its filter, of which there is one. -/
theorem Options.buildWhere_eq_ok {o : Options} {f : Filter} {w : Fragment}
    (hf : f.isEmpty = false) (h : (o.buildWhere f).result = .ok w) :
    (∀ c ∈ f.columns, o.hasColumn c = true ∧ Name.Escapable c) ∧
      w = Predicate.restriction (f.tests.map (Filter.predicateOf o.dialect)) ∧
      f.tests ≠ [] ∧ ∀ t ∈ f.tests, t.2.Admissible := by
  simp only [buildWhere, hf, Bool.false_eq_true, if_false, Filter.predicates,
    Traced.result_bind_eq_ok_iff, Traced.ofExcept_result] at h
  obtain ⟨ps, ⟨names, hnames, hps⟩, hw⟩ := h
  obtain ⟨hcolumns, rfl⟩ := columnNames_eq_ok_iff.mp hnames
  cases hw
  rw [Filter.columns, List.map_map] at hps
  obtain ⟨rfl, hne, hadmissible⟩ := Filter.compileEntries_eq_ok hps
  have htests : f.tests ≠ [] := by
    have hentries : f.entries ≠ [] := by simpa [Filter.isEmpty] using hf
    simpa using hne hentries
  exact ⟨hcolumns, rfl, htests, hadmissible⟩

end BoundSql
