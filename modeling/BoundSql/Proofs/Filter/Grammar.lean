import BoundSql.Proofs.Filter.Denotation
import BoundSql.Proofs.Text.Repeat
import Mathlib.Data.List.TakeWhile

/-!
# The grammar of conditions

A condition is a sequence of operators with their operands.  It is compiled exactly if the
sequence is not empty and every operator in it admits its operand.  Otherwise the first operator
that does not gives the error, and the comparisons with null that stand before it have been
reported; nothing behind it is looked at.

Which predicates a compiled condition consists of is not said here.
-/

namespace BoundSql

/-! ## Operators and their operands -/

namespace Operator

/-- The operands that an operator admits.  Null is compared for equality only, a null check takes
the empty text, and a list stands where it can be tested for membership or cut into patterns. -/
def Admits (op : Operator) : Operand → Prop
  | .value v =>
      (v = .null ∧ op ∈ [eq, ne]) ∨ (v ≠ .null ∧ op ∈ [eq, ne, lt, le, gt, ge, lk, nl]) ∨
        (v = .text "" ∧ op ∈ [nu, nn])
  | .list vs => op ∈ [eq, ne, lk, nl] ∧ vs ≠ [] ∧ Value.null ∉ vs

instance (op : Operator) : (operand : Operand) → Decidable (op.Admits operand)
  | .value _ => inferInstanceAs (Decidable (_ ∨ _ ∨ _))
  | .list _ => inferInstanceAs (Decidable (_ ∧ _ ∧ _))

/-- The error for an operand that an operator does not admit.  Whether the operator takes lists
comes before what is in the list. -/
def refusal (column : String) (op : Operator) : Operand → QueryError
  | .value v =>
      if v = .null then .nullOperand column op.code
      else .operandMismatch column op.code .takesNoValue
  | .list vs =>
      if op ∈ [nu, nn] then .operandMismatch column op.code .takesNoValue
      else if op ∈ [lt, le, gt, ge] then .operandMismatch column op.code .takesNoList
      else if vs = [] then .emptyFilterList column
      else .nullOperand column op.code

/-- What is reported of an operator: that it compares with null where a null check is meant. -/
def report? (column : String) : Operator × Operand → Option Event
  | (.eq, .value .null) => some (.nullComparison column eq.code nu.code)
  | (.ne, .value .null) => some (.nullComparison column ne.code nn.code)
  | _ => none

variable {column : String}

theorem report?_value (op : Operator) {v : Value} (hv : v ≠ .null) :
    report? column (op, .value v) = none := by
  cases v with
  | null => exact absurd rfl hv
  | bool | integer | real | text | blob => cases op <;> rfl

theorem report?_list (op : Operator) (vs : List Value) :
    report? column (op, .list vs) = none := by
  cases op <;> rfl

end Operator

namespace Condition

variable {column : String} {n : Name} {op : Operator}

theorem compileOp_list_empty (hop : op ∈ [Operator.eq, .ne, .lk, .nl]) :
    compileOp column n op (.list []) = .fail (.emptyFilterList column) := by
  cases op with
  | eq | ne | lk | nl => rfl
  | lt | le | gt | ge | nu | nn => simp at hop

theorem compileOp_list_null (hop : op ∈ [Operator.eq, .ne, .lk, .nl]) {vs : List Value}
    (hnull : Value.null ∈ vs) :
    compileOp column n op (.list vs) = .fail (.nullOperand column op.code) := by
  have hempty : vs.isEmpty = false := List.isEmpty_eq_false_iff.mpr (List.ne_nil_of_mem hnull)
  have hany : vs.any Value.isNull = true := List.any_eq_true.mpr ⟨.null, hnull, rfl⟩
  cases op with
  | eq | ne | lk | nl => simp [compileOp, Operator.arity, hempty, hany]
  | lt | le | gt | ge | nu | nn => simp at hop

theorem compileOp_list_clean (column : String) (n : Name)
    (hop : op ∈ [Operator.eq, .ne, .lk, .nl]) {vs : List Value} (hne : vs ≠ [])
    (hclean : Value.null ∉ vs) :
    ∃ ps, compileOp column n op (.list vs) = pure ps := by
  have hempty : vs.isEmpty = false := List.isEmpty_eq_false_iff.mpr hne
  have hany : vs.any Value.isNull = false := by
    rw [List.any_eq_false]
    intro v hv hisNull
    rw [(Value.isNull_iff v).mp hisNull] at hv
    exact hclean hv
  cases op with
  | eq | ne | lk | nl =>
      simp only [compileOp, Operator.arity, hempty, hany]
      exact ⟨_, rfl⟩
  | lt | le | gt | ge | nu | nn => simp at hop

/-- An operator that admits its operand is compiled, and reported if it compares with null. -/
theorem compileOp_of_admits (column : String) (n : Name) {operand : Operand}
    (h : op.Admits operand) :
    (∃ ps, (compileOp column n op operand).result = .ok ps) ∧
      (compileOp column n op operand).events =
        (Operator.report? column (op, operand)).toList := by
  cases operand with
  | value v =>
      by_cases hv : v = .null
      · subst hv
        have hop : op ∈ [Operator.eq, .ne] := by simpa [Operator.Admits] using h
        cases op with
        | eq | ne => exact ⟨⟨_, rfl⟩, rfl⟩
        | lt | le | gt | ge | lk | nl | nu | nn => simp at hop
      · rw [compileOp_value column n op hv, Operator.report?_value op hv]
        cases op with
        | nu | nn =>
            have hblank : v = .text "" := by simpa [Operator.Admits] using h
            subst hblank
            exact ⟨⟨_, rfl⟩, rfl⟩
        | eq | ne | lt | le | gt | ge | lk | nl => exact ⟨⟨_, rfl⟩, rfl⟩
  | list vs =>
      obtain ⟨hop, hne, hclean⟩ := h
      obtain ⟨ps, hps⟩ := compileOp_list_clean column n hop hne hclean
      rw [hps, Operator.report?_list]
      exact ⟨⟨ps, rfl⟩, rfl⟩

/-- An operator that does not admit its operand fails without a report. -/
theorem compileOp_of_not_admits {operand : Operand} (h : ¬op.Admits operand) :
    compileOp column n op operand = .fail (op.refusal column operand) := by
  cases operand with
  | value v =>
      by_cases hv : v = .null
      · subst hv
        cases op with
        | eq | ne => simp [Operator.Admits] at h
        | lt | le | gt | ge | lk | nl | nu | nn => rfl
      · rw [compileOp_value column n op hv, Operator.refusal, if_neg hv]
        cases op with
        | nu | nn =>
            have hblank : v.isBlank = false := by
              rw [← Bool.not_eq_true, Value.isBlank_iff]
              simpa [Operator.Admits] using h
            simp [Operator.arity, hblank]
        | eq | ne | lt | le | gt | ge | lk | nl => simp [Operator.Admits, hv] at h
  | list vs =>
      by_cases hop : op ∈ [Operator.eq, .ne, .lk, .nl]
      -- the operator takes lists, so this one is empty or holds null
      · have hrefusal : op.refusal column (.list vs) =
            if vs = [] then .emptyFilterList column else .nullOperand column op.code := by
          cases op with
          | eq | ne | lk | nl => rfl
          | lt | le | gt | ge | nu | nn => simp at hop
        rw [hrefusal]
        by_cases hvs : vs = []
        · subst hvs
          exact compileOp_list_empty hop
        · have hnull : Value.null ∈ vs :=
            Classical.not_not.mp fun hclean => h ⟨hop, hvs, hclean⟩
          rw [if_neg hvs]
          exact compileOp_list_null hop hnull
      · cases op with
        | eq | ne | lk | nl => simp at hop
        | lt | le | gt | ge | nu | nn => rfl

/-! ## Sequences of operators -/

theorem compileOps_cons_of_ok {operand : Operand} {ps : List Predicate}
    (h : (compileOp column n op operand).result = .ok ps)
    (rest : List (Operator × Operand)) :
    compileOps column n ((op, operand) :: rest) =
      ⟨(compileOp column n op operand).notes ++ (compileOps column n rest).notes,
        (compileOps column n rest).result.map (ps ++ ·)⟩ := by
  rw [compileOps, Traced.bind_of_ok _ h, Traced.bind_return]

theorem compileOps_cons_of_not_admits {operand : Operand} (h : ¬op.Admits operand)
    (rest : List (Operator × Operand)) :
    compileOps column n ((op, operand) :: rest) = .fail (op.refusal column operand) := by
  rw [compileOps, compileOp_of_not_admits h]
  rfl

/-- Operators that admit their operands are compiled and reported, and what becomes of the
sequence is decided behind them. -/
theorem compileOps_append (column : String) (n : Name) {before : List (Operator × Operand)}
    (h : ∀ entry ∈ before, entry.1.Admits entry.2) (rest : List (Operator × Operand)) :
    ∃ ps, (compileOps column n (before ++ rest)).result =
        (compileOps column n rest).result.map (ps ++ ·) ∧
      (compileOps column n (before ++ rest)).events =
        before.filterMap (Operator.report? column) ++ (compileOps column n rest).events := by
  induction before with
  | nil =>
      refine ⟨[], ?_, rfl⟩
      rw [List.nil_append]
      cases (compileOps column n rest).result with
      | error e => rfl
      | ok others => rfl
  | cons entry before ih =>
      obtain ⟨op, operand⟩ := entry
      obtain ⟨⟨ps, hps⟩, hfirst⟩ := compileOp_of_admits column n (h _ List.mem_cons_self)
      obtain ⟨qs, hqs, hbefore⟩ := ih fun entry hentry => h entry (List.mem_cons_of_mem _ hentry)
      have hcons := compileOps_cons_of_ok hps (before ++ rest)
      rw [List.cons_append, hcons]
      refine ⟨ps ++ qs, ?_, ?_⟩
      · rw [hqs]
        cases (compileOps column n rest).result with
        | error e => rfl
        | ok others => simp [Except.map]
      · have hevents : Note.events ((compileOp column n op operand).notes ++
            (compileOps column n (before ++ rest)).notes) =
              (compileOp column n op operand).events ++
                (compileOps column n (before ++ rest)).events := Note.events_append _ _
        rw [Traced.events, hevents, hfirst, hbefore, ← List.append_assoc]
        congr 1
        cases hreport : Operator.report? column (op, operand) with
        | none => rw [List.filterMap_cons_none hreport]; rfl
        | some e => rw [List.filterMap_cons_some hreport]; rfl

/-! ## Conditions -/

/-- The operators of a condition before the first that does not admit its operand. -/
def admitted (c : Condition) : List (Operator × Operand) :=
  c.toOps.takeWhile fun entry => entry.1.Admits entry.2

/-- Why a condition on a column is refused: it has no operators, or there is a first one that
does not admit its operand. -/
inductive Refused (column : String) (c : Condition) : QueryError → Prop where
  | empty (h : c.toOps = []) : Refused column c (.emptyFilterList column)
  | operand {before rest : List (Operator × Operand)} {op : Operator} {operand : Operand}
      (splits : c.toOps = before ++ (op, operand) :: rest)
      (admits : ∀ entry ∈ before, entry.1.Admits entry.2) (refuses : ¬op.Admits operand) :
      Refused column c (op.refusal column operand)

variable {c : Condition}

theorem admits_or_refused (column : String) (c : Condition) :
    (c.toOps ≠ [] ∧ ∀ entry ∈ c.toOps, entry.1.Admits entry.2) ∨ ∃ e, c.Refused column e := by
  by_cases hne : c.toOps = []
  · exact Or.inr ⟨_, .empty hne⟩
  rcases forall_or_first (fun entry : Operator × Operand => entry.1.Admits entry.2) c.toOps with
    hadmits | ⟨before, entry, rest, hsplits, hbefore, hrefuses⟩
  · exact Or.inl ⟨hne, hadmits⟩
  · exact Or.inr ⟨_, .operand hsplits hbefore hrefuses⟩

theorem compile_of_admits (column : String) (n : Name) (hne : c.toOps ≠ [])
    (h : ∀ entry ∈ c.toOps, entry.1.Admits entry.2) :
    (∃ ps, (c.compile column n).result = .ok ps) ∧
      (c.compile column n).events = c.admitted.filterMap (Operator.report? column) := by
  obtain ⟨ps, hresult, hevents⟩ := compileOps_append column n h []
  rw [List.append_nil] at hresult hevents
  have hall : c.admitted = c.toOps := List.takeWhile_eq_self_iff.mpr (by simpa using h)
  rw [compile, if_neg (by simpa using hne), hresult, hevents, hall]
  exact ⟨⟨_, rfl⟩, List.append_nil _⟩

theorem compile_of_refused {e : QueryError} (h : c.Refused column e) :
    (c.compile column n).result = .error e ∧
      (c.compile column n).events = c.admitted.filterMap (Operator.report? column) := by
  cases h with
  | empty h =>
      have hnone : c.admitted = [] := by rw [admitted, h]; rfl
      rw [compile, if_pos (by simpa using h), hnone]
      exact ⟨rfl, rfl⟩
  | @operand before rest op operand splits admits refuses =>
      obtain ⟨ps, hresult, hevents⟩ := compileOps_append column n admits ((op, operand) :: rest)
      rw [← splits, compileOps_cons_of_not_admits refuses] at hresult hevents
      have hne : c.toOps ≠ [] := by simp [splits]
      have hbefore : c.admitted = before := by
        rw [admitted, splits, List.takeWhile_append_of_pos (by simpa using admits),
          List.takeWhile_cons_of_neg (by simpa using refuses), List.append_nil]
      rw [compile, if_neg (by simpa using hne), hresult, hevents, hbefore]
      exact ⟨rfl, List.append_nil _⟩

/-- A condition is compiled exactly if it has operators and they admit their operands.  If not,
the error is that of the first operator that does not; in both cases the operators before are
reported where they compare with null, and nothing else is. -/
theorem compile_obeys_grammar (column : String) (n : Name) (c : Condition) :
    ((∃ ps, (c.compile column n).result = .ok ps) ↔
      c.toOps ≠ [] ∧ ∀ entry ∈ c.toOps, entry.1.Admits entry.2) ∧
    (∀ e, (c.compile column n).result = .error e ↔ c.Refused column e) ∧
    (c.compile column n).events = c.admitted.filterMap (Operator.report? column) := by
  rcases c.admits_or_refused column with hadmits | ⟨e, he⟩
  · obtain ⟨⟨ps, hps⟩, hevents⟩ := compile_of_admits column n hadmits.1 hadmits.2
    refine ⟨iff_of_true ⟨ps, hps⟩ hadmits, fun e => ⟨fun herror => ?_, fun he => ?_⟩, hevents⟩
    · cases hps.symm.trans herror
    · exact (compile_of_refused he).1
  · obtain ⟨herror, hevents⟩ := compile_of_refused (n := n) he
    refine ⟨⟨fun ⟨ps, hps⟩ => ?_, fun hadmits => ?_⟩, fun e' => ⟨fun herror' => ?_, fun he' => ?_⟩,
      hevents⟩
    · cases hps.symm.trans herror
    · obtain ⟨⟨ps, hps⟩, -⟩ := compile_of_admits column n hadmits.1 hadmits.2
      cases hps.symm.trans herror
    · cases herror.symm.trans herror'
      exact he
    · exact (compile_of_refused he').1

/-- Two comparisons with null around a null check, then a list that cannot be compared against
although it is empty, then another comparison with null. -/
def mixedCondition : Condition :=
  .ops [(.eq, .value .null), (.nu, .blank), (.ne, .value .null), (.lt, .list []),
    (.eq, .value .null)]

theorem compile_obeys_grammar_mixed :
    (mixedCondition.compile "c" (.trusted "c")).result =
        .error (.operandMismatch "c" "lt" .takesNoList) ∧
      (mixedCondition.compile "c" (.trusted "c")).events =
        [.nullComparison "c" "eq" "nu", .nullComparison "c" "ne" "nn"] := by
  obtain ⟨-, herror, hevents⟩ := compile_obeys_grammar "c" (.trusted "c") mixedCondition
  have hsplits : mixedCondition.toOps =
      [(.eq, .value .null), (.nu, .blank), (.ne, .value .null)] ++
        (.lt, .list []) :: [(.eq, .value .null)] := rfl
  have hrefused : mixedCondition.Refused "c" (Operator.lt.refusal "c" (.list [])) :=
    .operand hsplits (by decide) (by decide)
  exact ⟨(herror _).mpr hrefused, hevents.trans rfl⟩

end Condition

end BoundSql
