import BoundSql.Proofs.Filter.Grammar
import BoundSql.Proofs.Query.Restriction

/-!
# Comparisons with null as null checks

Comparing a column with null for equality is another way to write a null check.  A filter in which
every such comparison is spelled out as the check builds the same restriction and the same
statements, or fails with the same error, also where something else in it is wrong; but it reports
nothing.  A filter that is built reports each of its comparisons with null once, in order.
-/

namespace BoundSql

/-! ## Silenced computations -/

namespace Traced

variable {ε α β : Type}

/-- A computation, and one that ends alike but reports nothing.  If the first one succeeds, it
makes the given reports. -/
structure Silenced (reports : List Event) (x y : Traced ε α) : Prop where
  result : y.result = x.result
  silent : y.events = []
  events : ∀ a, x.result = .ok a → x.events = reports

namespace Silenced

variable {reports later : List Event} {x y : Traced ε α} {f g : α → Traced ε β}

theorem pure (a : α) : Silenced [] (Pure.pure a : Traced ε α) (Pure.pure a) :=
  ⟨rfl, rfl, fun _ _ => rfl⟩

theorem fail (e : ε) (reports : List Event) :
    Silenced reports (Traced.fail e : Traced ε α) (Traced.fail e) :=
  ⟨rfl, rfl, fun _ h => nomatch h⟩

theorem bind (hxy : Silenced reports x y)
    (hfg : ∀ a, x.result = .ok a → Silenced later (f a) (g a)) :
    Silenced (reports ++ later) (x >>= f) (y >>= g) := by
  obtain ⟨hresult, hsilent, hevents⟩ := hxy
  cases hx : x.result with
  | error e =>
      -- the reports of a failing computation are left open; only its silent twin has none for sure
      rw [bind_of_error f hx, bind_of_error g (hresult.trans hx)]
      exact ⟨rfl, hsilent, fun _ h => nomatch h⟩
  | ok a =>
      obtain ⟨hnext, hquiet, hlater⟩ := hfg a hx
      rw [bind_of_ok f hx, bind_of_ok g (hresult.trans hx)]
      refine ⟨hnext, ?_, fun b hb => ?_⟩
      · show Note.events (y.notes ++ (g a).notes) = []
        rw [Note.events_append]
        exact List.append_eq_nil_iff.mpr ⟨hsilent, hquiet⟩
      · show Note.events (x.notes ++ (f a).notes) = _
        rw [Note.events_append]
        exact congrArg₂ (· ++ ·) (hevents a hx) (hlater b hb)

/-- What stands before a computation and is the same on both sides reports nothing. -/
theorem after (r : Except ε α) (hfg : ∀ a, r = .ok a → Silenced later (f a) (g a)) :
    Silenced later (ofExcept r >>= f) (ofExcept r >>= g) := by
  have hquiet : Silenced [] (ofExcept r) (ofExcept r) := ⟨rfl, rfl, fun _ _ => rfl⟩
  exact hquiet.bind hfg

/-- What follows a computation and reports nothing leaves the reports as they are. -/
theorem andThen (hxy : Silenced reports x y)
    (hfg : ∀ a, x.result = .ok a → Silenced [] (f a) (g a)) :
    Silenced reports (x >>= f) (y >>= g) :=
  List.append_nil reports ▸ hxy.bind hfg

theorem log_bind (entry : LogEntry) (h : Silenced reports x y) :
    Silenced reports (Traced.log entry >>= fun _ => x) (Traced.log entry >>= fun _ => y) := by
  have hquiet : Silenced [] (Traced.log entry : Traced ε Unit) (Traced.log entry) :=
    ⟨rfl, rfl, fun _ _ => rfl⟩
  exact hquiet.bind fun _ _ => h

end Silenced

end Traced

/-! ## Spelling null checks out -/

namespace Condition

/-- An operator with its operand, a comparison with null being spelled as a null check. -/
def explicitOp : Operator × Operand → Operator × Operand
  | (.eq, .value .null) => (.nu, .blank)
  | (.ne, .value .null) => (.nn, .blank)
  | entry => entry

/-- A condition whose comparisons with null are spelled as null checks. -/
def explicit : Condition → Condition
  | .value .null => .ops [(.nu, .blank)]
  | .ops entries => .ops (entries.map explicitOp)
  | c => c

/-- The report of an operator on a column that another one takes the place of. -/
def replacement? (column : String) (entry : Operator × Operand) : Option Event :=
  if explicitOp entry = entry then none
  else some (.nullComparison column entry.1.code (explicitOp entry).1.code)

/-- The reports of the operators of a condition that others take the place of. -/
def replacements (column : String) (c : Condition) : List Event :=
  c.toOps.filterMap (replacement? column)

end Condition

namespace Filter

/-- A filter whose comparisons with null are spelled as null checks. -/
def explicit (f : Filter) : Filter := ⟨f.entries.map fun entry => (entry.1, entry.2.explicit)⟩

/-- The reports of all operators of a filter that others take the place of, in order. -/
def replacements (f : Filter) : List Event :=
  f.entries.flatMap fun entry => entry.2.replacements entry.1

end Filter

/-- The statement with another filter, if it can have one. -/
def Statement.withFilter (f : Filter) : Statement → Statement
  | .select q => .select (q.withFilter f)
  | .count q => .count (q.withFilter f)
  | .update q => .update (q.withFilter f)
  | .delete _ => .delete ⟨f⟩
  | s => s

/-! ## Conditions -/

namespace Condition

variable {column : String} {n : Name}

theorem explicitOp_value (op : Operator) {v : Value} (hv : v ≠ .null) :
    explicitOp (op, .value v) = (op, .value v) := by
  cases v with
  | null => exact absurd rfl hv
  | bool | integer | real | text | blob => cases op <;> rfl

/-- An operator is replaced if it compares with null for equality, and stays as it is if not. -/
theorem explicitOp_cases (entry : Operator × Operand) :
    entry = (.eq, .value .null) ∨ entry = (.ne, .value .null) ∨
      explicitOp entry = entry ∧ ∀ column, Operator.report? column entry = none := by
  obtain ⟨op, operand⟩ := entry
  cases operand with
  | value v =>
      by_cases hv : v = .null
      · subst hv
        cases op with
        | eq => exact Or.inl rfl
        | ne => exact Or.inr (Or.inl rfl)
        | lt | le | gt | ge | lk | nl | nu | nn => exact Or.inr (Or.inr ⟨rfl, fun _ => rfl⟩)
      · exact Or.inr (Or.inr ⟨explicitOp_value op hv, fun _ => Operator.report?_value op hv⟩)
  | list vs =>
      refine Or.inr (Or.inr ⟨?_, fun _ => Operator.report?_list op vs⟩)
      cases op <;> rfl

theorem toOps_explicit (c : Condition) : c.explicit.toOps = c.toOps.map explicitOp := by
  cases c with
  | value v =>
      by_cases hv : v = .null
      · subst hv
        rfl
      · cases v with
        | null => exact absurd rfl hv
        | bool | integer | real | text | blob => rfl
  | list | ops => rfl

theorem silenced_compileOp (column : String) (n : Name) (entry : Operator × Operand) :
    Traced.Silenced (replacement? column entry).toList (compileOp column n entry.1 entry.2)
      (compileOp column n (explicitOp entry).1 (explicitOp entry).2) := by
  rcases explicitOp_cases entry with rfl | rfl | ⟨hsame, hreport⟩
  · exact ⟨rfl, rfl, fun _ _ => rfl⟩
  · exact ⟨rfl, rfl, fun _ _ => rfl⟩
  · -- an operator that stays may still be refused, but then without a report
    have hsilent : (compileOp column n entry.1 entry.2).events = [] := by
      by_cases hadmits : entry.1.Admits entry.2
      · obtain ⟨-, hevents⟩ := compileOp_of_admits column n hadmits
        rw [hevents, hreport column]
        rfl
      · rw [compileOp_of_not_admits hadmits]
        rfl
    rw [hsame, replacement?, if_pos hsame]
    exact ⟨rfl, hsilent, fun _ _ => hsilent⟩

theorem silenced_compileOps (column : String) (n : Name) (entries : List (Operator × Operand)) :
    Traced.Silenced (entries.filterMap (replacement? column)) (compileOps column n entries)
      (compileOps column n (entries.map explicitOp)) := by
  induction entries with
  | nil => exact .pure []
  | cons entry entries ih =>
      have hreports : (entry :: entries).filterMap (replacement? column) =
          (replacement? column entry).toList ++ entries.filterMap (replacement? column) := by
        cases h : replacement? column entry with
        | none => exact List.filterMap_cons_none h
        | some e => exact List.filterMap_cons_some h
      rw [hreports, List.map_cons, compileOps]
      refine (silenced_compileOp column n entry).bind fun first _ => ?_
      exact ih.andThen fun others _ => .pure _

theorem silenced_compile (column : String) (n : Name) (c : Condition) :
    Traced.Silenced (c.replacements column) (c.compile column n)
      (c.explicit.compile column n) := by
  rw [compile, compile, toOps_explicit, List.isEmpty_map]
  split
  · exact .fail _ _
  · exact silenced_compileOps column n c.toOps

end Condition

/-! ## Restrictions -/

namespace Filter

theorem columns_explicit (f : Filter) : f.explicit.columns = f.columns := by
  simp [explicit, columns, Function.comp_def]

theorem isEmpty_explicit (f : Filter) : f.explicit.isEmpty = f.isEmpty := List.isEmpty_map

/-- Entries and names are as many, so no entry is lost when they are paired. -/
theorem silenced_compileEntries {entries : List (String × Condition)} {names : List Name}
    (hlen : names.length = entries.length) :
    Traced.Silenced (replacements ⟨entries⟩) (compileEntries (entries.zip names))
      (compileEntries ((explicit ⟨entries⟩).entries.zip names)) := by
  induction entries generalizing names with
  | nil => exact .pure []
  | cons entry entries ih =>
      cases names with
      | nil => simp at hlen
      | cons name names =>
          refine (Condition.silenced_compile entry.1 name entry.2).bind fun first _ => ?_
          exact (ih (Nat.succ.inj hlen)).andThen fun others _ => .pure _

end Filter

theorem Options.silenced_buildWhere (o : Options) (f : Filter) :
    Traced.Silenced f.replacements (o.buildWhere f) (o.buildWhere f.explicit) := by
  rw [buildWhere, buildWhere, Filter.isEmpty_explicit]
  split
  · rename_i hempty
    have hnone : f.replacements = [] := by
      have hentries : f.entries = [] := by simpa [Filter.isEmpty] using hempty
      rw [Filter.replacements, hentries]
      rfl
    rw [hnone]
    exact .pure _
  · rw [Filter.predicates, Filter.predicates, Filter.columns_explicit]
    refine Traced.Silenced.andThen (.after _ fun names hnames => ?_) fun ps _ => .pure _
    obtain ⟨-, rfl⟩ := columnNames_eq_ok_iff.mp hnames
    exact Filter.silenced_compileEntries (by simp [Filter.columns])

/-! ## Statements -/

section Builders

variable (o : Options)

theorem SelectQuery.silenced_build (q : SelectQuery) :
    Traced.Silenced q.filter.replacements (q.build o)
      ((q.withFilter q.filter.explicit).build o) := by
  unfold build
  refine .after _ fun table _ => .after _ fun selected _ => ?_
  refine (o.silenced_buildWhere q.filter).andThen fun restriction _ => ?_
  refine .after _ fun ordering _ => .after _ fun paging _ => ?_
  exact .log_bind _ (.log_bind _ (.pure _))

theorem SelectQuery.silenced_buildCount (q : SelectQuery) :
    Traced.Silenced q.filter.replacements (q.buildCount o)
      ((q.withFilter q.filter.explicit).buildCount o) := by
  unfold buildCount
  refine .after _ fun table _ => ?_
  refine (o.silenced_buildWhere q.filter).andThen fun restriction _ => ?_
  exact .log_bind _ (.pure _)

theorem DeleteQuery.silenced_build (q : DeleteQuery) :
    Traced.Silenced q.filter.replacements (q.build o) (build ⟨q.filter.explicit⟩ o) := by
  unfold build
  refine .after _ fun table _ => ?_
  refine (o.silenced_buildWhere q.filter).andThen fun restriction _ => ?_
  exact .log_bind _ (.log_bind _ (.pure _))

theorem UpdateQuery.silenced_build (q : UpdateQuery) :
    Traced.Silenced q.filter.replacements (q.build o)
      ((q.withFilter q.filter.explicit).build o) := by
  unfold build
  -- the filter has as many entries as before, so the same updates are refused as empty
  simp only [withFilter, Filter.isEmpty_explicit]
  split
  · exact .fail _ _
  · refine .after _ fun table _ => .after _ fun names _ => ?_
    refine (o.silenced_buildWhere q.filter).andThen fun restriction _ => ?_
    exact .log_bind _ (.log_bind _ (.pure _))

end Builders

theorem Statement.silenced_build (o : Options) {s : Statement} {f : Filter}
    (hf : s.filter? = some f) :
    Traced.Silenced f.replacements (s.build o) ((s.withFilter f.explicit).build o) := by
  cases s with
  | select q =>
      cases hf
      exact (q.silenced_build o).andThen fun _ _ => .pure _
  | count q =>
      cases hf
      exact (q.silenced_buildCount o).andThen fun _ _ => .pure _
  | update q =>
      cases hf
      exact (q.silenced_build o).andThen fun _ _ => .pure _
  | delete q =>
      cases hf
      exact (q.silenced_build o).andThen fun _ _ => .pure _
  | insert q | insertMany b => cases hf

/-- A filter and the one in which its comparisons with null are spelled as null checks build the
same restriction and the same statements, or fail alike.  The second one reports nothing, and the
first one, where it is built, each operator that the second one has replaced. -/
theorem Filter.explicit_builds_alike (o : Options) (f : Filter) :
    ((o.buildWhere f.explicit).result = (o.buildWhere f).result ∧
      (o.buildWhere f.explicit).events = [] ∧
      ∀ w, (o.buildWhere f).result = .ok w → (o.buildWhere f).events = f.replacements) ∧
    ∀ s : Statement, s.filter? = some f →
      ((s.withFilter f.explicit).build o).result = (s.build o).result ∧
      ((s.withFilter f.explicit).build o).events = [] ∧
      ∀ fs, (s.build o).result = .ok fs → (s.build o).events = f.replacements := by
  constructor
  · obtain ⟨hresult, hsilent, hevents⟩ := o.silenced_buildWhere f
    exact ⟨hresult, hsilent, hevents⟩
  · intro s hf
    obtain ⟨hresult, hsilent, hevents⟩ := s.silenced_build o hf
    exact ⟨hresult, hsilent, hevents⟩

/-- A filter with comparisons with null of both kinds, one of them in a list of operators. -/
def Filter.sugared : Filter :=
  ⟨[("a", .value .null), ("b", .ops [(.ge, .value (.integer 1)), (.ne, .value .null)])]⟩

theorem Filter.explicit_builds_alike_sugared :
    Filter.sugared.explicit =
      ⟨[("a", .ops [(.nu, .blank)]), ("b", .ops [(.ge, .value (.integer 1)), (.nn, .blank)])]⟩ ∧
    ∃ g, ((Statement.delete ⟨.sugared⟩).build (.defaults .sqlite "t" ["a", "b"])).result =
        .ok [g] ∧
      g.sql = "DELETE FROM \"t\" WHERE \"a\" IS NULL AND \"b\" >= ? AND \"b\" IS NOT NULL" ∧
      ((Statement.delete ⟨Filter.sugared.explicit⟩).build
        (.defaults .sqlite "t" ["a", "b"])).result = .ok [g] ∧
      ((Statement.delete ⟨.sugared⟩).build (.defaults .sqlite "t" ["a", "b"])).events =
        [.nullComparison "a" "eq" "nu", .nullComparison "b" "ne" "nn"] := by
  obtain ⟨-, hstatements⟩ := explicit_builds_alike (.defaults .sqlite "t" ["a", "b"]) .sugared
  obtain ⟨hresult, -, hevents⟩ := hstatements (.delete ⟨.sugared⟩) rfl
  exact ⟨rfl, _, rfl, by decide +kernel, hresult.trans rfl, (hevents _ rfl).trans rfl⟩

end BoundSql
