import BoundSql.Proofs.Filter.Buildable
import BoundSql.Proofs.Filter.Entries
import Mathlib.Data.List.Induction
import Mathlib.Data.List.Nodup

/-!
# Filters made by calls

A filter is an ordered map that is made call by call.  Its columns stand in the order in which they
were first mentioned, whatever was called in between.  A call that replaces the condition of a
column forgets what the column was filtered by, and a call that adds an operator never does: an
equality that was set before becomes an operator of its own.

So an operator that is added to a filter which can be built adds its predicates to the restriction,
directly behind those of the column, and takes none away.
-/

namespace BoundSql

namespace Filter

/-! ## Calls -/

/-- A call that changes the condition of one column. -/
inductive Call where
  | condition (column : String) (c : Condition)
  | eq (column : String) (v : Value)
  | any (column : String) (vs : List Value)
  | op (column : String) (o : Operator) (v : Value)
  | opList (column : String) (o : Operator) (vs : List Value)
  | isNull (column : String)
  | notNull (column : String)

namespace Call

def column : Call → String
  | .condition column _ | .eq column _ | .any column _ | .op column _ _ | .opList column _ _
  | .isNull column | .notNull column => column

/-- What a call makes of a filter. -/
def on (f : Filter) : Call → Filter
  | .condition column c => f.condition column c
  | .eq column v => f.eq column v
  | .any column vs => f.any column vs
  | .op column o v => f.op column o v
  | .opList column o vs => f.opList column o vs
  | .isNull column => f.isNull column
  | .notNull column => f.notNull column

/-- The condition that a call puts in the place of any earlier one. -/
def replacement? : Call → Option Condition
  | .condition _ c => some c
  | .eq _ v => some (.value v)
  | .any _ vs => some (.list vs)
  | .op .. | .opList .. | .isNull _ | .notNull _ => none

/-- The operator that a call adds to what the column is filtered by. -/
def addition? : Call → Option (Operator × Operand)
  | .op _ o v => some (o, .value v)
  | .opList _ o vs => some (o, .list vs)
  | .isNull _ => some (.nu, .blank)
  | .notNull _ => some (.nn, .blank)
  | .condition .. | .eq .. | .any .. => none

/-- The operators that calls add to a column. -/
def additions (column : String) (calls : List Call) : List (Operator × Operand) :=
  (calls.filter fun call => call.column = column).filterMap addition?

/-- What calls leave a column filtered by, if they start with the filter that restricts nothing. -/
inductive Leaves (column : String) (calls : List Call) : Option Condition → Prop where
  | untouched (others : ∀ call ∈ calls, call.column ≠ column) : Leaves column calls none
  /-- The last call on the column replaced its condition. -/
  | replaced {before after : List Call} {call : Call} {c : Condition}
      (splits : calls = before ++ call :: after) (same : call.column = column)
      (replaces : call.replacement? = some c) (others : ∀ call ∈ after, call.column ≠ column) :
      Leaves column calls (some c)
  /-- After the last replacement there are calls that added operators. -/
  | extended {before after : List Call} {call : Call} {c : Condition}
      (splits : calls = before ++ call :: after) (same : call.column = column)
      (replaces : call.replacement? = some c)
      (adds : ∀ call ∈ after, call.column = column → call.replacement? = none)
      (some_addition : additions column after ≠ []) :
      Leaves column calls (some (.ops (c.toOps ++ additions column after)))
  /-- All calls on the column added operators. -/
  | collected (adds : ∀ call ∈ calls, call.column = column → call.replacement? = none)
      (some_addition : additions column calls ≠ []) :
      Leaves column calls (some (.ops (additions column calls)))

end Call

/-- The filter that calls make. -/
def ofCalls (calls : List Call) : Filter := calls.foldl Call.on .empty

/-! ## One call -/

namespace Call

/-- The condition that a call leaves, given the one before. -/
def change (call : Call) (old : Option Condition) : Condition :=
  match call.replacement? with
  | some c => c
  | none => .ops ((old.map Condition.toOps).getD [] ++ call.addition?.toList)

variable {f : Filter} {call : Call} {column : String}

theorem entries_on (f : Filter) (call : Call) :
    (call.on f).entries = alterEntries call.column call.change f.entries := by
  cases call <;> rfl

theorem exists_addition (h : call.replacement? = none) : ∃ entry, call.addition? = some entry := by
  cases call with
  | condition | eq | any => cases h
  | op | opList | isNull | notNull => exact ⟨_, rfl⟩

theorem columns_on (f : Filter) (call : Call) :
    (call.on f).columns =
      if call.column ∈ f.columns then f.columns else f.columns ++ [call.column] := by
  rw [columns, entries_on]
  exact columns_alterEntries call.column call.change f.entries

/-- The entries of other columns stay as they are, in their order. -/
theorem others_on (f : Filter) (call : Call) :
    (call.on f).entries.filter (fun entry => entry.1 ≠ call.column) =
      f.entries.filter fun entry => entry.1 ≠ call.column := by
  rw [entries_on]
  exact others_alterEntries call.column call.change f.entries

theorem get?_on_self (f : Filter) (call : Call) :
    (call.on f).get? call.column = some (call.change (f.get? call.column)) := by
  rw [get?, entries_on]
  exact lookup_alterEntries call.column call.change f.entries

theorem get?_on_of_ne (f : Filter) (h : call.column ≠ column) :
    (call.on f).get? column = f.get? column := by
  rw [get?, entries_on]
  exact lookup_alterEntries_of_ne (Ne.symm h) call.change f.entries

/-! ## Sequences of calls -/

theorem nodup_columns_foldl (calls : List Call) (h : f.columns.Nodup) :
    (calls.foldl on f).columns.Nodup := by
  induction calls generalizing f with
  | nil => exact h
  | cons call calls ih =>
      refine ih ?_
      rw [columns_on]
      split
      · exact h
      · rename_i hnew
        rw [← List.concat_eq_append]
        exact List.Nodup.concat hnew h

theorem columns_ofCalls (calls : List Call) :
    (ofCalls calls).columns = (calls.map Call.column).eraseDups := by
  -- from the last call: only whether its column is new depends on the calls before
  induction calls using List.reverseRecOn with
  | nil => rfl
  | append_singleton calls call ih =>
      have hmem : call.column ∈ (ofCalls calls).columns ↔ call.column ∈ calls.map Call.column := by
        rw [ih, List.mem_eraseDups]
      have hstep : ofCalls (calls ++ [call]) = call.on (ofCalls calls) := by simp [ofCalls]
      rw [hstep, columns_on, List.map_append, List.eraseDups_append, ← ih, List.map_singleton]
      by_cases hseen : call.column ∈ calls.map Call.column
      · have hnone : [call.column].removeAll (calls.map Call.column) = [] := by
          simpa [List.removeAll] using hseen
        rw [if_pos (hmem.mpr hseen), hnone, List.eraseDups_nil, List.append_nil]
      · have hone : [call.column].removeAll (calls.map Call.column) = [call.column] := by
          simpa [List.removeAll] using hseen
        rw [if_neg (mt hmem.mp hseen), hone]
        rfl

end Call

/-- A condition with further operators; without any it stays as it is. -/
def extended (old : Option Condition) (added : List (Operator × Operand)) : Option Condition :=
  if added = [] then old else some (.ops ((old.map Condition.toOps).getD [] ++ added))

namespace Call

variable {f : Filter} {call : Call} {column : String}

/-- Calls that add operators only keep what the column was filtered by. -/
theorem get?_foldl_of_adds (f : Filter) {calls : List Call}
    (h : ∀ call ∈ calls, call.column = column → call.replacement? = none) :
    (calls.foldl on f).get? column = extended (f.get? column) (additions column calls) := by
  -- the calls behind the first one start with the filter that it leaves
  induction calls generalizing f with
  | nil => rfl
  | cons call calls ih =>
      rw [List.foldl_cons, ih (call.on f) fun call' hmem => h call' (List.mem_cons_of_mem _ hmem)]
      by_cases hcolumn : call.column = column
      · have hadds := h call List.mem_cons_self hcolumn
        obtain ⟨entry, hentry⟩ := exists_addition hadds
        have hadditions : additions column (call :: calls) = entry :: additions column calls := by
          simp [additions, hcolumn, hentry]
        have hget : (call.on f).get? column =
            some (.ops (((f.get? column).map Condition.toOps).getD [] ++ [entry])) := by
          rw [← hcolumn, get?_on_self, change, hadds, hentry]
          rfl
        rw [hadditions, hget, extended, extended, if_neg (List.cons_ne_nil _ _)]
        split
        · rename_i hnone
          rw [hnone]
        · simp [Condition.toOps]
      · have hadditions : additions column (call :: calls) = additions column calls := by
          simp [additions, hcolumn]
        rw [hadditions, get?_on_of_ne f hcolumn]

theorem additions_eq_nil_iff {calls : List Call}
    (h : ∀ call ∈ calls, call.column = column → call.replacement? = none) :
    additions column calls = [] ↔ ∀ call ∈ calls, call.column ≠ column := by
  rw [additions, List.filterMap_eq_nil_iff]
  constructor
  · intro hnone call hcall hcolumn
    obtain ⟨entry, hentry⟩ := exists_addition (h call hcall hcolumn)
    have hmem : call ∈ calls.filter fun call => call.column = column := by
      simpa using ⟨hcall, hcolumn⟩
    cases hentry.symm.trans (hnone call hmem)
  · intro hothers call hmem
    have hmem : call ∈ calls ∧ call.column = column := by simpa using hmem
    exact absurd hmem.2 (hothers call hmem.1)

/-- The calls on a column only add operators, or one of them is the last that does not. -/
theorem adds_or_split (column : String) (calls : List Call) :
    (∀ call ∈ calls, call.column = column → call.replacement? = none) ∨
      ∃ before call c after, calls = before ++ call :: after ∧ call.column = column ∧
        call.replacement? = some c ∧
        ∀ call ∈ after, call.column = column → call.replacement? = none := by
  induction calls with
  | nil => exact Or.inl fun call hcall => absurd hcall List.not_mem_nil
  | cons call calls ih =>
      -- the first call matters only if none behind it replaces the condition
      rcases ih with hadds | ⟨before, call', c, after, rfl, hsplit⟩
      · by_cases hcolumn : call.column = column
        · cases hreplaces : call.replacement? with
          | none => exact Or.inl (List.forall_mem_cons.mpr ⟨fun _ => hreplaces, hadds⟩)
          | some c => exact Or.inr ⟨[], call, c, calls, rfl, hcolumn, hreplaces, hadds⟩
        · exact Or.inl (List.forall_mem_cons.mpr ⟨fun heq => absurd heq hcolumn, hadds⟩)
      · exact Or.inr ⟨call :: before, call', c, after, rfl, hsplit⟩

theorem get?_ofCalls_of_split {before after : List Call} {c : Condition}
    (same : call.column = column) (replaces : call.replacement? = some c)
    (adds : ∀ call ∈ after, call.column = column → call.replacement? = none) :
    (ofCalls (before ++ call :: after)).get? column =
      extended (some c) (additions column after) := by
  have hget : (call.on (ofCalls before)).get? column = some c := by
    rw [← same, get?_on_self, change, replaces]
  rw [← hget, ofCalls, List.foldl_append, List.foldl_cons]
  exact get?_foldl_of_adds _ adds

theorem leaves_iff {calls : List Call} {k : Option Condition} :
    Leaves column calls k ↔ (ofCalls calls).get? column = k := by
  constructor
  · intro h
    cases h with
    | untouched others =>
        have hadds : ∀ call ∈ calls, call.column = column → call.replacement? = none :=
          fun call hcall hcolumn => absurd hcolumn (others call hcall)
        rw [ofCalls, get?_foldl_of_adds _ hadds, (additions_eq_nil_iff hadds).mpr others]
        rfl
    | @replaced before after call c splits same replaces others =>
        have hadds : ∀ call ∈ after, call.column = column → call.replacement? = none :=
          fun call hcall hcolumn => absurd hcolumn (others call hcall)
        rw [splits, get?_ofCalls_of_split same replaces hadds,
          (additions_eq_nil_iff hadds).mpr others]
        rfl
    | @extended before after call c splits same replaces adds some_addition =>
        rw [splits, get?_ofCalls_of_split same replaces adds, Filter.extended,
          if_neg some_addition]
        rfl
    | collected adds some_addition =>
        rw [ofCalls, get?_foldl_of_adds _ adds, Filter.extended, if_neg some_addition]
        rfl
  · rintro rfl
    rcases adds_or_split column calls with
      hadds | ⟨before, call, c, after, hsplits, hsame, hreplaces, hadds⟩
    · rw [ofCalls, get?_foldl_of_adds _ hadds, Filter.extended]
      split
      · rename_i hnone
        exact .untouched ((additions_eq_nil_iff hadds).mp hnone)
      · rename_i hsome
        exact .collected hadds hsome
    · rw [hsplits, get?_ofCalls_of_split hsame hreplaces hadds, ← hsplits, Filter.extended]
      split
      · rename_i hnone
        exact .replaced hsplits hsame hreplaces ((additions_eq_nil_iff hadds).mp hnone)
      · rename_i hsome
        exact .extended hsplits hsame hreplaces hadds hsome

end Call

/-! ## Pushing an operator -/

/-- The predicates of a filter, cut directly behind those of a column; those of a new column stand
last. -/
inductive CutBehind (o : Options) (f : Filter) (column : String) :
    List Predicate → List Predicate → Prop where
  | last {ps : List Predicate} (new : column ∉ f.columns) (all : (f.predicates o).result = .ok ps) :
      CutBehind o f column ps []
  | inside {entries rest : List (String × Condition)} {c : Condition}
      {before after : List Predicate} (splits : f.entries = entries ++ (column, c) :: rest)
      (first : column ∉ entries.map Prod.fst)
      (through : ((mk (entries ++ [(column, c)])).predicates o).result = .ok before)
      (behind : ((mk rest).predicates o).result = .ok after) : CutBehind o f column before after

/-- An operator that is pushed on a column adds predicates to a restriction, and takes none away. -/
structure PushAdds (o : Options) (f : Filter) (column : String) (op : Operator) (operand : Operand)
    (before added after : List Predicate) (w : Fragment) : Prop where
  cut : f.CutBehind o column before after
  /-- The predicates of the filter as it was. -/
  predicates : (f.predicates o).result = .ok (before ++ after)
  predicates_push : ((f.push column op operand).predicates o).result =
    .ok (before ++ (added ++ after))
  build_push : (o.buildWhere (f.push column op operand)).result =
    .ok (Predicate.restriction (before ++ (added ++ after)))
  /-- The values of the restriction as it was. -/
  params : w.params = before.flatMap Predicate.params ++ after.flatMap Predicate.params
  params_push : (Predicate.restriction (before ++ (added ++ after))).params =
    before.flatMap Predicate.params ++
      (added.flatMap Predicate.params ++ after.flatMap Predicate.params)

variable {o : Options} {f : Filter} {column : String} {n : Name} {op : Operator}
  {operand : Operand} {added : List Predicate} {w : Fragment}

theorem push_of_notMem (hnew : column ∉ f.columns) :
    f.push column op operand = ⟨f.entries ++ [(column, .ops [(op, operand)])]⟩ :=
  congrArg mk (alterEntries_of_notMem hnew)

theorem push_of_split {entries rest : List (String × Condition)} {c : Condition}
    (hsplits : f.entries = entries ++ (column, c) :: rest)
    (hfirst : column ∉ entries.map Prod.fst) :
    f.push column op operand =
      ⟨entries ++ (column, .ops (c.toOps ++ [(op, operand)])) :: rest⟩ := by
  rw [push, hsplits, alterEntries_of_split hfirst]
  rfl

theorem isEmpty_push (f : Filter) (column : String) (op : Operator) (operand : Operand) :
    (f.push column op operand).isEmpty = false := by
  rw [isEmpty, List.isEmpty_eq_false_iff]
  rcases notMem_or_split column f.entries with hnew | ⟨entries, c, rest, hsplits, hfirst⟩
  · rw [push_of_notMem hnew]
    exact List.concat_ne_nil _ _
  · rw [push_of_split hsplits hfirst]
    simp

theorem predicates_mk {entries : List (String × Condition)}
    (h : ∀ entry ∈ entries, o.AdmitsEntry entry) :
    ((mk entries).predicates o).result = .ok ((tests ⟨entries⟩).map (predicateOf o.dialect)) :=
  predicates_eq_ok_iff.mpr ⟨h, rfl⟩

/-- A pushed operator gives its predicates the place behind those of its column. -/
theorem exists_cut_push {ps : List Predicate} (hlisted : o.hasColumn column = true)
    (hescapable : Name.Escapable column) (hadmits : op.Admits operand)
    (hps : (f.predicates o).result = .ok ps) :
    ∃ before after, f.CutBehind o column before after ∧ ps = before ++ after ∧
      ((f.push column op operand).predicates o).result =
        .ok (before ++ ((Test.ofOperator op operand).map (Test.on (.ofText o.dialect column)) ++
          after)) := by
  obtain ⟨hentries, hall⟩ := predicates_eq_ok_iff.mp hps
  have hadded : ((Test.ofOperator op operand).map fun t => (column, t)).map
      (predicateOf o.dialect) =
        (Test.ofOperator op operand).map (Test.on (.ofText o.dialect column)) := List.map_map
  rcases notMem_or_split column f.entries with hnew | ⟨entries, c, rest, hsplits, hfirst⟩
  · refine ⟨ps, [], .last hnew hps, (List.append_nil _).symm, ?_⟩
    have hpushed : o.AdmitsEntry (column, .ops [(op, operand)]) :=
      ⟨hlisted, hescapable, Condition.wellFormed_single_iff.mpr hadmits⟩
    have hnow := List.forall_mem_append.mpr ⟨hentries, List.forall_mem_singleton.mpr hpushed⟩
    rw [push_of_notMem hnew, predicates_mk hnow, tests_append, tests_cons,
      Condition.tests_single, hall, ← hadded]
    simp [tests]
  · -- the entry of the column grows in its place, and its old tests stay in front of the new ones
    rw [hsplits, List.forall_mem_append, List.forall_mem_cons] at hentries
    obtain ⟨hbefore, hc, hafter⟩ := hentries
    have hthrough : ∀ entry ∈ entries ++ [(column, c)], o.AdmitsEntry entry :=
      List.forall_mem_append.mpr ⟨hbefore, List.forall_mem_singleton.mpr hc⟩
    have hpushed : o.AdmitsEntry (column, .ops (c.toOps ++ [(op, operand)])) :=
      ⟨hc.listed, hc.escapable, hc.wellFormed.concat hadmits⟩
    refine ⟨_, _, .inside hsplits hfirst (predicates_mk hthrough) (predicates_mk hafter), ?_, ?_⟩
    · rw [hall, ← List.map_append, ← tests_append, List.append_assoc, List.singleton_append,
        ← hsplits]
    · have hnow := List.forall_mem_append.mpr ⟨hbefore, List.forall_mem_cons.mpr ⟨hpushed, hafter⟩⟩
      rw [push_of_split hsplits hfirst, predicates_mk hnow, tests_append, tests_append, tests_cons,
        tests_cons, Condition.tests_concat, ← hadded]
      simp [tests]

theorem exists_pushAdds (hname : o.columnName column = .ok n)
    (hadded : ((Condition.ops [(op, operand)]).compile column n).result = .ok added)
    (hw : (o.buildWhere f).result = .ok w) :
    ∃ before after, f.PushAdds o column op operand before added after w := by
  obtain ⟨hlisted, hescapable, rfl⟩ := Options.columnName_eq_ok_iff.mp hname
  obtain ⟨hsingle, rfl⟩ := Condition.compile_eq_ok_iff.mp hadded
  obtain ⟨ps, hps, -⟩ := Options.buildWhere_eq_ok_iff.mp hw
  obtain ⟨before, after, hcut, rfl, hpush⟩ := exists_cut_push hlisted hescapable
    (Condition.wellFormed_single_iff.mp hsingle) hps
  rw [Condition.tests_single]
  refine ⟨before, after, hcut, hps, hpush, ?_, ?_, ?_⟩
  · refine Options.buildWhere_eq_ok_iff.mpr ⟨_, hpush, ?_⟩
    rw [isEmpty_push]
    rfl
  · rw [Options.params_of_buildWhere hw hps, List.flatMap_append]
  · rw [Predicate.restriction, List.flatMap_append, List.flatMap_append]

/-- Calls make an ordered map from columns to conditions, in which no call touches the columns of
others and no added operator takes the place of what was there.  So an operator that is pushed on
a column of a filter that can be built adds its predicates behind those of the column. -/
theorem ofCalls_ordered (calls : List Call) :
    (ofCalls calls).columns = (calls.map Call.column).eraseDups ∧
    (ofCalls calls).columns.Nodup ∧
    (∀ column k, (ofCalls calls).get? column = k ↔ Call.Leaves column calls k) ∧
    (∀ (f : Filter) (call : Call),
      (call.on f).entries.filter (fun entry => entry.1 ≠ call.column) =
        f.entries.filter fun entry => entry.1 ≠ call.column) ∧
    ∀ (o : Options) (f : Filter) (column : String) (n : Name) (op : Operator) (operand : Operand)
        (added : List Predicate) (w : Fragment),
      o.columnName column = .ok n →
      ((Condition.ops [(op, operand)]).compile column n).result = .ok added →
      (o.buildWhere f).result = .ok w →
      ∃ before after, f.PushAdds o column op operand before added after w := by
  refine ⟨Call.columns_ofCalls calls, ?_, fun column k => Call.leaves_iff.symm, Call.others_on, ?_⟩
  · exact Call.nodup_columns_foldl calls List.nodup_nil
  · intro o f column n op operand added w hname hadded hw
    exact exists_pushAdds hname hadded hw

/-- Calls on three columns: an equality that gets an operator, a list that null takes the place of,
and operators that a list takes the place of. -/
def tenantCalls : List Call :=
  [.eq "tenant" (.integer 7), .any "id" [.integer 1, .integer 2], .op "age" .ge (.integer 18),
    .op "tenant" .ne (.integer 3), .eq "id" .null, .isNull "age",
    .condition "age" (.list [.integer 5])]

/-- Options that list the columns of the calls. -/
def tenantOptions : Options := .defaults .sqlite "t" ["tenant", "id", "age"]

theorem ofCalls_ordered_tenant :
    (ofCalls tenantCalls).columns = ["tenant", "id", "age"] ∧
    Call.Leaves "tenant" tenantCalls
      (some (.ops [(.eq, .value (.integer 7)), (.ne, .value (.integer 3))])) ∧
    ∃ n added w before after,
      tenantOptions.columnName "tenant" = .ok n ∧
      ((Condition.ops [(.lt, .value (.integer 9))]).compile "tenant" n).result = .ok added ∧
      (tenantOptions.buildWhere (ofCalls tenantCalls)).result = .ok w ∧
      (ofCalls tenantCalls).PushAdds tenantOptions "tenant" .lt (.value (.integer 9))
        before added after w ∧
      (Predicate.restriction (before ++ (added ++ after))).sql =
        "WHERE \"tenant\" = ? AND \"tenant\" <> ? AND \"tenant\" < ? AND \"id\" IS NULL AND " ++
          "\"age\" IN(?)" := by
  obtain ⟨hcolumns, -, hconditions, -, hpush⟩ := ofCalls_ordered tenantCalls
  obtain ⟨before, after, hadds⟩ := hpush tenantOptions (ofCalls tenantCalls) "tenant" _ .lt
    (.value (.integer 9)) _ _ rfl rfl rfl
  refine ⟨hcolumns.trans (by decide), (hconditions _ _).mp (by decide), _, _, _, before, after,
    rfl, rfl, rfl, hadds, ?_⟩
  rw [← Except.ok.inj hadds.build_push]
  decide +kernel

end Filter

end BoundSql
