import BoundSql.Database.Session
import BoundSql.Proofs.Insert.Partition

/-!
# Inserts over a store that appends rows

Drivers are considered that append the rows of an insert to a store and give the
`k`-th row ever inserted the identifier `g k`.  Such a driver reads the statement text:
it learns from it how many values make a row and whether identifiers are asked for.

Under such a driver an insert of many rows ends the same however its rows are cut into
batches; only the number of statements tells.  Nothing is claimed about drivers that
fail, nor about limits that admit no row at all.
-/

namespace BoundSql

open Lexeme (plainText)

/-! ## Identifiers -/

/-- The identifiers of so many rows from a row on. -/
def idsFrom (g : Nat → Value) (first count : Nat) : List Value :=
  (List.range count).map fun i => g (first + i)

theorem length_idsFrom (g : Nat → Value) (first count : Nat) :
    (idsFrom g first count).length = count := by
  simp [idsFrom]

theorem idsFrom_add (g : Nat → Value) (first m n : Nat) :
    idsFrom g first (m + n) = idsFrom g first m ++ idsFrom g (first + m) n := by
  simp [idsFrom, List.range_add, Nat.add_assoc, Function.comp_def]

/-- An integer of 64 bits that is larger by so much is reached by counting up. -/
theorem add_ofNat_eq {i j : Int64} {k : Nat} (h : j.toInt = i.toInt + k) :
    i + Int64.ofNat k = j := by
  rw [← Int64.ofInt_toInt j, h, Int64.ofInt_add, Int64.ofInt_toInt, Int64.ofInt_eq_ofNat]

/-- The identifiers of so many rows from a row on are consecutive integers of 64 bits. -/
def Consecutive (g : Nat → Value) (first count : Nat) : Prop :=
  ∃ base : Int, ∀ k < count, ∃ i : Int64, g (first + k) = .integer i ∧ i.toInt = base + k

namespace Consecutive

variable {g : Nat → Value} {first m n : Nat}

theorem left (h : Consecutive g first (m + n)) : Consecutive g first m := by
  obtain ⟨base, hg⟩ := h
  exact ⟨base, fun k hk => hg k (by omega)⟩

theorem right (h : Consecutive g first (m + n)) : Consecutive g (first + m) n := by
  obtain ⟨base, hg⟩ := h
  refine ⟨base + m, fun k hk => ?_⟩
  obtain ⟨i, hi, hint⟩ := hg (m + k) (by omega)
  refine ⟨i, by rw [Nat.add_assoc]; exact hi, ?_⟩
  rw [hint]
  omega

/-- Counting up from the first identifier gives the others, because none overflows. -/
theorem consecutive_eq {i : Int64} (h : Consecutive g first n) (hn : 0 < n)
    (hi : g first = .integer i) : Collector.consecutive i n = idsFrom g first n := by
  obtain ⟨base, hg⟩ := h
  obtain ⟨i', hi', hbase⟩ := hg 0 hn
  rw [Nat.add_zero, hi] at hi'
  cases hi'
  unfold Collector.consecutive idsFrom
  apply List.map_congr_left
  intro k hk
  obtain ⟨j, hj, hint⟩ := hg k (List.mem_range.mp hk)
  have hnext : j.toInt = i.toInt + k := by omega
  rw [hj, add_ofNat_eq hnext]

end Consecutive

/-! ## Drivers that append -/

/-- What an appending driver reports for an insert of so many rows, the first of which is the
row with a given number. -/
structure Reply (d : Dialect) (idColumn : Option String) (g : Nat → Value) (first count : Nat)
    (sql : String) (raw : RawResult) : Prop where
  affected : raw.affected = .ofNat count
  /-- A text that asks for identifiers gets one cell for each row. -/
  rows : ∀ c ∈ idColumn, AsksFor d c sql →
    raw.rows = (List.range count).map fun i => ⟨[(c, g (first + i))]⟩
  /-- A text that does not ask gets none. -/
  silent : ∀ c ∈ idColumn, ¬AsksFor d c sql → raw.rows = []
  insertId : ∀ i, g first = .integer i → raw.insertId = some i

/-- A driver that appends the rows of every insert to its store and counts them. -/
structure Executor.Appends {σ : Type} (x : Executor σ) (d : Dialect) (idColumn : Option String)
    (g : Nat → Value) (store : σ → List (List Value)) (inserted : σ → Nat) : Prop where
  execute : ∀ (s : σ) (width : Nat) (rows : List (List Value)) (sql : String), 0 < width →
    rows ≠ [] → (∀ row ∈ rows, row.length = width) → InsertText d width rows.length sql →
      ∃ raw next, (x.execute sql rows.flatten).Yields s (.ok raw) next ∧
        store next = store s ++ rows ∧ inserted next = inserted s + rows.length ∧
          Reply d idColumn g (inserted s) rows.length sql raw

/-! ## Collecting the reports -/

namespace Collector

/-- A collector under given options that has learned so much. -/
def holding (o : Options) (total : Nat) (ids : List Value) (affected : UInt64)
    (statements : Nat) : Collector :=
  { new o total with ids := ids, affected := affected, statements := statements }

/-- The identifiers that are collected for so many rows from a row on. -/
def collected (o : Options) (g : Nat → Value) (first count : Nat) : List Value :=
  if (new o 0).collectsIds then idsFrom g first count else []

variable {o : Options} {g : Nat → Value} {first count total statements : Nat} {affected : UInt64}
  {ids : List Value} {raw : RawResult}

theorem counted_holding :
    (holding o total ids affected statements).counted raw =
      holding o total ids (affected + raw.affected) (statements + 1) := rfl

theorem collectsIds_holding :
    (holding o total ids affected statements).collectsIds = (new o 0).collectsIds := rfl

theorem idsOf_holding (rows : Nat) :
    (holding o total ids affected statements).idsOf rows raw = (new o 0).idsOf rows raw := rfl

/-- Where identifiers are not collected, an answer is only counted. -/
theorem record_of_not_collectsIds (h : (new o 0).collectsIds = false) (rows : Nat) :
    record rows raw (holding o total ids affected statements) =
      (pure (), holding o total ids (affected + raw.affected) (statements + 1)) := by
  simp [record, counted_holding, collectsIds_holding, h]

theorem record_of_length_eq {rows : Nat} (h : (new o 0).collectsIds = true)
    (hlength : ((new o 0).idsOf rows raw).length = rows) :
    record rows raw (holding o total ids affected statements) =
      (pure (), holding o total (ids ++ (new o 0).idsOf rows raw) (affected + raw.affected)
        (statements + 1)) := by
  simp only [record, counted_holding, collectsIds_holding, idsOf_holding, h, hlength, if_true]
  rfl

/-- An answer with a wrong number of identifiers is counted, and refused with the two numbers that
should have been one. -/
theorem record_of_length_ne {rows : Nat} (h : (new o 0).collectsIds = true)
    (hlength : ((new o 0).idsOf rows raw).length ≠ rows) :
    record rows raw (holding o total ids affected statements) =
      (⟨[.log (.idsMissing (statements + 1) ((new o 0).idsOf rows raw).length rows)],
          .error (.idCountMismatch rows ((new o 0).idsOf rows raw).length)⟩,
        holding o total ids (affected + raw.affected) (statements + 1)) := by
  simp only [record, counted_holding, collectsIds_holding, idsOf_holding, h, hlength, if_true,
    if_false]
  rfl

theorem finish_of_length_eq (h : (new o 0).collectsIds = true → ids.length = total) :
    (holding o total ids affected statements).finish = .ok ⟨ids, affected, statements⟩ := by
  rw [finish, if_neg]
  · rfl
  · rintro ⟨hcollects, hlength⟩
    exact hlength (h hcollects)

theorem finish_of_length_ne (h : (new o 0).collectsIds = true) (hlength : ids.length ≠ total) :
    (holding o total ids affected statements).finish =
      .error (.idCountMismatch total ids.length) := by
  rw [finish, if_pos]
  · rfl
  · exact ⟨h, hlength⟩

theorem length_collected (h : (new o 0).collectsIds = true) :
    (collected o g first count).length = count := by
  rw [collected, if_pos h, length_idsFrom]

theorem collected_add (o : Options) (g : Nat → Value) (first m n : Nat) :
    collected o g first (m + n) = collected o g first m ++ collected o g (first + m) n := by
  unfold collected
  split
  · exact idsFrom_add g first m n
  · rfl

theorem filterMap_get?_cells (c : String) (vs : List Value) :
    (vs.map fun v => (⟨[(c, v)]⟩ : Row)).filterMap (fun row => row.get? c) = vs := by
  induction vs with
  | nil => rfl
  | cons v vs ih =>
      have hcell : (⟨[(c, v)]⟩ : Row).get? c = some v := by simp [Row.get?]
      rw [List.map_cons, List.filterMap_cons, hcell, ih]

/-- The reader of identifiers finds one for each row, since the text of an insert asks for them
exactly if the reader looks for them. -/
theorem idsOf_of_reply {columns : List String} {params : List Value} {raw : RawResult}
    (hcount : 0 < count) (hcollects : (new o 0).collectsIds = true)
    (hconsecutive : o.dialect.idStrategy = .firstInsertId → Consecutive g first count)
    (hreply : Reply o.dialect o.idColumn g first count
      (Fragment.sql ⟨o.insertPieces columns count, params⟩) raw) :
    (new o 0).idsOf count raw = idsFrom g first count := by
  have hreturned (hstrategy : o.dialect.idStrategy ≠ .firstInsertId)
      (hcolumn : o.idColumn.isSome = true) :
      raw.rows.filterMap (fun row => row.get? (o.idColumn.getD "")) = idsFrom g first count := by
    obtain ⟨c, hc⟩ := Option.isSome_iff_exists.mp hcolumn
    have hasks : AsksFor o.dialect c (Fragment.sql ⟨o.insertPieces columns count, params⟩) :=
      Options.asksFor_insertPieces hc hstrategy count params
    have hrows := hreply.rows c hc hasks
    rw [hc, Option.getD_some, hrows, ← filterMap_get?_cells c (idsFrom g first count), idsFrom,
      List.map_map]
    rfl
  unfold collectsIds at hcollects
  unfold idsOf
  simp only [new] at hcollects ⊢
  cases hs : o.dialect.idStrategy with
  -- here the text asks for nothing: the first identifier is reported in any case
  | firstInsertId =>
      obtain ⟨base, hg⟩ := hconsecutive hs
      obtain ⟨i, hi, -⟩ := hg 0 hcount
      simp only [hreply.insertId i hi]
      exact (hconsecutive hs).consecutive_eq hcount hi
  | returning =>
      rw [hs] at hcollects
      exact hreturned (by rw [hs]; decide) hcollects
  | output =>
      rw [hs] at hcollects
      exact hreturned (by rw [hs]; decide) hcollects

theorem record_of_reply {columns : List String} {params : List Value} (hcount : 0 < count)
    (hconsecutive : o.dialect.idStrategy = .firstInsertId → Consecutive g first count)
    (hreply : Reply o.dialect o.idColumn g first count
      (Fragment.sql ⟨o.insertPieces columns count, params⟩) raw) :
    record count raw (holding o total ids affected statements) =
      (pure (), holding o total (ids ++ collected o g first count) (affected + .ofNat count)
        (statements + 1)) := by
  have haffected : affected + raw.affected = affected + .ofNat count := by rw [hreply.affected]
  rw [← haffected, collected]
  cases hcollects : (new o 0).collectsIds with
  | false =>
      rw [if_neg Bool.false_ne_true, List.append_nil]
      exact record_of_not_collectsIds hcollects count
  | true =>
      have hids : (new o 0).idsOf count raw = idsFrom g first count :=
        idsOf_of_reply hcount hcollects hconsecutive hreply
      rw [if_pos rfl, ← hids]
      exact record_of_length_eq hcollects (by rw [hids, length_idsFrom])

end Collector

/-! ## Running the batches -/

namespace Session

variable {σ : Type} {x : Executor σ} {o : Options}

theorem yields_currentOptions (o : Options) (s : σ) :
    Step.Yields currentOptions (⟨o, s⟩ : Session σ) (.ok o) ⟨o, s⟩ := ⟨rfl, rfl⟩

theorem build_yields {α : Type} {f : Options → Traced QueryError α} {r : Except QueryError α}
    (h : (f o).result = r) (s : σ) :
    Step.Yields (build f) (⟨o, s⟩ : Session σ) (r.mapError .query) ⟨o, s⟩ := by
  subst h
  exact ⟨rfl, rfl⟩

theorem drive_yields {α : Type} {step : Step σ DbError α} {s next : σ}
    {outcome : Except DbError α} (h : step.Yields s outcome next) :
    Step.Yields (drive step) ⟨o, s⟩ outcome ⟨o, next⟩ := by
  obtain ⟨hresult, hnext⟩ := h
  refine ⟨hresult, ?_⟩
  show (⟨o, (step s).2⟩ : Session σ) = ⟨o, next⟩
  rw [hnext]

theorem run_yields {s next : σ} {kind : StatementKind} {f : Fragment} {raw : RawResult}
    (h : (x.execute f.sql f.params).Yields s (.ok raw) next) :
    Step.Yields (run x kind f) ⟨o, s⟩ (.ok raw) ⟨o, next⟩ := by
  refine (yields_currentOptions o s).bind ?_
  refine (Step.yields_lift rfl _).bind ?_
  refine (Step.yields_lift rfl _).bind ?_
  refine (drive_yields h).bind ?_
  exact (Step.yields_lift rfl _).bind (Step.yields_pure raw _)

theorem run_yields_error {s next : σ} {kind : StatementKind} {f : Fragment} {e : DbError}
    (h : (x.execute f.sql f.params).Yields s (.error e) next) :
    Step.Yields (run x kind f) ⟨o, s⟩ (.error e) ⟨o, next⟩ := by
  refine (yields_currentOptions o s).bind ?_
  refine (Step.yields_lift rfl _).bind ?_
  refine (Step.yields_lift rfl _).bind ?_
  exact (drive_yields h).bind_error

/-- After a batch whose answer is accepted the run goes on. -/
theorem runBatches_accepted {c next : Collector} {b : InsertBatch} {raw : RawResult} {s middle : σ}
    (hexecute : (x.execute b.fragment.sql b.fragment.params).Yields s (.ok raw) middle)
    (hrecord : Collector.record b.rowCount raw c = (pure (), next)) {rest : List InsertBatch}
    {outcome : Except DbError Collector} {last : Session σ}
    (hrest : Step.Yields (runBatches x next rest) ⟨o, middle⟩ outcome last) :
    Step.Yields (runBatches x c (b :: rest)) ⟨o, s⟩ outcome last := by
  rw [runBatches]
  refine (yields_currentOptions o s).bind ?_
  refine (Step.yields_lift rfl _).bind ?_
  refine (run_yields hexecute).bind ?_
  simp only [hrecord]
  exact (Step.yields_lift rfl _).bind hrest

/-- A batch that cannot be executed ends the run. -/
theorem runBatches_failed {c : Collector} {b : InsertBatch} {e : DbError} {s last : σ}
    (hexecute : (x.execute b.fragment.sql b.fragment.params).Yields s (.error e) last)
    (rest : List InsertBatch) :
    Step.Yields (runBatches x c (b :: rest)) ⟨o, s⟩ (.error e) ⟨o, last⟩ := by
  rw [runBatches]
  refine (yields_currentOptions o s).bind ?_
  refine (Step.yields_lift rfl _).bind ?_
  exact (run_yields_error hexecute).bind_error

section Appending

variable {g : Nat → Value} {store : σ → List (List Value)} {inserted : σ → Nat}

/-- One batch adds its rows to the store and its identifiers to the collector, and the run goes
on from there. -/
theorem runBatches_cons (hx : x.Appends o.dialect o.idColumn g store inserted)
    {columns : List String} (hcolumns : columns ≠ []) {group : List (List Value)}
    (hne : group ≠ []) (haligned : ∀ row ∈ group, row.length = columns.length) {s : σ}
    (hconsecutive : o.dialect.idStrategy = .firstInsertId →
      Consecutive g (inserted s) group.length)
    (start total : Nat) (ids : List Value) (affected : UInt64) (statements : Nat) :
    ∃ middle, store middle = store s ++ group ∧ inserted middle = inserted s + group.length ∧
      ∀ rest outcome last,
        Step.Yields
          (runBatches x (.holding o total (ids ++ Collector.collected o g (inserted s) group.length)
            (affected + .ofNat group.length) (statements + 1)) rest) ⟨o, middle⟩ outcome last →
        Step.Yields
          (runBatches x (.holding o total ids affected statements)
            (⟨⟨o.insertPieces columns group.length, group.flatten⟩, start,
              start + group.length⟩ :: rest)) ⟨o, s⟩ outcome last := by
  have hpos : 0 < group.length := List.length_pos_iff.mpr hne
  have hwidth : 0 < columns.length := List.length_pos_iff.mpr hcolumns
  obtain ⟨raw, middle, hexecute, hstore, hinserted, hreply⟩ :=
    hx.execute s columns.length group _ hwidth hne haligned
      (Options.insertText_insertPieces o columns group.length group.flatten)
  have hrecord : Collector.record group.length raw (.holding o total ids affected statements) =
      (pure (), .holding o total (ids ++ Collector.collected o g (inserted s) group.length)
        (affected + .ofNat group.length) (statements + 1)) :=
    Collector.record_of_reply hpos hconsecutive hreply
  have hcount : (⟨⟨o.insertPieces columns group.length, group.flatten⟩, start,
      start + group.length⟩ : InsertBatch).rowCount = group.length :=
    Nat.add_sub_cancel_left _ _
  refine ⟨middle, hstore, hinserted, fun rest outcome last hrest => ?_⟩
  -- the batch gets a name, so that its text is not unfolded
  obtain ⟨b, hb⟩ : ∃ b : InsertBatch, b = ⟨⟨o.insertPieces columns group.length, group.flatten⟩,
      start, start + group.length⟩ := ⟨_, rfl⟩
  have hexecuted : (x.execute b.fragment.sql b.fragment.params).Yields s (.ok raw) middle := by
    rw [hb]
    exact hexecute
  rw [← hb] at hcount ⊢
  exact runBatches_accepted hexecuted (by rw [hcount, hrecord]) hrest

theorem runBatches_yields (hx : x.Appends o.dialect o.idColumn g store inserted)
    {columns : List String} (hcolumns : columns ≠ []) {groups : List (List (List Value))}
    (hgroups : ∀ group ∈ groups, group ≠ [])
    (haligned : ∀ row ∈ groups.flatten, row.length = columns.length) {s : σ}
    (hconsecutive : o.dialect.idStrategy = .firstInsertId →
      Consecutive g (inserted s) groups.flatten.length)
    (start total : Nat) (ids : List Value) (affected : UInt64) (statements : Nat) :
    ∃ next, Step.Yields
        (runBatches x (.holding o total ids affected statements)
          (BulkInsert.batchesFrom o columns start groups)) ⟨o, s⟩
        (.ok (.holding o total (ids ++ Collector.collected o g (inserted s) groups.flatten.length)
          (affected + .ofNat groups.flatten.length) (statements + groups.length))) ⟨o, next⟩ ∧
      store next = store s ++ groups.flatten := by
  -- what is collected before a batch is left open, so that the run may start at any batch
  induction groups generalizing s start ids affected statements with
  | nil =>
      refine ⟨s, ?_, by simp⟩
      have hnone : Collector.collected o g (inserted s) 0 = [] := by
        unfold Collector.collected
        split <;> rfl
      simpa [BulkInsert.batchesFrom, runBatches, hnone] using
        Step.yields_pure (Collector.holding o total ids affected statements) (⟨o, s⟩ : Session σ)
  | cons group groups ih =>
      rw [List.flatten_cons, List.length_append] at hconsecutive
      obtain ⟨middle, hstore, hinserted, hstep⟩ := runBatches_cons hx hcolumns
        (hgroups group List.mem_cons_self) (fun row hrow => haligned row (by simp [hrow]))
        (fun hs => (hconsecutive hs).left) start total ids affected statements
      have hrest : o.dialect.idStrategy = .firstInsertId →
          Consecutive g (inserted middle) groups.flatten.length := by
        intro hs
        rw [hinserted]
        exact (hconsecutive hs).right
      obtain ⟨next, hnext, hlast⟩ := ih (fun g hg => hgroups g (List.mem_cons_of_mem group hg))
        (fun row hrow => haligned row (List.mem_append_right group hrow)) hrest
        (start + group.length) (ids ++ Collector.collected o g (inserted s) group.length)
        (affected + .ofNat group.length) (statements + 1)
      rw [hinserted, List.append_assoc, ← Collector.collected_add, UInt64.add_assoc,
        ← UInt64.ofNat_add, Nat.add_assoc statements, Nat.add_comm 1, ← List.length_append,
        ← List.flatten_cons] at hnext
      refine ⟨next, hstep _ _ _ hnext, ?_⟩
      rw [hlast, hstore, List.flatten_cons, List.append_assoc]

theorem insertRows_yields (hx : x.Appends o.dialect o.idColumn g store inserted)
    {b : BulkInsert} (hb : b.Plannable o) {size : Nat}
    (hsize : batchSize b.columns.length o.maxParams o.maxInsertRows = .ok size)
    (hpos : 0 < size) {s : σ}
    (hconsecutive : o.dialect.idStrategy = .firstInsertId →
      Consecutive g (inserted s) b.rows.length) :
    ∃ next, Step.Yields (insertRows x b) ⟨o, s⟩
        (.ok ⟨Collector.collected o g (inserted s) b.rows.length, .ofNat b.rows.length,
          (BulkInsert.groups size b.rows).length⟩) ⟨o, next⟩ ∧
      store next = store s ++ b.rows := by
  have hcut : Cut size b.rows (BulkInsert.groups size b.rows) := BulkInsert.cut_groups hpos b.rows
  have hplan : (b.plan o).result = .ok (b.planOf o size) :=
    BulkInsert.plan_eq_ok_iff.mpr ⟨hb, size, hsize, rfl⟩
  have hgroups : ∀ group ∈ BulkInsert.groups size b.rows, group ≠ [] := fun group hgroup =>
    List.length_pos_iff.mp (hcut.length_pos_of_mem hpos group hgroup).1
  obtain ⟨next, hrun, hstore⟩ := runBatches_yields hx hb.columns_ne_nil hgroups
    (by rw [hcut.flatten_eq]; exact hb.aligned) (by rw [hcut.flatten_eq]; exact hconsecutive)
    0 b.rows.length [] 0 0
  rw [hcut.flatten_eq, List.nil_append, UInt64.zero_add, Nat.zero_add] at hrun
  rw [hcut.flatten_eq] at hstore
  refine ⟨next, ?_, hstore⟩
  have hbuild : Step.Yields (build b.plan) (⟨o, s⟩ : Session σ) (.ok (b.planOf o size)) ⟨o, s⟩ :=
    build_yields hplan s
  have hfinish : ((Traced.ofExcept (Collector.holding o b.rows.length
      (Collector.collected o g (inserted s) b.rows.length) (.ofNat b.rows.length)
        (BulkInsert.groups size b.rows).length).finish).mapError DbError.query).result =
      .ok ⟨Collector.collected o g (inserted s) b.rows.length, .ofNat b.rows.length,
        (BulkInsert.groups size b.rows).length⟩ := by
    rw [Collector.finish_of_length_eq Collector.length_collected]
    rfl
  refine hbuild.bind ((yields_currentOptions o s).bind ?_)
  rw [BulkInsert.statements_planOf b o hpos]
  exact Step.Yields.bind hrun (Step.yields_lift hfinish _)

end Appending

/-- A plan that cannot be made leaves the driver alone. -/
theorem insertRows_of_plan_error {b : BulkInsert} {e : QueryError} {s : σ}
    (h : (b.plan o).result = .error e) :
    Step.Yields (insertRows x b) ⟨o, s⟩ (.error (.query e)) ⟨o, s⟩ := by
  have hbuild : Step.Yields (build b.plan) (⟨o, s⟩ : Session σ) (.error (.query e)) ⟨o, s⟩ :=
    build_yields h s
  exact hbuild.bind_error

end Session

/-! ## Different limits -/

namespace Options

/-- Limits under which one row of a width fits into a statement. -/
def AdmitsRow (o : Options) (width : Nat) : Prop :=
  width ≤ o.maxParams ∧ o.maxInsertRows ≠ some 0

/-- The same options with other limits on the statements of an insert. -/
def withLimits (o : Options) (maxParams : Nat) (maxInsertRows : Option Nat) : Options :=
  { o with maxParams := maxParams, maxInsertRows := maxInsertRows }

theorem AdmitsRow.exists_batchSize {o : Options} {width : Nat} (h : o.AdmitsRow width)
    (hwidth : 0 < width) :
    ∃ size, batchSize width o.maxParams o.maxInsertRows = .ok size ∧ 0 < size := by
  obtain ⟨hfits, hrows⟩ := h
  have hsize := batchSize_of_fits hwidth hfits o.maxInsertRows
  obtain ⟨-, -, -, hpos⟩ := batchSize_eq_ok hsize
  exact ⟨_, hsize, hpos hrows⟩

end Options

/-- What a plan requires besides its limits does not depend on the limits. -/
theorem BulkInsert.Plannable.withLimits {b : BulkInsert} {o : Options} (hb : b.Plannable o)
    (m : Nat) (r : Option Nat) : b.Plannable (o.withLimits m r) :=
  ⟨hb.columns_ne_nil, hb.rows_ne_nil, hb.distinct, hb.listed, hb.aligned, hb.table, hb.idColumn⟩

theorem BulkInsert.exists_error_of_not_plannable {b : BulkInsert} {o : Options}
    (hb : ¬b.Plannable o) : ∃ e, (b.plan o).result = .error e := by
  cases h : (b.plan o).result with
  | error e => exact ⟨e, rfl⟩
  | ok p => exact absurd (BulkInsert.plan_eq_ok_iff.mp h).1 hb

/-! ## A driver that appends -/

namespace Executor

/-- Values cut into rows of a width. -/
def cutRows (width : Nat) : Nat → List Value → List (List Value)
  | 0, _ => []
  | n + 1, vs => vs.take width :: cutRows width n (vs.drop width)

theorem cutRows_flatten {width : Nat} {rows : List (List Value)}
    (h : ∀ row ∈ rows, row.length = width) : cutRows width rows.length rows.flatten = rows := by
  induction rows with
  | nil => rfl
  | cons row rows ih =>
      have hrow : row.length = width := h row List.mem_cons_self
      rw [List.length_cons, cutRows, List.flatten_cons, ← hrow, List.take_left, List.drop_left,
        hrow, ih fun r hr => h r (List.mem_cons_of_mem row hr)]

/-- The number of placeholders in the first group of a text. -/
def widthOf (d : Dialect) (sql : String) : Nat :=
  match Lexeme.scan d sql.toList with
  | some ls =>
      ((ls.dropWhile (· ≠ .plain '?')).takeWhile (· ≠ .plain ')')).count (.plain '?')
  | none => 0

theorem count_markLexemes (width : Nat) : (markLexemes width).count (.plain '?') = width := by
  have hseparator : [Lexeme.plain ',', .plain ' '].count (.plain '?') = 0 := by decide
  rw [markLexemes, count_intercalate hseparator]
  simp

theorem closing_notMem_markLexemes (width : Nat) : .plain ')' ∉ markLexemes width := by
  intro h
  rcases mem_of_mem_intercalate h with h | ⟨part, hpart, h⟩
  · exact absurd h (by decide)
  · rw [List.eq_of_mem_replicate hpart] at h
    exact absurd h (by decide)

/-- The first placeholder of a text opens its first group, because there is none before. -/
theorem widthOf_of_insertText {d : Dialect} {width rows : Nat} {sql : String} (hwidth : 0 < width)
    (hrows : 0 < rows) (h : InsertText d width rows sql) : widthOf d sql = width := by
  obtain ⟨target, tail, hscan, htarget, -⟩ := h
  have hmarks : ∃ more, markLexemes width = .plain '?' :: more := by
    rw [← Nat.succ_pred_eq_of_pos hwidth, markLexemes, List.replicate_succ, intercalate_cons]
    exact ⟨_, rfl⟩
  have hgroup : ∃ more, rowLexemes width rows = groupLexemes width ++ more := by
    rw [← Nat.succ_pred_eq_of_pos hrows, rowLexemes, List.replicate_succ, intercalate_cons]
    exact ⟨_, rfl⟩
  obtain ⟨marks, hmarks⟩ := hmarks
  obtain ⟨groups, hgroup⟩ := hgroup
  have hbefore : ∀ l ∈ plainText "INSERT INTO ".toList ++ target ++ plainText " VALUES ".toList ++
      [.plain '('], decide (l ≠ .plain '?') = true := by
    intro l hl
    rw [decide_eq_true_eq]
    rintro rfl
    simp only [List.mem_append] at hl
    rcases hl with ((hl | hl) | hl) | hl
    · exact absurd hl (by decide)
    · exact htarget hl
    · exact absurd hl (by decide)
    · exact absurd hl (by decide)
  have hinside : ∀ l ∈ markLexemes width, decide (l ≠ .plain ')') = true := by
    intro l hl
    rw [decide_eq_true_eq]
    rintro rfl
    exact closing_notMem_markLexemes width hl
  have hscan' : Lexeme.scan d sql.toList =
      some (plainText "INSERT INTO ".toList ++ target ++ plainText " VALUES ".toList ++
        [.plain '('] ++ (markLexemes width ++ .plain ')' :: (groups ++ tail))) := by
    rw [hscan, hgroup]
    simp [groupLexemes]
  have hdrop : (markLexemes width ++ .plain ')' :: (groups ++ tail)).dropWhile
      (fun l => decide (l ≠ .plain '?')) = markLexemes width ++ .plain ')' :: (groups ++ tail) := by
    rw [hmarks]
    rfl
  rw [widthOf, hscan']
  simp only []
  rw [List.dropWhile_append_of_pos hbefore, hdrop, List.takeWhile_append_of_pos hinside,
    List.takeWhile_cons_of_neg (by decide), List.append_nil, count_markLexemes]

/-- The report of a driver whose identifiers are the numbers of the rows. -/
def numbered (d : Dialect) (idColumn : Option String) (first count : Nat) (sql : String) :
    RawResult where
  rows :=
    if idColumn.any fun c => decide (AsksFor d c sql) then
      (List.range count).map fun i =>
        ⟨[(idColumn.getD "", .integer (Int64.ofNat (first + i)))]⟩
    else []
  affected := .ofNat count
  insertId := some (Int64.ofNat first)

theorem reply_numbered (d : Dialect) (idColumn : Option String) (first count : Nat)
    (sql : String) :
    Reply d idColumn (fun k => .integer (Int64.ofNat k)) first count sql
      (numbered d idColumn first count sql) where
  affected := rfl
  rows := by
    intro c hc hasks
    cases hc
    simp [numbered, hasks]
  silent := by
    intro c hc hasks
    cases hc
    simp [numbered, hasks]
  insertId := by
    intro i hi
    cases hi
    rfl

/-- A driver over a list of rows, which it numbers. -/
def appending (d : Dialect) (idColumn : Option String) : Executor (List (List Value)) where
  execute sql params := fun s =>
    let rows := cutRows (widthOf d sql) (params.length / widthOf d sql) params
    (pure (numbered d idColumn s.length rows.length sql), s ++ rows)
  begin := pure ()
  commit := pure ()
  rollback := pure ()

theorem appends_appending (d : Dialect) (idColumn : Option String) :
    (appending d idColumn).Appends d idColumn (fun k => .integer (Int64.ofNat k)) id
      List.length := by
  constructor
  intro s width rows sql hwidth hne haligned htext
  have hrows : 0 < rows.length := List.length_pos_iff.mpr hne
  have hwidthOf : widthOf d sql = width := widthOf_of_insertText hwidth hrows htext
  have hcount : rows.flatten.length / width = rows.length := by
    rw [length_flatten_of_forall haligned, Nat.mul_div_cancel _ hwidth]
  have hcut : cutRows (widthOf d sql) (rows.flatten.length / widthOf d sql) rows.flatten =
      rows := by
    rw [hwidthOf, hcount, cutRows_flatten haligned]
  have hexecute : (appending d idColumn).execute sql rows.flatten s =
      (pure (numbered d idColumn s.length rows.length sql), s ++ rows) := by
    simp only [appending, hcut]
  refine ⟨numbered d idColumn s.length rows.length sql, s ++ rows, ?_, rfl, List.length_append,
    reply_numbered d idColumn s.length rows.length sql⟩
  rw [Step.Yields, hexecute]
  exact ⟨rfl, rfl⟩

end Executor

/-! ## Batching is not observed -/

/-- Over a driver that appends, an insert of many rows ends the same under any limits that admit
one row: it fails before it reaches the driver, or it appends the rows in order and reports
their identifiers in order.  Only the number of statements depends on the limits. -/
theorem Session.insertRows_withLimits {σ : Type} {x : Executor σ} {o : Options}
    {g : Nat → Value} {store : σ → List (List Value)} {inserted : σ → Nat}
    (hx : x.Appends o.dialect o.idColumn g store inserted) (b : BulkInsert)
    {m₁ m₂ : Nat} {r₁ r₂ : Option Nat}
    (hlimits₁ : (o.withLimits m₁ r₁).AdmitsRow b.columns.length)
    (hlimits₂ : (o.withLimits m₂ r₂).AdmitsRow b.columns.length)
    {s₁ s₂ : σ} (hstore : store s₁ = store s₂) (hinserted : inserted s₁ = inserted s₂)
    (hconsecutive : o.dialect.idStrategy = .firstInsertId →
      Consecutive g (inserted s₁) b.rows.length) :
    (b.Plannable o ∧ ∃ out₁ out₂ t₁ t₂,
      Step.Yields (insertRows x b) ⟨o.withLimits m₁ r₁, s₁⟩ (.ok out₁)
        ⟨o.withLimits m₁ r₁, t₁⟩ ∧
      Step.Yields (insertRows x b) ⟨o.withLimits m₂ r₂, s₂⟩ (.ok out₂)
        ⟨o.withLimits m₂ r₂, t₂⟩ ∧
      out₂ = { out₁ with statements := out₂.statements } ∧
      out₁.ids = Collector.collected o g (inserted s₁) b.rows.length ∧
      out₁.affected = .ofNat b.rows.length ∧
      store t₁ = store s₁ ++ b.rows ∧ store t₂ = store t₁) ∨
    (¬b.Plannable o ∧ ∃ e₁ e₂,
      Step.Yields (insertRows x b) ⟨o.withLimits m₁ r₁, s₁⟩ (.error e₁)
        ⟨o.withLimits m₁ r₁, s₁⟩ ∧
      Step.Yields (insertRows x b) ⟨o.withLimits m₂ r₂, s₂⟩ (.error e₂)
        ⟨o.withLimits m₂ r₂, s₂⟩) := by
  by_cases hb : b.Plannable o
  · left
    have hwidth : 0 < b.columns.length := List.length_pos_iff.mpr hb.columns_ne_nil
    obtain ⟨size₁, hsize₁, hpos₁⟩ := hlimits₁.exists_batchSize hwidth
    obtain ⟨size₂, hsize₂, hpos₂⟩ := hlimits₂.exists_batchSize hwidth
    obtain ⟨t₁, hrun₁, hend₁⟩ := insertRows_yields (o := o.withLimits m₁ r₁) hx
      (hb.withLimits m₁ r₁) hsize₁ hpos₁ hconsecutive
    obtain ⟨t₂, hrun₂, hend₂⟩ := insertRows_yields (o := o.withLimits m₂ r₂) hx
      (hb.withLimits m₂ r₂) hsize₂ hpos₂ (by rw [← hinserted]; exact hconsecutive)
    -- both runs number their rows from the same row on
    rw [← hinserted] at hrun₂
    exact ⟨hb, _, _, t₁, t₂, hrun₁, hrun₂, rfl, rfl, rfl, hend₁, by rw [hend₁, hend₂, hstore]⟩
  · right
    have hfails (m : Nat) (r : Option Nat) : ∃ e, (b.plan (o.withLimits m r)).result = .error e :=
      BulkInsert.exists_error_of_not_plannable fun h =>
        hb (h.withLimits o.maxParams o.maxInsertRows)
    obtain ⟨e₁, he₁⟩ := hfails m₁ r₁
    obtain ⟨e₂, he₂⟩ := hfails m₂ r₂
    exact ⟨hb, _, _, insertRows_of_plan_error he₁, insertRows_of_plan_error he₂⟩

/-- Options for rows of two values over a dialect. -/
def pairOptions (d : Dialect) : Options :=
  { Options.defaults d "t" ["a", "b"] with idColumn := some "id" }

/-- Three rows of two values. -/
def threePairs : BulkInsert :=
  ⟨["a", "b"], [[.integer 1, .integer 2], [.integer 3, .integer 4], [.integer 5, .integer 6]]⟩

theorem Session.insertRows_threePairs :
    ∃ out₁ out₂ t,
      Step.Yields (insertRows (.appending .mysql (some "id")) threePairs)
        ⟨(pairOptions .mysql).withLimits 5 none, []⟩ (.ok out₁)
        ⟨(pairOptions .mysql).withLimits 5 none, t⟩ ∧
      Step.Yields (insertRows (.appending .mysql (some "id")) threePairs)
        ⟨(pairOptions .mysql).withLimits 100 (some 1), []⟩ (.ok out₂)
        ⟨(pairOptions .mysql).withLimits 100 (some 1), t⟩ ∧
      out₁.ids = [.integer 0, .integer 1, .integer 2] ∧ out₂.ids = out₁.ids ∧
      t = threePairs.rows := by
  have hplan : ∃ p, (threePairs.plan (pairOptions .mysql)).result = .ok p := ⟨_, rfl⟩
  obtain ⟨p, hp⟩ := hplan
  have hplannable : threePairs.Plannable (pairOptions .mysql) := (BulkInsert.plan_eq_ok_iff.mp hp).1
  have hempty : id ([] : List (List Value)) = id [] := rfl
  have hlimits₁ : ((pairOptions .mysql).withLimits 5 none).AdmitsRow 2 := ⟨by decide, by decide⟩
  have hlimits₂ : ((pairOptions .mysql).withLimits 100 (some 1)).AdmitsRow 2 :=
    ⟨by decide, by decide⟩
  have hconsecutive : Consecutive (fun k => .integer (Int64.ofNat k)) 0 3 :=
    ⟨0, fun k hk => ⟨Int64.ofNat (0 + k), rfl, by
      rw [Int64.toInt_ofNat_of_lt (by omega)]
      omega⟩⟩
  rcases insertRows_withLimits (Executor.appends_appending .mysql (some "id")) threePairs
      hlimits₁ hlimits₂ hempty rfl (fun _ => hconsecutive) with
    ⟨-, out₁, out₂, t₁, t₂, hrun₁, hrun₂, hsame, hids, -, hstore₁, hstore₂⟩ | ⟨hb, -⟩
  · cases hstore₂
    refine ⟨out₁, out₂, t₁, hrun₁, hrun₂, ?_, by rw [hsame], hstore₁⟩
    rw [hids]
    rfl
  · exact absurd hplannable hb

end BoundSql
