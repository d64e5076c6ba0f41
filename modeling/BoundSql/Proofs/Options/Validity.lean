import BoundSql.Config.Basic
import BoundSql.Proofs.Trace.Outcome

/-!
# Valid options

Options are checked when they are made and again whenever they are overridden.  Naming the
identifier column is not checked, so what options in use keep through all changes is soundness:
they are valid but perhaps for a blank identifier column.
-/

namespace BoundSql

namespace Options

variable {o p : Options}

/-! ## Soundness -/

/-- Visible names and positive limits.  The identifier column is left open. -/
structure Sound (o : Options) : Prop where
  table : Text.isBlank o.table = false
  columns : ∀ column ∈ o.columns, Text.isBlank column = false
  maxParams : 1 ≤ o.maxParams
  maxInsertRows : ∀ rows ∈ o.maxInsertRows, 1 ≤ rows
  maxPageSize : 1 ≤ o.maxPageSize

theorem validate_eq_ok_iff :
    o.validate = .ok () ↔ o.Sound ∧ ∀ column ∈ o.idColumn, Text.isBlank column = false := by
  have hrows : (∀ rows ∈ o.maxInsertRows, 1 ≤ rows) ↔ o.maxInsertRows ≠ some 0 := by
    cases o.maxInsertRows with
    | none => simp
    | some rows => simp [Nat.one_le_iff_ne_zero]
  have hid : (∀ column ∈ o.idColumn, Text.isBlank column = false) ↔
      o.idColumn.any Text.isBlank = false := by
    cases o.idColumn <;> simp
  rw [hid]
  unfold validate
  constructor
  · intro h
    split at h
    · cases h
    rename_i htable
    split at h
    · cases h
    rename_i hcolumns
    split at h
    · cases h
    rename_i hidColumn
    split at h
    · cases h
    rename_i hparams
    split at h
    · cases h
    rename_i hinsert
    split at h
    · cases h
    rename_i hpage
    refine ⟨⟨by simpa using htable, by simpa using hcolumns, Nat.one_le_iff_ne_zero.mpr hparams,
      hrows.mpr hinsert, Nat.one_le_iff_ne_zero.mpr hpage⟩, by simpa using hidColumn⟩
  · rintro ⟨ho, hidColumn⟩
    have hcolumns : o.columns.find? Text.isBlank = none := by simpa using ho.columns
    have hparams : o.maxParams ≠ 0 := Nat.one_le_iff_ne_zero.mp ho.maxParams
    have hpage : o.maxPageSize ≠ 0 := Nat.one_le_iff_ne_zero.mp ho.maxPageSize
    simp [ho.table, hcolumns, hidColumn, hparams, hrows.mp ho.maxInsertRows, hpage]

theorem maxInsertRows_ne_zero_of_validate (h : o.validate = .ok ()) :
    o.maxInsertRows ≠ some 0 := by
  intro hzero
  exact absurd ((validate_eq_ok_iff.mp h).1.maxInsertRows 0 hzero) (by decide)

/-! ## Checked options -/

theorem validated_eq_ok_iff : o.validated = .ok p ↔ o.validate = .ok () ∧ p = o := by
  unfold validated
  split
  · rename_i hvalid
    simp [hvalid, eq_comm]
  · rename_i e herror
    simp [herror]

theorem validate_of_validated (h : o.validated = .ok p) : p.validate = .ok () := by
  obtain ⟨hvalid, rfl⟩ := validated_eq_ok_iff.mp h
  exact hvalid

/-- Options that were returned by the constructor or by a reconfiguration. -/
def Checked (o : Options) : Prop :=
  (∃ dialect table columns, Options.new dialect table columns = .ok o) ∨
    ∃ (previous : Options) (overrides : Overrides), previous.reconfigure overrides = .ok o

theorem Checked.validate (h : o.Checked) : o.validate = .ok () := by
  rcases h with ⟨d, table, columns, hnew⟩ | ⟨previous, overrides, hreconfigure⟩
  · exact validate_of_validated hnew
  · simp only [reconfigure, bind_eq_ok_iff] at hreconfigure
    obtain ⟨_, -, _, -, _, -, hvalidated⟩ := hreconfigure
    exact validate_of_validated hvalidated

theorem reconfigured_result (o : Options) (overrides : Overrides) :
    (o.reconfigured overrides).result = o.reconfigure overrides := by
  unfold reconfigured
  cases h : o.reconfigure overrides with
  | error e => rfl
  | ok next => rfl

end Options

theorem Config.tableOptions_result (c : Config) (t : TableConfig) :
    (c.tableOptions t).result =
      (do let o ← Options.new c.dialect t.name t.columns
          o.reconfigure (t.overrides c.maxPageSize)) := by
  unfold tableOptions
  cases h : Options.new c.dialect t.name t.columns with
  | error e => rfl
  | ok o => exact o.reconfigured_result _

namespace Options

variable {o p : Options}

/-- Options that the constructor or a configuration hands out. -/
inductive Initial : Options → Prop where
  | new {dialect : Dialect} {table : String} {columns : List String} {o : Options}
      (h : Options.new dialect table columns = .ok o) : Initial o
  | configured {c : Config} {name : String} {o : Options}
      (h : (c.optionsFor name).result = .ok o) : Initial o

theorem Initial.checked (h : o.Initial) : o.Checked := by
  cases h with
  | @new dialect table columns _ hnew => exact Or.inl ⟨dialect, table, columns, hnew⟩
  | @configured c name _ hserved =>
      unfold Config.optionsFor at hserved
      split at hserved
      · rename_i t _
        rw [Config.tableOptions_result, bind_eq_ok_iff] at hserved
        obtain ⟨before, -, hreconfigure⟩ := hserved
        exact Or.inr ⟨before, t.overrides c.maxPageSize, hreconfigure⟩
      · cases hserved

/-! ## Changes -/

/-- A change that a program makes to options it holds. -/
inductive Change where
  | override (overrides : Overrides)
  | nameIdColumn (column : String)

/-- The options after a change, or why it is refused. -/
def change (o : Options) : Change → Except ConfigError Options
  | .override overrides => o.reconfigure overrides
  | .nameIdColumn column => .ok (o.withIdColumn column)

/-- The options after changes that all succeed. -/
def changes (o : Options) (cs : List Change) : Except ConfigError Options := cs.foldlM change o

/-- What every change of a sequence preserves, the sequence preserves. -/
theorem changes_preserve {P : Options → Prop} {cs : List Change}
    (hstep : ∀ c ∈ cs, ∀ o p, P o → change o c = .ok p → P p) (ho : P o)
    (h : o.changes cs = .ok p) : P p := by
  induction cs generalizing o with
  | nil =>
      cases h
      exact ho
  | cons c cs ih =>
      unfold changes at h
      rw [List.foldlM_cons, bind_eq_ok_iff] at h
      obtain ⟨next, hc, hcs⟩ := h
      have hnext : P next := hstep c List.mem_cons_self o next ho hc
      exact ih (fun c' hc' => hstep c' (List.mem_cons_of_mem c hc')) hnext hcs

theorem Sound.withIdColumn (h : o.Sound) (column : String) : (o.withIdColumn column).Sound where
  table := h.table
  columns := h.columns
  maxParams := h.maxParams
  maxInsertRows := h.maxInsertRows
  maxPageSize := h.maxPageSize

/-- A successful change keeps options sound. -/
theorem Sound.change {c : Change} (ho : o.Sound) (h : o.change c = .ok p) : p.Sound := by
  cases c with
  | override overrides =>
      have hchecked : p.Checked := Or.inr ⟨o, overrides, h⟩
      exact (validate_eq_ok_iff.mp hchecked.validate).1
  | nameIdColumn column =>
      cases h
      exact ho.withIdColumn column

/-- A successful change keeps options valid, unless it gives the identifier column a blank
name. -/
theorem validate_change {c : Change} (ho : o.validate = .ok ()) (h : o.change c = .ok p)
    (hname : ∀ column, c = .nameIdColumn column → Text.isBlank column = false) :
    p.validate = .ok () := by
  cases c with
  | override overrides =>
      have hchecked : p.Checked := Or.inr ⟨o, overrides, h⟩
      exact hchecked.validate
  | nameIdColumn column =>
      cases h
      refine validate_eq_ok_iff.mpr ⟨(validate_eq_ok_iff.mp ho).1.withIdColumn column, ?_⟩
      intro named hnamed
      cases hnamed
      exact hname column rfl

variable {start : Options} {cs : List Change}

/-- Whatever changes were made to them, options in use are sound. -/
theorem Initial.sound_changes (hstart : start.Initial) (h : start.changes cs = .ok o) :
    o.Sound := by
  have hsound : start.Sound := (validate_eq_ok_iff.mp hstart.checked.validate).1
  exact changes_preserve (fun c _ _ _ ho hc => ho.change hc) hsound h

/-- Options in use are valid if no blank name was given to the identifier column. -/
theorem Initial.validate_changes (hstart : start.Initial) (h : start.changes cs = .ok o)
    (hnames : ∀ column, .nameIdColumn column ∈ cs → Text.isBlank column = false) :
    o.validate = .ok () := by
  refine changes_preserve (P := fun o => o.validate = .ok ()) ?_ hstart.checked.validate h
  intro c hmem before after hbefore hc
  refine validate_change hbefore hc fun column hcolumn => hnames column ?_
  rw [← hcolumn]
  exact hmem

end Options

end BoundSql
