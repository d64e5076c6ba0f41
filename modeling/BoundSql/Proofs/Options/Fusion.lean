import BoundSql.Proofs.Options.Reconfiguration
import BoundSql.Proofs.Text.Repeat

/-!
# Successive reconfigurations

Overrides that are given in several calls can be given in one: the call with the joined overrides
ends as the last of the separate calls does, in the same options or in the same error.

The dialect is the exception.  A call looks for one entry for it and applies that before all others,
so a dialect that a later call brings would come too early in the joined overrides, and would not be
looked at if an earlier call had brought one.  Nothing is said about separate calls of which one
before the last is refused: the joined overrides may repair what that call was refused for.
-/

namespace BoundSql.Options

variable {o m p : Options} {a b : Overrides}

/-! ## Joined entries -/

theorem applyEntries_append (o : Options) (es fs : List (OptionKey × Json)) :
    o.applyEntries (es ++ fs) = o.applyEntries es >>= fun next => next.applyEntries fs := by
  induction es generalizing o with
  | nil => rfl
  | cons entry es ih =>
      rw [List.cons_append, applyEntries_cons, applyEntries_cons, bind_assoc]
      congr 1
      funext next
      exact ih next

theorem find?_eq_none_of_lookup {es : List (OptionKey × Json)} {k : OptionKey}
    (h : es.lookup k = none) : (es.find? fun entry => entry.1 = k) = none := by
  rw [← map_find?_eq_lookup] at h
  exact Option.map_eq_none_iff.mp h

/-- Entries that come later matter to the dialect only if there is none for it before. -/
theorem applyDialect_append {es fs : List (OptionKey × Json)}
    (h : fs.lookup .dialect = none ∨ es.lookup .dialect ≠ none) :
    o.applyDialect (es ++ fs) = o.applyDialect es := by
  have hfind : ((es ++ fs).find? fun entry => entry.1 = .dialect) =
      es.find? fun entry => entry.1 = .dialect := by
    rw [List.find?_append]
    rcases h with hlater | hearlier
    · rw [find?_eq_none_of_lookup hlater, Option.or_none]
    · rw [← map_find?_eq_lookup, Ne, Option.map_eq_none_iff] at hearlier
      obtain ⟨entry, hentry⟩ := Option.ne_none_iff_exists'.mp hearlier
      rw [hentry, Option.some_or]
  rw [applyDialect, applyDialect, hfind]

theorem applyDialect_of_lookup {es : List (OptionKey × Json)} (h : es.lookup .dialect = none) :
    o.applyDialect es = .ok o := by
  rw [applyDialect, find?_eq_none_of_lookup h]

/-! ## Joined overrides -/

/-- Options with overrides applied that leave the dialect alone. -/
def adjust (o : Options) (overrides : Overrides) : Except ConfigError Options := do
  let entries ← recognise overrides
  let o ← o.applyEntries entries
  o.validated

theorem reconfigure_eq_adjust (h : b.first? .dialect = none) : m.reconfigure b = m.adjust b := by
  unfold reconfigure adjust
  cases hentries : recognise b with
  | error e => rfl
  | ok es =>
      have hnone : es.lookup .dialect = none := by
        rw [← lookup_named, ← recognise_eq_ok_iff.mp hentries]
        exact h
      show (m.applyDialect es >>= fun base => base.applyEntries es >>= validated) =
        m.applyEntries es >>= validated
      rw [applyDialect_of_lookup hnone]
      rfl

/-- Overrides that follow others are applied to what these come to.  The dialect is not taken from
them, because it has been given before, or because they do not give it. -/
theorem reconfigure_append_eq_adjust (h : o.reconfigure a = .ok m)
    (hdialect : b.first? .dialect = none ∨ a.first? .dialect ≠ none) :
    o.reconfigure (a ++ b) = m.adjust b := by
  simp only [reconfigure, bind_eq_ok_iff] at h
  obtain ⟨es, hes, base, hbase, next, hnext, hvalidated⟩ := h
  obtain ⟨-, rfl⟩ := validated_eq_ok_iff.mp hvalidated
  rw [reconfigure, recognise_append, hes, adjust]
  -- an unknown key is told before anything is applied, in both calls
  cases hfs : recognise b with
  | error e => rfl
  | ok fs =>
      rw [recognise_eq_ok_iff] at hes hfs
      have hlookup : fs.lookup .dialect = none ∨ es.lookup .dialect ≠ none := by
        rwa [← lookup_named, ← lookup_named, ← hes, ← hfs]
      show (o.applyDialect (es ++ fs) >>= fun base => base.applyEntries (es ++ fs) >>= validated) =
        m.applyEntries fs >>= validated
      rw [applyDialect_append hlookup, hbase]
      show base.applyEntries (es ++ fs) >>= validated = m.applyEntries fs >>= validated
      rw [applyEntries_append, hnext]
      rfl

theorem first?_dialect_eq_none (h : ∀ entry ∈ b, entry.1 ≠ OptionKey.dialect.name) :
    b.first? .dialect = none := by
  rw [Overrides.first?, List.lookup_eq_none_iff]
  intro entry hentry
  simpa using (h entry hentry).symm

/-! ## Entries for a dialect that has been given -/

theorem applyEntries_filter (o : Options) (es : List (OptionKey × Json)) :
    o.applyEntries (es.filter fun entry => entry.1 ≠ .dialect) = o.applyEntries es := by
  induction es generalizing o with
  | nil => rfl
  | cons entry es ih =>
      by_cases hk : entry.1 = .dialect
      -- the entry is skipped, because the dialect has been applied before
      · have hskip : o.applyEntry entry = .ok o := by
          rw [applyEntry, hk]
        rw [List.filter_cons_of_neg (by simpa using hk), ih, applyEntries_cons, hskip]
        rfl
      · rw [List.filter_cons_of_pos (by simpa using hk), applyEntries_cons, applyEntries_cons]
        congr 1
        funext next
        exact ih next

theorem named_filter (es : List (OptionKey × Json)) :
    (named es).filter (fun entry => entry.1 ≠ OptionKey.dialect.name) =
      named (es.filter fun entry => entry.1 ≠ .dialect) := by
  rw [named, named, List.filter_map]
  congr 2
  funext entry
  simp [OptionKey.name_injective.eq_iff]

theorem adjust_filter (m : Options) (b : Overrides) :
    m.adjust (b.filter fun entry => entry.1 ≠ OptionKey.dialect.name) = m.adjust b := by
  classical
  rcases forall_or_first (fun entry : String × Json => ∃ k, OptionKey.name k = entry.1) b with
    hknown | ⟨before, entry, rest, rfl, hbefore, hunknown⟩
  · obtain ⟨es, rfl⟩ := exists_named hknown
    rw [named_filter, adjust, adjust, recognise_eq_ok_iff.mpr rfl, recognise_eq_ok_iff.mpr rfl]
    show m.applyEntries (es.filter fun entry => entry.1 ≠ .dialect) >>= validated =
      m.applyEntries es >>= validated
    rw [applyEntries_filter]
  · obtain ⟨key, v⟩ := entry
    have hkey (k : OptionKey) : k.name ≠ key := fun hk => hunknown ⟨k, hk⟩
    have hbefore' : ∀ entry ∈ before.filter fun entry => entry.1 ≠ OptionKey.dialect.name,
        ∃ k, OptionKey.name k = entry.1 := fun entry hentry =>
      hbefore entry (List.mem_filter.mp hentry).1
    rw [List.filter_append, List.filter_cons_of_pos (by simpa using (hkey .dialect).symm), adjust,
      adjust, recognise_of_unknown hbefore hkey, recognise_of_unknown hbefore' hkey]

/-- Once the dialect has been given, later entries for it are not looked at, whatever they hold. -/
theorem reconfigure_append_of_dialect (h : o.reconfigure a = .ok m)
    (hgiven : a.first? .dialect ≠ none) :
    o.reconfigure (a ++ b) =
      m.reconfigure (b.filter fun entry => entry.1 ≠ OptionKey.dialect.name) := by
  have hnone : Overrides.first? (b.filter fun entry => entry.1 ≠ OptionKey.dialect.name) .dialect =
      none := by
    refine first?_dialect_eq_none fun entry hentry => ?_
    simpa using (List.mem_filter.mp hentry).2
  rw [reconfigure_append_eq_adjust h (Or.inr hgiven), reconfigure_eq_adjust hnone, adjust_filter]

/-! ## Successive calls -/

/-- Calls that all succeed can be made in one, if only the first may give the dialect. -/
theorem reconfigure_flatten_of_changes {bs : List Overrides} (h : o.reconfigure a = .ok m)
    (hbs : ∀ b ∈ bs, b.first? .dialect = none) (hp : m.changes (bs.map .override) = .ok p) :
    o.reconfigure (a ++ bs.flatten) = .ok p := by
  -- the overrides that have been joined so far come to the options that the next call is made on
  induction bs generalizing a m with
  | nil =>
      cases hp
      rw [List.flatten_nil, List.append_nil]
      exact h
  | cons b bs ih =>
      have hb : b.first? .dialect = none := hbs b List.mem_cons_self
      rw [changes, List.map_cons, List.foldlM_cons, bind_eq_ok_iff] at hp
      obtain ⟨next, hnext, hp⟩ := hp
      have hjoined : o.reconfigure (a ++ b) = .ok next := by
        rw [reconfigure_append_eq_adjust h (Or.inl hb), ← reconfigure_eq_adjust hb]
        exact hnext
      rw [List.flatten_cons, ← List.append_assoc]
      exact ih hjoined (fun b' hb' => hbs b' (List.mem_cons_of_mem b hb')) hp

/-- A call on the options that an earlier call came to ends as one call with the overrides of both
does, if its own do not give the dialect. -/
theorem reconfigure_fuses (h : o.reconfigure a = .ok m)
    (hb : ∀ entry ∈ b, entry.1 ≠ OptionKey.dialect.name) :
    m.reconfigure b = o.reconfigure (a ++ b) := by
  have hnone : b.first? .dialect = none := first?_dialect_eq_none hb
  rw [reconfigure_eq_adjust hnone, reconfigure_append_eq_adjust h (Or.inl hnone)]

/-- Another row limit, and a limit that is given twice. -/
def widened : Overrides :=
  [("max_params", .int 9), ("max_insert_rows", .null), ("max_params", .int 3)]

/-- A column without a visible name, behind a table that has none either. -/
def faded : Overrides := [("table", .str ""), ("table", .str "w"), ("columns", .arr [.str "\t"])]

/-- Behind a call that changes the dialect, one call succeeds and two are refused. -/
theorem reconfigure_fuses_lateDialect :
    limitedRows.reconfigure lateDialect = .ok switched ∧
      (∀ overrides ∈ [widened, faded, faded ++ [("timeout", .int 30)]],
        ∀ entry ∈ overrides, entry.1 ≠ OptionKey.dialect.name) ∧
      limitedRows.reconfigure (lateDialect ++ widened) =
        .ok { switched with maxParams := 3, maxInsertRows := none } ∧
      limitedRows.reconfigure (lateDialect ++ faded) =
        .error (.invalidOption .columns (.blankColumn "\t")) ∧
      limitedRows.reconfigure (lateDialect ++ (faded ++ [("timeout", .int 30)])) =
        .error (.unknownOption "timeout") := by
  have hswitched : limitedRows.reconfigure lateDialect = .ok switched := rfl
  have hkept : ∀ overrides ∈ [widened, faded, faded ++ [("timeout", .int 30)]],
      ∀ entry ∈ overrides, entry.1 ≠ OptionKey.dialect.name := by decide
  have hfuses {overrides : Overrides}
      (hmem : overrides ∈ [widened, faded, faded ++ [("timeout", .int 30)]]) :
      switched.reconfigure overrides = limitedRows.reconfigure (lateDialect ++ overrides) :=
    reconfigure_fuses hswitched (hkept overrides hmem)
  refine ⟨hswitched, hkept, ?_, ?_, ?_⟩
  · exact (hfuses (by simp)).symm.trans rfl
  · exact (hfuses (by simp)).symm.trans rfl
  · exact (hfuses (by simp)).symm.trans rfl

/-- A later call that brings another dialect resets a limit which the joined overrides keep. -/
example :
    ((limitedRows.reconfigure [("max_params", .int 7)]).bind fun m =>
        m.reconfigure [("dialect", .str "sqlite")]).toOption.map maxParams = some 32766 ∧
      (limitedRows.reconfigure [("max_params", .int 7), ("dialect", .str "sqlite")]).toOption.map
        maxParams = some 7 := by
  decide

end BoundSql.Options
