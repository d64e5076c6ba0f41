import BoundSql.Proofs.Options.RoundTrip
import BoundSql.Proofs.Options.Validity

/-!
# Reconfiguration

Overrides are read as a map from options to values, in which the first entry for the dialect and
the last entry for any other option counts.  Entries that do not count have to be readable all the
same.  The limits that no entry gives are those of the old options as long as the dialect stays,
and those of the new dialect otherwise, wherever the entry for the dialect stands.

Nothing is said about which of several unreadable entries is told.
-/

namespace BoundSql

/-! ## Entries that count -/

namespace Overrides

/-- The value of the first entry for an option. -/
def first? (overrides : Overrides) (k : OptionKey) : Option Json := overrides.lookup k.name

/-- The value of the last entry for an option. -/
def last? (overrides : Overrides) (k : OptionKey) : Option Json := overrides.reverse.lookup k.name

variable {overrides reordered : Overrides}

/-- With distinct keys it does not matter where an entry stands. -/
theorem lookup_eq_of_perm (h : (overrides.map Prod.fst).Nodup) (hperm : overrides.Perm reordered)
    (key : String) : overrides.lookup key = reordered.lookup key := by
  have h' : (reordered.map Prod.fst).Nodup := (hperm.map Prod.fst).nodup_iff.mp h
  ext v
  rw [lookup_eq_some_iff_of_nodup h, lookup_eq_some_iff_of_nodup h', hperm.mem_iff]

theorem first?_eq_of_perm (h : (overrides.map Prod.fst).Nodup) (hperm : overrides.Perm reordered) :
    overrides.first? = reordered.first? := by
  funext k
  exact lookup_eq_of_perm h hperm k.name

theorem last?_eq_of_perm (h : (overrides.map Prod.fst).Nodup) (hperm : overrides.Perm reordered) :
    overrides.last? = reordered.last? := by
  have hreversed : (overrides.reverse.map Prod.fst).Nodup :=
    ((overrides.reverse_perm.map Prod.fst).nodup_iff).mpr h
  funext k
  exact lookup_eq_of_perm hreversed
    (overrides.reverse_perm.trans (hperm.trans reordered.reverse_perm.symm)) k.name

end Overrides

/-! ## Reading values -/

namespace Json

theorem readText_eq_ok_iff {j : Json} {text : String} : j.readText = .ok text ↔ j = .str text := by
  cases j <;> simp [readText]

theorem readTexts_eq_ok_iff {j : Json} {texts : List String} :
    j.readTexts = .ok texts ↔ j = .arr (texts.map .str) := by
  constructor
  · intro h
    cases j with
    | arr items =>
        have hitems : items.mapM readText = .ok texts := h
        clear h
        induction items generalizing texts with
        | nil =>
            cases hitems
            rfl
        | cons item items ih =>
            simp only [List.mapM_cons, bind_eq_ok_iff, readText_eq_ok_iff, pure_eq_ok,
              Except.ok.injEq] at hitems
            obtain ⟨text, rfl, texts, htexts, rfl⟩ := hitems
            exact congrArg (fun is => arr (str text :: is)) (Json.arr.inj (ih htexts))
    | null | bool | int | real | str | obj => cases h
  · rintro rfl
    exact readTexts_texts texts

theorem readCount_eq_ok_iff {j : Json} {expected : Expectation} {n : Nat} :
    j.readCount expected = .ok n ↔ j = .int n := by
  cases j with
  | int i =>
      cases i with
      | ofNat m =>
          constructor
          · intro h
            cases h
            rfl
          · intro h
            exact congrArg Except.ok (Options.int_natCast_injective h)
      | negSucc m => simp [readCount]
  | null | bool | real | str | arr | obj => simp [readCount]

theorem readNullable_eq_ok_iff {α : Type} (encode : α → Json) {read : Json → Except OptionFault α}
    (hnull : ∀ a, encode a ≠ .null) (hread : ∀ j a, read j = .ok a ↔ j = encode a) {j : Json}
    {v : Option α} : j.readNullable read = .ok v ↔ j = ofOption encode v := by
  constructor
  · intro h
    unfold readNullable at h
    split at h
    · cases h
      rfl
    · obtain ⟨a, ha, rfl⟩ := map_eq_ok_iff.mp h
      exact (hread _ a).mp ha
  · rintro rfl
    exact readNullable_ofOption encode read hnull (fun a => (hread _ a).mpr rfl) v

end Json

namespace Options

variable {o p : Options}

theorem faultOf_eq_ok_iff {α : Type} {k : OptionKey} {x : Except OptionFault α} {a : α} :
    faultOf k x = .ok a ↔ x = .ok a := by
  cases x <;> simp [faultOf]

theorem readDialect_eq_ok_iff {j : Json} {d : Dialect} :
    readDialect j = .ok d ↔ ∃ name, j = .str name ∧ Dialect.ofAlias? name = some d := by
  unfold readDialect
  cases htext : j.readText with
  | error fault =>
      have hnot (name : String) : j ≠ .str name := fun hj => by
        rw [Json.readText_eq_ok_iff.mpr hj] at htext
        cases htext
      simp [faultOf, hnot]
  | ok name =>
      cases Json.readText_eq_ok_iff.mp htext
      cases halias : Dialect.ofAlias? name <;> simp [faultOf, halias]

/-! ## One entry -/

theorem dialect_adopt (o q : Options) (k : OptionKey) : (o.adopt q k).dialect = o.dialect := by
  cases k <;> rfl

theorem document_adopt_of_ne {k l : OptionKey} (h : l ≠ k) (q : Options) :
    (o.adopt q k).document l = o.document l := by
  cases k <;> cases l <;> first | rfl | exact absurd rfl h

/-- An entry is applied exactly if its value is the document of an option, which is then adopted.
An entry for the dialect may hold anything, because it is not looked at again. -/
theorem applyEntry_eq_ok_iff {k : OptionKey} {v : Json} :
    o.applyEntry (k, v) = .ok p ↔
      ∃ q : Options, (k ≠ .dialect → q.document k = v) ∧ p = o.adopt q k := by
  constructor
  · intro h
    refine ⟨p, ?_⟩
    cases k with
    | dialect =>
        cases h
        exact ⟨fun hk => absurd rfl hk, rfl⟩
    | table =>
        obtain ⟨text, htext, rfl⟩ := map_eq_ok_iff.mp h
        exact ⟨fun _ => (Json.readText_eq_ok_iff.mp (faultOf_eq_ok_iff.mp htext)).symm, rfl⟩
    | columns =>
        obtain ⟨texts, htexts, rfl⟩ := map_eq_ok_iff.mp h
        exact ⟨fun _ => (Json.readTexts_eq_ok_iff.mp (faultOf_eq_ok_iff.mp htexts)).symm, rfl⟩
    | idColumn =>
        obtain ⟨column, hcolumn, rfl⟩ := map_eq_ok_iff.mp h
        exact ⟨fun _ => ((Json.readNullable_eq_ok_iff .str (by simp)
          fun _ _ => Json.readText_eq_ok_iff).mp (faultOf_eq_ok_iff.mp hcolumn)).symm, rfl⟩
    | maxInsertRows =>
        obtain ⟨rows, hrows, rfl⟩ := map_eq_ok_iff.mp h
        exact ⟨fun _ => ((Json.readNullable_eq_ok_iff (fun n : Nat => .int n) (by simp)
          fun _ _ => Json.readCount_eq_ok_iff).mp (faultOf_eq_ok_iff.mp hrows)).symm, rfl⟩
    | maxParams | maxPageSize =>
        obtain ⟨n, hn, rfl⟩ := map_eq_ok_iff.mp h
        exact ⟨fun _ => (Json.readCount_eq_ok_iff.mp (faultOf_eq_ok_iff.mp hn)).symm, rfl⟩
  · rintro ⟨q, hq, rfl⟩
    by_cases hk : k = .dialect
    · subst hk
      rfl
    · rw [← hq hk]
      exact applyEntry_document o q k

/-! ## All entries -/

/-- An entry in front counts as long as none behind it is for the same option. -/
theorem lookup_getD_adopt {k : OptionKey} {v : Json} {q : Options}
    (hq : k ≠ .dialect → q.document k = v) (entries : List (OptionKey × Json)) {l : OptionKey}
    (hl : l ≠ .dialect) :
    (((k, v) :: entries).reverse.lookup l).getD (o.document l) =
      (entries.reverse.lookup l).getD ((o.adopt q k).document l) := by
  rw [List.reverse_cons, List.lookup_append]
  cases entries.reverse.lookup l with
  | some w => rfl
  | none =>
      by_cases hlk : l = k
      · subst hlk
        have hadopted : (o.adopt q l).document l = v := by
          rw [← hq hl]
          cases l <;> first | rfl | exact absurd rfl hl
        simp [hadopted]
      · rw [document_adopt_of_ne hlk]
        have hmissing : [(k, v)].lookup l = none := by
          simp [hlk]
        rw [hmissing]
        rfl

theorem applyEntries_cons (o : Options) (entry : OptionKey × Json)
    (entries : List (OptionKey × Json)) :
    o.applyEntries (entry :: entries) =
      o.applyEntry entry >>= fun next => next.applyEntries entries := by
  rw [applyEntries]
  cases o.applyEntry entry <;> rfl

/-- After all entries an option has the value of its last entry, or the value it had before. -/
theorem applyEntries_eq_ok_iff {entries : List (OptionKey × Json)} :
    o.applyEntries entries = .ok p ↔
      (∀ k v, (k, v) ∈ entries → ∃ q : Options, k ≠ .dialect → q.document k = v) ∧
        p.dialect = o.dialect ∧
        ∀ k, k ≠ .dialect → p.document k = (entries.reverse.lookup k).getD (o.document k) := by
  induction entries generalizing o with
  | nil =>
      constructor
      · intro h
        cases h
        exact ⟨fun k v hv => absurd hv List.not_mem_nil, rfl, fun k _ => rfl⟩
      · rintro ⟨-, hdialect, hdocuments⟩
        have hsame : p = o := by
          refine eq_of_document_eq fun k => ?_
          by_cases hk : k = .dialect
          · rw [hk, document, hdialect]
            rfl
          · exact hdocuments k hk
        rw [hsame]
        rfl
  | cons entry entries ih =>
      obtain ⟨k, v⟩ := entry
      rw [applyEntries_cons, bind_eq_ok_iff]
      constructor
      · rintro ⟨next, hnext, hrest⟩
        obtain ⟨q, hq, rfl⟩ := applyEntry_eq_ok_iff.mp hnext
        obtain ⟨hreadable, hdialect, hdocuments⟩ := ih.mp hrest
        refine ⟨fun l w hw => ?_, hdialect.trans (dialect_adopt o q k), fun l hl => ?_⟩
        · rcases List.mem_cons.mp hw with hfirst | hlater
          · cases hfirst
            exact ⟨q, hq⟩
          · exact hreadable l w hlater
        · rw [lookup_getD_adopt hq entries hl]
          exact hdocuments l hl
      · rintro ⟨hreadable, hdialect, hdocuments⟩
        obtain ⟨q, hq⟩ := hreadable k v List.mem_cons_self
        refine ⟨o.adopt q k, applyEntry_eq_ok_iff.mpr ⟨q, hq, rfl⟩, ih.mpr ⟨?_, ?_, ?_⟩⟩
        · exact fun l w hw => hreadable l w (List.mem_cons_of_mem _ hw)
        · exact hdialect.trans (dialect_adopt o q k).symm
        · intro l hl
          rw [← lookup_getD_adopt hq entries hl]
          exact hdocuments l hl

/-! ## The dialect -/

theorem map_find?_eq_lookup (entries : List (OptionKey × Json)) (k : OptionKey) :
    (entries.find? fun entry => entry.1 = k).map Prod.snd = entries.lookup k := by
  induction entries with
  | nil => rfl
  | cons entry entries ih =>
      rw [List.find?_cons, List.lookup_cons]
      by_cases hk : entry.1 = k
      · simp [hk]
      · have hne : (k == entry.1) = false := beq_eq_false_iff_ne.mpr (Ne.symm hk)
        rw [hne, decide_eq_false hk]
        exact ih

theorem applyDialect_eq_ok_iff {entries : List (OptionKey × Json)} :
    o.applyDialect entries = .ok p ↔
      p = o.withDialect p.dialect ∧
        (entries.lookup .dialect = none → p.dialect = o.dialect) ∧
        ∀ v, entries.lookup .dialect = some v →
          ∃ name, v = .str name ∧ Dialect.ofAlias? name = some p.dialect := by
  rw [← map_find?_eq_lookup, applyDialect]
  cases entries.find? fun entry => entry.1 = .dialect with
  | none =>
      constructor
      · intro h
        cases h
        exact ⟨(if_pos rfl).symm, fun _ => rfl, fun v hv => nomatch hv⟩
      · rintro ⟨hp, hdialect, -⟩
        rw [hp, hdialect rfl, withDialect, if_pos rfl]
  | some entry =>
      simp only [map_eq_ok_iff, readDialect_eq_ok_iff, Option.map_some, Option.some.injEq]
      constructor
      · rintro ⟨d, hread, rfl⟩
        rw [dialect_withDialect]
        refine ⟨rfl, fun hnone => absurd hnone (Option.some_ne_none _), ?_⟩
        rintro v rfl
        exact hread
      · rintro ⟨hp, -, hread⟩
        exact ⟨p.dialect, hread _ rfl, hp.symm⟩

theorem maxParams_withDialect (o : Options) (d : Dialect) :
    (o.withDialect d).maxParams = if d = o.dialect then o.maxParams else d.defaultMaxParams := by
  unfold withDialect
  split <;> rfl

theorem maxInsertRows_withDialect (o : Options) (d : Dialect) :
    (o.withDialect d).maxInsertRows =
      if d = o.dialect then o.maxInsertRows else d.defaultMaxInsertRows := by
  unfold withDialect
  split <;> rfl

/-- Another dialect brings its limits and nothing else. -/
theorem document_withDialect {k : OptionKey} (hdialect : k ≠ .dialect) (hparams : k ≠ .maxParams)
    (hrows : k ≠ .maxInsertRows) (o : Options) (d : Dialect) :
    (o.withDialect d).document k = o.document k := by
  unfold withDialect
  split
  · rfl
  · cases k with
    | dialect => exact absurd rfl hdialect
    | maxParams => exact absurd rfl hparams
    | maxInsertRows => exact absurd rfl hrows
    | table | columns | idColumn | maxPageSize => rfl

/-! ## Overridden options -/

/-- Entries as they stand among overrides. -/
def named (entries : List (OptionKey × Json)) : Overrides :=
  entries.map fun entry => (entry.1.name, entry.2)

theorem recognise_eq_ok_iff {overrides : Overrides} {entries : List (OptionKey × Json)} :
    recognise overrides = .ok entries ↔ overrides = named entries := by
  unfold recognise
  induction overrides generalizing entries with
  | nil => cases entries <;> simp [named]
  | cons entry overrides ih =>
      simp only [List.mapM_cons, bind_eq_ok_iff, ih, pure_eq_ok, Except.ok.injEq]
      constructor
      · rintro ⟨first, hfirst, rest, rfl, rfl⟩
        split at hfirst
        · rename_i k hk
          cases hfirst
          show entry :: named rest = (k.name, entry.2) :: named rest
          rw [OptionKey.name_of_ofName? hk]
        · cases hfirst
      · intro h
        cases entries with
        | nil => cases h
        | cons first rest =>
            cases h
            refine ⟨first, ?_, rest, rfl, rfl⟩
            rw [OptionKey.ofName?_name]

theorem lookup_named (entries : List (OptionKey × Json)) (k : OptionKey) :
    (named entries).lookup k.name = entries.lookup k := by
  induction entries with
  | nil => rfl
  | cons entry entries ih =>
      have hkeys : (k.name == entry.1.name) = (k == entry.1) := by
        simp [OptionKey.name_injective.eq_iff]
      rw [named, List.map_cons, List.lookup_cons, List.lookup_cons, hkeys]
      cases k == entry.1 with
      | true => rfl
      | false => exact ih

theorem last?_named (entries : List (OptionKey × Json)) (k : OptionKey) :
    (named entries).last? k = entries.reverse.lookup k := by
  rw [Overrides.last?, ← lookup_named, named, named, List.map_reverse]

/-- The options that come of overriding.  Of an option that no entry is for, the last value is
missing. -/
structure Overridden (o : Options) (overrides : Overrides) (p : Options) : Prop where
  recognised : ∀ entry ∈ overrides, ∃ k, OptionKey.name k = entry.1
  /-- Every entry but for the dialect holds the document of an option, whether or not it counts. -/
  readable : ∀ k v, k ≠ .dialect → (k.name, v) ∈ overrides → ∃ q : Options, q.document k = v
  sameDialect : overrides.first? .dialect = none → p.dialect = o.dialect
  newDialect : ∀ v, overrides.first? .dialect = some v →
    ∃ name, v = .str name ∧ Dialect.ofAlias? name = some p.dialect
  given : ∀ k v, k ≠ .dialect → overrides.last? k = some v → p.document k = v
  maxParams : overrides.last? .maxParams = none →
    p.maxParams = if p.dialect = o.dialect then o.maxParams else p.dialect.defaultMaxParams
  maxInsertRows : overrides.last? .maxInsertRows = none →
    p.maxInsertRows =
      if p.dialect = o.dialect then o.maxInsertRows else p.dialect.defaultMaxInsertRows
  kept : ∀ k, k ≠ .dialect → k ≠ .maxParams → k ≠ .maxInsertRows → overrides.last? k = none →
    p.document k = o.document k
  valid : p.validate = .ok ()

namespace Overridden

variable {overrides reordered : Overrides}

/-- An option has the value of its last entry, or the one that goes with the dialect. -/
theorem document_eq (h : o.Overridden overrides p) {k : OptionKey} (hk : k ≠ .dialect) :
    p.document k = (overrides.last? k).getD ((o.withDialect p.dialect).document k) := by
  cases hlast : overrides.last? k with
  | some v => exact h.given k v hk hlast
  | none =>
      by_cases hparams : k = .maxParams
      · subst hparams
        show Json.int p.maxParams = Json.int (o.withDialect p.dialect).maxParams
        rw [h.maxParams hlast, maxParams_withDialect]
      by_cases hrows : k = .maxInsertRows
      · subst hrows
        show Json.ofOption _ p.maxInsertRows =
          Json.ofOption _ (o.withDialect p.dialect).maxInsertRows
        rw [h.maxInsertRows hlast, maxInsertRows_withDialect]
      · exact (h.kept k hk hparams hrows hlast).trans
          (document_withDialect hk hparams hrows o p.dialect).symm

/-- Entries with distinct keys may come in any order. -/
theorem of_perm (h : o.Overridden overrides p) (hnodup : (overrides.map Prod.fst).Nodup)
    (hperm : overrides.Perm reordered) : o.Overridden reordered p := by
  have hfirst := Overrides.first?_eq_of_perm hnodup hperm
  have hlast := Overrides.last?_eq_of_perm hnodup hperm
  constructor
  · exact fun entry hentry => h.recognised entry (hperm.mem_iff.mpr hentry)
  · exact fun k v hk hv => h.readable k v hk (hperm.mem_iff.mpr hv)
  · exact hfirst ▸ h.sameDialect
  · exact hfirst ▸ h.newDialect
  · exact hlast ▸ h.given
  · exact hlast ▸ h.maxParams
  · exact hlast ▸ h.maxInsertRows
  · exact hlast ▸ h.kept
  · exact h.valid

end Overridden

theorem exists_named {overrides : Overrides}
    (h : ∀ entry ∈ overrides, ∃ k, OptionKey.name k = entry.1) :
    ∃ entries, overrides = named entries := by
  have hread : overrides ∈
      Set.range (List.map fun entry : OptionKey × Json => (entry.1.name, entry.2)) := by
    rw [Set.range_list_map]
    intro entry hentry
    obtain ⟨k, hk⟩ := h entry hentry
    exact ⟨(k, entry.2), Prod.ext hk rfl⟩
  obtain ⟨entries, hentries⟩ := hread
  exact ⟨entries, hentries.symm⟩

theorem mem_named {entries : List (OptionKey × Json)} {k : OptionKey} {v : Json} :
    (k.name, v) ∈ named entries ↔ (k, v) ∈ entries := by
  constructor
  · intro h
    obtain ⟨entry, hentry, heq⟩ := List.mem_map.mp h
    cases entry
    cases OptionKey.name_injective (congrArg Prod.fst heq)
    cases heq
    exact hentry
  · exact fun h => List.mem_map.mpr ⟨(k, v), h, rfl⟩

/-- Reconfiguration comes to the overridden options and to no others. -/
theorem reconfigure_eq_ok_iff {overrides : Overrides} :
    o.reconfigure overrides = .ok p ↔ o.Overridden overrides p := by
  simp only [reconfigure, bind_eq_ok_iff, recognise_eq_ok_iff, applyDialect_eq_ok_iff,
    applyEntries_eq_ok_iff, validated_eq_ok_iff]
  constructor
  · rintro ⟨entries, rfl, base, ⟨hbase, hsame, hnew⟩, q, ⟨hreadable, hdialect, hdocuments⟩, hvalid,
      rfl⟩
    rw [← hdialect] at hbase hsame hnew
    subst hbase
    have hfirst : (named entries).first? .dialect = entries.lookup .dialect :=
      lookup_named entries .dialect
    have hmissing {k : OptionKey} (hk : k ≠ .dialect) (hlast : (named entries).last? k = none) :
        p.document k = (o.withDialect p.dialect).document k := by
      rw [hdocuments k hk, ← last?_named, hlast, Option.getD_none]
    constructor
    · intro entry hentry
      obtain ⟨e, -, rfl⟩ := List.mem_map.mp hentry
      exact ⟨e.1, rfl⟩
    · intro k v hk hv
      obtain ⟨q, hq⟩ := hreadable k v (mem_named.mp hv)
      exact ⟨q, hq hk⟩
    · rwa [hfirst]
    · rwa [hfirst]
    · intro k v hk hlast
      rw [hdocuments k hk, ← last?_named, hlast, Option.getD_some]
    · intro hlast
      rw [← maxParams_withDialect]
      exact int_natCast_injective (hmissing (by decide) hlast)
    · intro hlast
      rw [← maxInsertRows_withDialect]
      exact Json.ofOption_injective (by simp) int_natCast_injective (hmissing (by decide) hlast)
    · intro k hk hparams hrows hlast
      exact (hmissing hk hlast).trans (document_withDialect hk hparams hrows o p.dialect)
    · exact hvalid
  · intro h
    obtain ⟨entries, rfl⟩ := exists_named h.recognised
    refine ⟨entries, rfl, o.withDialect p.dialect, ?_, p, ⟨?_, ?_, ?_⟩, h.valid, rfl⟩
    · rw [dialect_withDialect, ← lookup_named]
      exact ⟨rfl, h.sameDialect, h.newDialect⟩
    · intro k v hv
      by_cases hk : k = .dialect
      · exact ⟨o, fun hne => absurd hk hne⟩
      · obtain ⟨q, hq⟩ := h.readable k v hk (mem_named.mpr hv)
        exact ⟨q, fun _ => hq⟩
    · rw [dialect_withDialect]
    · intro k hk
      rw [← last?_named]
      exact h.document_eq hk

/-! ## Unknown keys -/

theorem recognise_append (before rest : Overrides) :
    recognise (before ++ rest) = do
      let first ← recognise before
      let last ← recognise rest
      return first ++ last := List.mapM_append

theorem recognise_of_unknown {before rest : Overrides} {key : String} {v : Json}
    (hbefore : ∀ entry ∈ before, ∃ k, OptionKey.name k = entry.1)
    (hkey : ∀ k, OptionKey.name k ≠ key) :
    recognise (before ++ (key, v) :: rest) = .error (.unknownOption key) := by
  obtain ⟨entries, hentries⟩ := exists_named hbefore
  have hnone : OptionKey.ofName? key = none := by
    cases hfind : OptionKey.ofName? key with
    | none => rfl
    | some k => exact absurd (OptionKey.name_of_ofName? hfind) (hkey k)
  have hrest : recognise ((key, v) :: rest) = .error (.unknownOption key) := by
    rw [recognise, List.mapM_cons, hnone]
    rfl
  rw [recognise_append, recognise_eq_ok_iff.mpr hentries, hrest]
  rfl

/-! ## Exactness -/

/-- An unknown key is told whatever else the overrides hold, the first one if there are several.
Otherwise reconfiguration comes to the overridden options, if there are any; and if no key is
repeated, it comes to the same in every order. -/
theorem reconfigure_exact (o : Options) (overrides : Overrides) :
    (∀ (before rest : Overrides) (key : String) (v : Json),
      overrides = before ++ (key, v) :: rest →
      (∀ entry ∈ before, ∃ k, OptionKey.name k = entry.1) → (∀ k, OptionKey.name k ≠ key) →
      o.reconfigure overrides = .error (.unknownOption key)) ∧
    (∀ p, o.reconfigure overrides = .ok p ↔ o.Overridden overrides p) ∧
    ((overrides.map Prod.fst).Nodup → ∀ reordered, overrides.Perm reordered →
      ∀ p, o.reconfigure reordered = .ok p ↔ o.reconfigure overrides = .ok p) := by
  refine ⟨fun before rest key v hsplit hbefore hkey => ?_, fun p => reconfigure_eq_ok_iff,
    fun hnodup reordered hperm p => ?_⟩
  · rw [reconfigure, hsplit, recognise_of_unknown hbefore hkey]
    rfl
  · rw [reconfigure_eq_ok_iff, reconfigure_eq_ok_iff]
    have hnodup' : (reordered.map Prod.fst).Nodup := (hperm.map Prod.fst).nodup_iff.mp hnodup
    exact ⟨fun h => h.of_perm hnodup' hperm.symm, fun h => h.of_perm hnodup hperm⟩

/-- Another dialect behind a limit. -/
def lateDialect : Overrides :=
  [("max_params", .int 7), ("dialect", .str "MSSQL"), ("table", .str "v")]

/-- The limit that is given, and the row limit of the dialect. -/
def switched : Options :=
  { limitedRows with
    dialect := .sqlserver, table := "v", maxParams := 7, maxInsertRows := some 1000 }

/-- The limit is kept in any order of the overrides.  An unknown key behind them is told. -/
theorem reconfigure_exact_lateDialect :
    limitedRows.Overridden lateDialect switched ∧
      (∀ reordered, lateDialect.Perm reordered →
        limitedRows.reconfigure reordered = .ok switched) ∧
      limitedRows.reconfigure (lateDialect ++ [("timeout", .int 30), ("", .null)]) =
        .error (.unknownOption "timeout") := by
  obtain ⟨-, hexact, horder⟩ := reconfigure_exact limitedRows lateDialect
  have hoverridden : limitedRows.Overridden lateDialect switched := (hexact switched).mp rfl
  refine ⟨hoverridden, fun reordered hperm => ?_, ?_⟩
  · exact (horder (by decide) reordered hperm switched).mpr rfl
  · have hunknown (k : OptionKey) : k.name ≠ "timeout" := by
      cases k <;> decide
    exact (reconfigure_exact limitedRows _).1 lateDialect _ "timeout" _ rfl
      hoverridden.recognised hunknown

end Options

end BoundSql
