import BoundSql.Options.Override
import Mathlib.Data.List.Basic
import Mathlib.Data.Set.List

/-!
# Options and their documents

Every option has a document, and options with the same documents are the same.  Overriding with
documents of options makes them agree in what the documents speak of and leaves the rest alone,
whatever the order.  Another dialect brings limits of its own, but it is applied before the other
documents, so it decides only those limits that no document speaks of.

Documents are trees here and not texts; how a number is written does not matter.
-/

namespace BoundSql

/-! ## Reading what was written -/

/-- Under distinct keys every entry is looked up. -/
theorem lookup_eq_some_iff_of_nodup {β : Type} {entries : List (String × β)}
    (h : (entries.map Prod.fst).Nodup) {key : String} {v : β} :
    entries.lookup key = some v ↔ (key, v) ∈ entries := by
  rw [List.lookup_eq_some_iff]
  constructor
  · rintro ⟨before, rest, rfl, -⟩
    exact List.mem_append_right before List.mem_cons_self
  · intro hmem
    obtain ⟨before, rest, rfl⟩ := List.append_of_mem hmem
    refine ⟨before, rest, rfl, fun entry hentry => ?_⟩
    rw [List.map_append, List.map_cons] at h
    have hfresh : key ∉ before.map Prod.fst := fun hkey =>
      (List.nodup_append.mp h).2.2 key hkey key List.mem_cons_self rfl
    have hne : key ≠ entry.1 := fun heq => hfresh (heq ▸ List.mem_map_of_mem hentry)
    simpa using hne

namespace Json

theorem readTexts_texts (texts : List String) :
    (Json.arr (texts.map .str)).readTexts = .ok texts := by
  show (texts.map Json.str).mapM readText = .ok texts
  induction texts with
  | nil => rfl
  | cons text texts ih =>
      rw [List.map_cons, List.mapM_cons, ih]
      rfl

section Nullable

variable {α : Type}

theorem readNullable_ofOption (encode : α → Json) (read : Json → Except OptionFault α)
    (hnull : ∀ a, encode a ≠ .null) (hread : ∀ a, read (encode a) = .ok a) (v : Option α) :
    (ofOption encode v).readNullable read = .ok v := by
  cases v with
  | none => rfl
  | some a =>
      have hmap : (read (encode a)).map some = .ok (some a) := by rw [hread a]; rfl
      unfold readNullable ofOption
      split
      · rename_i heq
        exact absurd heq (hnull a)
      · exact hmap

theorem ofOption_injective {encode : α → Json} (hnull : ∀ a, encode a ≠ .null)
    (hencode : Function.Injective encode) : Function.Injective (ofOption encode) := by
  intro v w h
  cases v with
  | none =>
      cases w with
      | none => rfl
      | some b => exact absurd h.symm (hnull b)
  | some a =>
      cases w with
      | none => exact absurd h (hnull a)
      | some b => exact congrArg some (hencode h)

end Nullable

end Json

theorem Dialect.name_injective : Function.Injective Dialect.name := by
  intro d e h
  have hname := ofName?_name d
  rw [h, ofName?_name] at hname
  exact (Option.some.inj hname).symm

theorem OptionKey.name_injective : Function.Injective OptionKey.name := by
  intro k l h
  have hname := ofName?_name k
  rw [h, ofName?_name] at hname
  exact (Option.some.inj hname).symm

theorem OptionKey.mem_all (k : OptionKey) : k ∈ all := by
  cases k <;> decide

theorem OptionKey.name_of_ofName? {name : String} {k : OptionKey} (h : ofName? name = some k) :
    k.name = name := by
  simpa using List.find?_some h

namespace Options

variable {o p : Options}

/-! ## Documents of single options -/

/-- The document of one option. -/
def document (o : Options) : OptionKey → Json
  | .dialect => .str o.dialect.name
  | .table => .str o.table
  | .columns => .arr (o.columns.map .str)
  | .idColumn => Json.ofOption .str o.idColumn
  | .maxParams => .int o.maxParams
  | .maxInsertRows => Json.ofOption (fun (n : Nat) => .int n) o.maxInsertRows
  | .maxPageSize => .int o.maxPageSize

/-- One option with its name, as it stands in a document. -/
def member (o : Options) (k : OptionKey) : String × Json := (k.name, o.document k)

theorem int_natCast_injective : Function.Injective fun n : Nat => Json.int n :=
  fun _ _ h => Int.ofNat.inj (Json.int.inj h)

/-- Options with the same documents are the same. -/
theorem eq_of_document_eq (h : ∀ k, p.document k = o.document k) : p = o := by
  have hdialect : p.dialect = o.dialect := Dialect.name_injective (Json.str.inj (h .dialect))
  have htable : p.table = o.table := Json.str.inj (h .table)
  have hcolumns : p.columns = o.columns :=
    List.map_injective_iff.mpr (fun _ _ => Json.str.inj) (Json.arr.inj (h .columns))
  have hid : p.idColumn = o.idColumn :=
    Json.ofOption_injective (by simp) (fun _ _ => Json.str.inj) (h .idColumn)
  have hparams : p.maxParams = o.maxParams := int_natCast_injective (h .maxParams)
  have hrows : p.maxInsertRows = o.maxInsertRows :=
    Json.ofOption_injective (by simp) int_natCast_injective (h .maxInsertRows)
  have hpage : p.maxPageSize = o.maxPageSize := int_natCast_injective (h .maxPageSize)
  cases p
  cases o
  simp_all

/-- The options with one of them replaced by that of others.  The dialect is left as it is,
because it is changed before the rest. -/
def adopt (p o : Options) : OptionKey → Options
  | .dialect => p
  | .table => { p with table := o.table }
  | .columns => { p with columns := o.columns }
  | .idColumn => { p with idColumn := o.idColumn }
  | .maxParams => { p with maxParams := o.maxParams }
  | .maxInsertRows => { p with maxInsertRows := o.maxInsertRows }
  | .maxPageSize => { p with maxPageSize := o.maxPageSize }

theorem applyEntry_document (p o : Options) (k : OptionKey) :
    p.applyEntry (k, o.document k) = .ok (p.adopt o k) := by
  cases k with
  | dialect | table | maxParams | maxPageSize => rfl
  | columns =>
      simp only [applyEntry, document, Json.readTexts_texts]
      rfl
  | idColumn =>
      have hread :=
        Json.readNullable_ofOption .str Json.readText (by simp) (fun _ => rfl) o.idColumn
      simp only [applyEntry, document, hread]
      rfl
  | maxInsertRows =>
      have hread := Json.readNullable_ofOption (fun n : Nat => .int n) (Json.readCount .count)
        (by simp) (fun _ => rfl) o.maxInsertRows
      simp only [applyEntry, document, hread]
      rfl

theorem document_adopt_self (h : p.dialect = o.dialect) (k : OptionKey) :
    (p.adopt o k).document k = o.document k := by
  cases k with
  | dialect => exact congrArg (fun d : Dialect => Json.str d.name) h
  | table | columns | idColumn | maxParams | maxInsertRows | maxPageSize => rfl

/-- Every document after an adoption is that of one of the two. -/
theorem document_adopt (p o : Options) (l k : OptionKey) :
    (p.adopt o l).document k = p.document k ∨ (p.adopt o l).document k = o.document k := by
  cases l <;> cases k <;> simp [adopt, document]

/-- Where options agree with those they adopt from, they still agree afterwards. -/
theorem document_adopt_of_eq {k : OptionKey} (h : p.document k = o.document k) (l : OptionKey) :
    (p.adopt o l).document k = o.document k := by
  rcases document_adopt p o l k with hkept | hadopted
  · exact hkept.trans h
  · exact hadopted

/-! ## Documents of several options -/

/-- Applying documents of options makes them agree there and wherever they agreed before. -/
theorem applyEntries_documents (hdialect : p.dialect = o.dialect) (keys : List OptionKey) :
    ∃ q, p.applyEntries (keys.map fun k => (k, o.document k)) = .ok q ∧
      ∀ k, k ∈ keys ∨ p.document k = o.document k → q.document k = o.document k := by
  induction keys generalizing p with
  | nil => exact ⟨p, rfl, fun k hk => hk.resolve_left List.not_mem_nil⟩
  | cons l keys ih =>
      have hadopt : (p.adopt o l).dialect = o.dialect := by
        cases l <;> exact hdialect
      obtain ⟨q, hq, hagrees⟩ := ih hadopt
      refine ⟨q, ?_, fun k hk => hagrees k ?_⟩
      · rw [List.map_cons, applyEntries, applyEntry_document]
        exact hq
      · rcases hk with hk | hk
        · rcases List.mem_cons.mp hk with rfl | hk
          · exact Or.inr (document_adopt_self hdialect k)
          · exact Or.inl hk
        · exact Or.inr (document_adopt_of_eq hk l)

theorem recognise_members (o : Options) (keys : List OptionKey) :
    recognise (keys.map o.member) = .ok (keys.map fun k => (k, o.document k)) := by
  unfold recognise
  induction keys with
  | nil => rfl
  | cons k keys ih =>
      rw [List.map_cons, List.mapM_cons, ih]
      simp only [member, OptionKey.ofName?_name]
      rfl

theorem dialect_withDialect (p : Options) (d : Dialect) : (p.withDialect d).dialect = d := by
  unfold withDialect
  split
  · rename_i hsame
    exact hsame.symm
  · rfl

theorem applyDialect_documents {keys : List OptionKey}
    (h : .dialect ∈ keys ∨ p.dialect = o.dialect) :
    p.applyDialect (keys.map fun k => (k, o.document k)) = .ok (p.withDialect o.dialect) := by
  unfold applyDialect
  cases hfind : (keys.map fun k => (k, o.document k)).find? fun entry => entry.1 = .dialect with
  | none =>
      have hmissing : .dialect ∉ keys := fun hmem =>
        List.find?_eq_none.mp hfind _ (List.mem_map_of_mem hmem) (decide_eq_true rfl)
      have hsame : p.dialect = o.dialect := h.resolve_left hmissing
      rw [withDialect, if_pos hsame.symm]
  | some entry =>
      have hkey : entry.1 = .dialect := by simpa using List.find?_some hfind
      obtain ⟨k, -, rfl⟩ := List.mem_map.mp (List.mem_of_find?_eq_some hfind)
      subst hkey
      have hread : readDialect (o.document .dialect) = .ok o.dialect := by
        simp only [readDialect, document, Json.readText, faultOf, Dialect.ofAlias?_name]
      simp only [hread]
      rfl

/-- Overriding with documents of options gives these options, once they are checked, if what the
documents do not speak of is the same already. -/
theorem reconfigure_members {keys : List OptionKey}
    (hdialect : .dialect ∈ keys ∨ p.dialect = o.dialect)
    (hrest : ∀ k, k ∉ keys → (p.withDialect o.dialect).document k = o.document k) :
    p.reconfigure (keys.map o.member) = o.validated := by
  obtain ⟨q, hq, hagrees⟩ := applyEntries_documents (p.dialect_withDialect o.dialect) keys
  have hall : q = o := by
    refine eq_of_document_eq fun k => hagrees k ?_
    by_cases hk : k ∈ keys
    · exact Or.inl hk
    · exact Or.inr (hrest k hk)
  unfold reconfigure
  rw [recognise_members]
  show (do let b ← p.applyDialect _; let b ← b.applyEntries _; b.validated) = _
  rw [applyDialect_documents hdialect]
  show (do let b ← (p.withDialect o.dialect).applyEntries _; b.validated) = _
  rw [hq, hall]
  rfl

/-- The document of valid options, its members in any order, turns all options into these.  It
names every option once and nothing else, and what is absent is null in it. -/
theorem reconfigure_document (o p : Options) (overrides : Overrides) (ho : o.validate = .ok ())
    (horder : overrides.Perm o.toMembers) :
    p.reconfigure overrides = .ok o ∧
      (overrides.map Prod.fst).Nodup ∧
      (∀ name, name ∈ overrides.map Prod.fst ↔ ∃ k, OptionKey.ofName? name = some k) ∧
      (o.idColumn = none → (OptionKey.idColumn.name, Json.null) ∈ overrides) ∧
      (o.maxInsertRows = none → (OptionKey.maxInsertRows.name, Json.null) ∈ overrides) := by
  have hmember (k : OptionKey) : o.member k ∈ overrides :=
    horder.mem_iff.mpr (List.mem_map_of_mem (OptionKey.mem_all k))
  have hnames : (overrides.map Prod.fst).Perm (OptionKey.all.map OptionKey.name) :=
    horder.map Prod.fst
  refine ⟨?_, ?_, ?_, ?_, ?_⟩
  · have hread : overrides ∈ Set.range (List.map o.member) := by
      rw [Set.range_list_map]
      intro m hm
      have hm' : m ∈ OptionKey.all.map o.member := horder.mem_iff.mp hm
      obtain ⟨k, -, hk⟩ := List.mem_map.mp hm'
      exact ⟨k, hk⟩
    obtain ⟨keys, rfl⟩ := hread
    have hall (k : OptionKey) : k ∈ keys := by
      obtain ⟨l, hl, hlk⟩ := List.mem_map.mp (hmember k)
      rwa [← OptionKey.name_injective (congrArg Prod.fst hlk)]
    rw [reconfigure_members (Or.inl (hall .dialect)) fun k hk => absurd (hall k) hk, validated, ho]
  · exact hnames.nodup_iff.mpr (by decide)
  · intro name
    rw [hnames.mem_iff, List.mem_map]
    constructor
    · rintro ⟨k, -, rfl⟩
      exact ⟨k, OptionKey.ofName?_name k⟩
    · rintro ⟨k, hk⟩
      exact ⟨k, OptionKey.mem_all k, OptionKey.name_of_ofName? hk⟩
  · intro hnone
    have hid := hmember .idColumn
    simp only [member, document, hnone] at hid
    exact hid
  · intro hnone
    have hrows := hmember .maxInsertRows
    simp only [member, document, hnone] at hrows
    exact hrows

/-- Options of a dialect with a row limit that has been taken away, and with the largest limit on
parameters that a machine word holds. -/
def unlimitedRows : Options :=
  { Options.defaults .sqlserver "dbo.t" ["a", "b"] with
    maxParams := 18446744073709551615, maxInsertRows := none }

/-- Options of another dialect with an identifier column and a row limit. -/
def limitedRows : Options :=
  { Options.defaults .mysql "u" ["id"] with idColumn := some "id", maxInsertRows := some 5 }

theorem reconfigure_document_unlimitedRows :
    unlimitedRows.validate = .ok () ∧
      limitedRows.reconfigure unlimitedRows.toMembers.reverse = .ok unlimitedRows := by
  have hvalid : unlimitedRows.validate = .ok () := by decide
  exact ⟨hvalid, (reconfigure_document unlimitedRows limitedRows _ hvalid
    (List.reverse_perm _)).1⟩

end Options

end BoundSql
