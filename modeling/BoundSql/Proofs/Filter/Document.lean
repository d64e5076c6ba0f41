import BoundSql.Filter.Json
import BoundSql.Proofs.Filter.Buildable
import BoundSql.Proofs.Filter.Entries
import Mathlib.Data.List.Forall2

/-!
# Filters read from documents

The places of a document are its operator codes and the positions in which it should have scalars,
read from left to right.  A filter is read exactly if none of them is faulty, and otherwise the
first faulty one gives the error; in particular the operand of an unknown operator is never looked
at.  The filter has an entry for each member of the document, and the values it binds are those of
the places, in the same order.

Objects have distinct keys.  Whether a restriction is built of the filter is not decided here.
-/

namespace BoundSql

/-! ## Shapes -/

namespace Json

def isScalar : Json → Bool
  | .arr _ | .obj _ => false
  | .null | .bool _ | .int _ | .real _ | .str _ => true

/-- A scalar or an array of scalars. -/
def IsOperand : Json → Prop
  | .arr items => ∀ item ∈ items, item.isScalar = true
  | j => j.isScalar = true

/-- An operand, or an object of operands under operator codes. -/
def IsCondition : Json → Prop
  | .obj members => ∀ m ∈ members, m.1 ∈ Operator.all.map Operator.code ∧ m.2.IsOperand
  | j => j.IsOperand

end Json

/-- An operand holds the images of the scalars that it is read from. -/
inductive Operand.Holds : Operand → Json → Prop where
  | value {j : Json} {v : Value} (image : Value.ofJson? j = some v) : Holds (.value v) j
  | list {items : List Json} {vs : List Value}
      (images : items.map Value.ofJson? = vs.map some) : Holds (.list vs) (.arr items)

/-- A condition holds the images of the scalars that it is read from, under the operators of its
document. -/
inductive Condition.Holds : Condition → Json → Prop where
  | value {j : Json} {v : Value} (image : Value.ofJson? j = some v) : Holds (.value v) j
  | list {items : List Json} {vs : List Value}
      (images : items.map Value.ofJson? = vs.map some) : Holds (.list vs) (.arr items)
  | ops {members : List (String × Json)} {entries : List (Operator × Operand)}
      (each : List.Forall₂ (fun entry m => entry.1.code = m.1 ∧ entry.2.Holds m.2)
        entries members) : Holds (.ops entries) (.obj members)

namespace Filter

/-- The entries of a filter are read from the members of an object, in order. -/
def Holds (f : Filter) (members : List (String × Json)) : Prop :=
  List.Forall₂ (fun entry m => entry.1 = m.1 ∧ entry.2.Holds m.2) f.entries members

/-! ## Places -/

/-- A place in a document that is looked at on its own. -/
inductive Place where
  /-- A key that should be an operator code. -/
  | key (text : String)
  /-- A position that should have a scalar, with the operator that it is an operand of. -/
  | scalar (column operator : String) (j : Json)

namespace Place

/-- What is wrong with a place. -/
def fault? : Place → Option QueryError
  | .key text =>
      if text ∈ Operator.all.map Operator.code then none else some (.invalidOperator text)
  | .scalar column operator j =>
      if j.isScalar then none else some (.operandMismatch column operator .nested)

/-- The value that a place has for the parameters of a statement; null and the operands of null
checks have none. -/
def value? : Place → Option Value
  | .key _ | .scalar _ _ .null => none
  | .scalar _ operator j =>
      if operator ∈ [Operator.nu.code, Operator.nn.code] then none else Value.ofJson? j

end Place

def operandPlaces (column operator : String) : Json → List Place
  | .arr items => items.map (.scalar column operator)
  | j => [.scalar column operator j]

/-- The places of a condition; without operators it asks for equality. -/
def conditionPlaces (column : String) : Json → List Place
  | .obj members => members.flatMap fun m => .key m.1 :: operandPlaces column m.1 m.2
  | j => operandPlaces column Operator.eq.code j

/-- The places of an object from left to right. -/
def places (members : List (String × Json)) : List Place :=
  members.flatMap fun m => conditionPlaces m.1 m.2

/-! ## Faults and shapes -/

section Shapes

variable {column operator : String}

theorem operandPlaces_of_isScalar {j : Json} (h : j.isScalar = true) :
    operandPlaces column operator j = [.scalar column operator j] := by
  cases j with
  | arr | obj => cases h
  | null | bool | int | real | str => rfl

theorem conditionPlaces_of_isScalar {j : Json} (h : j.isScalar = true) :
    conditionPlaces column j = [.scalar column Operator.eq.code j] := by
  cases j with
  | arr | obj => cases h
  | null | bool | int | real | str => rfl

theorem fault?_scalar_eq_none_iff {j : Json} :
    (Place.scalar column operator j).fault? = none ↔ j.isScalar = true := by
  cases h : j.isScalar <;> simp [Place.fault?, h]

theorem fault?_key_eq_none_iff {text : String} :
    (Place.key text).fault? = none ↔ text ∈ Operator.all.map Operator.code := by
  rw [Place.fault?]
  split
  · rename_i h
    exact iff_of_true rfl h
  · rename_i h
    exact iff_of_false (by simp) h

theorem faultless_operandPlaces_iff {j : Json} :
    (∀ p ∈ operandPlaces column operator j, p.fault? = none) ↔ j.IsOperand := by
  cases j with
  | arr items => simp [operandPlaces, Json.IsOperand, fault?_scalar_eq_none_iff]
  | null | bool | int | real | str | obj =>
      simp [operandPlaces, Json.IsOperand, fault?_scalar_eq_none_iff]

theorem faultless_conditionPlaces_iff {j : Json} :
    (∀ p ∈ conditionPlaces column j, p.fault? = none) ↔ j.IsCondition := by
  cases j with
  | obj members =>
      simp only [conditionPlaces, List.forall_mem_flatMap, List.forall_mem_cons,
        fault?_key_eq_none_iff, faultless_operandPlaces_iff, Json.IsCondition]
  | null | bool | int | real | str | arr =>
      simp only [conditionPlaces, Json.IsCondition, faultless_operandPlaces_iff]

theorem faultless_places_iff {members : List (String × Json)} :
    (∀ p ∈ places members, p.fault? = none) ↔ ∀ m ∈ members, m.2.IsCondition := by
  simp only [places, List.forall_mem_flatMap, faultless_conditionPlaces_iff]

end Shapes

/-! ## Readers as scans -/

/-- A reader that looks at places in order: the first faulty one gives the error, and without one
the reader has a result of a kind. -/
structure Scans {α : Type} (ps : List Place) (x : Except QueryError α) (P : α → Prop) : Prop where
  error : ∀ e, ps.findSome? Place.fault? = some e → x = .error e
  ok : ps.findSome? Place.fault? = none → ∃ a, x = .ok a ∧ P a

namespace Scans

variable {α β : Type} {ps qs : List Place} {x : Except QueryError α} {P : α → Prop}
  {Q : β → Prop}

theorem pure {a : α} (h : P a) : Scans [] (.ok a) P where
  error _ h := nomatch h
  ok _ := ⟨a, rfl, h⟩

theorem bind {f : α → Except QueryError β} (hx : Scans ps x P)
    (hf : ∀ a, P a → Scans qs (f a) Q) : Scans (ps ++ qs) (x >>= f) Q := by
  cases hfirst : ps.findSome? Place.fault? with
  | some e =>
      have hfault : (ps ++ qs).findSome? Place.fault? = some e := by simp [hfirst]
      refine ⟨fun e' he' => ?_, fun hnone => ?_⟩
      · rw [hfault] at he'
        cases he'
        rw [hx.error e hfirst]
        rfl
      · cases hfault.symm.trans hnone
  | none =>
      obtain ⟨a, rfl, ha⟩ := hx.ok hfirst
      have hrest : (ps ++ qs).findSome? Place.fault? = qs.findSome? Place.fault? := by
        simp [hfirst]
      refine ⟨fun e he => (hf a ha).error e (hrest ▸ he), fun hnone => (hf a ha).ok (hrest ▸ hnone)⟩

/-- A last step that only maps the result looks at nothing. -/
theorem map {f : α → β} (hx : Scans ps x P) (hf : ∀ a, P a → Q (f a)) : Scans ps (x.map f) Q where
  error e he := by
    rw [hx.error e he]
    rfl
  ok hnone := by
    obtain ⟨a, rfl, ha⟩ := hx.ok hnone
    exact ⟨f a, rfl, hf a ha⟩

theorem mono {R : α → Prop} (hx : Scans ps x P) (h : ∀ a, P a → R a) : Scans ps x R where
  error := hx.error
  ok hnone := by
    obtain ⟨a, ha, hP⟩ := hx.ok hnone
    exact ⟨a, ha, h a hP⟩

theorem ok_iff (h : Scans ps x P) : (∃ a, x = .ok a) ↔ ∀ p ∈ ps, p.fault? = none := by
  rw [← List.findSome?_eq_none_iff]
  cases hfirst : ps.findSome? Place.fault? with
  | some e => simp [h.error e hfirst]
  | none =>
      obtain ⟨a, ha, -⟩ := h.ok hfirst
      exact iff_of_true ⟨a, ha⟩ rfl

theorem error_iff {e : QueryError} (h : Scans ps x P) :
    x = .error e ↔ ∃ before p after, ps = before ++ p :: after ∧ p.fault? = some e ∧
      ∀ q ∈ before, q.fault? = none := by
  rw [← List.findSome?_eq_some_iff]
  cases hfirst : ps.findSome? Place.fault? with
  | some e' => simp [h.error e' hfirst]
  | none =>
      obtain ⟨a, rfl, -⟩ := h.ok hfirst
      simp

theorem of_ok {a : α} (h : Scans ps (.ok a) P) : P a := by
  cases hfirst : ps.findSome? Place.fault? with
  | some e => cases h.error e hfirst
  | none =>
      obtain ⟨a', ha', hP⟩ := h.ok hfirst
      cases ha'
      exact hP

end Scans

section Readers

variable (column : String)

theorem scans_scalarOfJson (op : Operator) (j : Json) :
    Scans [.scalar column op.code j] (scalarOfJson column op j)
      fun v => Value.ofJson? j = some v := by
  cases j with
  | null | bool | int | real | str =>
      exact ⟨fun e he => by simp [Place.fault?, Json.isScalar] at he, fun _ => ⟨_, rfl, rfl⟩⟩
  | arr | obj =>
      refine ⟨fun e he => ?_, fun h => by simp [Place.fault?, Json.isScalar] at h⟩
      have he : QueryError.operandMismatch column op.code .nested = e := by
        simpa [Place.fault?, Json.isScalar] using he
      rw [← he]
      rfl

theorem scans_listOfJson (op : Operator) (items : List Json) :
    Scans (items.map (.scalar column op.code)) (listOfJson column op items)
      fun vs => items.map Value.ofJson? = vs.map some := by
  induction items with
  | nil => exact .pure rfl
  | cons item items ih =>
      refine (scans_scalarOfJson column op item).bind fun v hv => ?_
      refine ih.map fun vs hvs => ?_
      rw [List.map_cons, List.map_cons, hv, hvs]

theorem scans_operandOfJson (op : Operator) (j : Json) :
    Scans (operandPlaces column op.code j) (operandOfJson column op j) fun x => x.Holds j := by
  cases j with
  | arr items => exact (scans_listOfJson column op items).map fun _ => .list
  | null | bool | int | real | str | obj =>
      exact (scans_scalarOfJson column op _).map fun _ => .value

theorem scans_operatorOfCode (text : String) :
    Scans [.key text] (operatorOfCode text) fun op => op.code = text := by
  unfold operatorOfCode
  cases hop : Operator.ofCode? text with
  | some op =>
      have hcode : op.code = text := by simpa using List.find?_some hop
      have hknown : text ∈ Operator.all.map Operator.code :=
        List.mem_map.mpr ⟨op, List.mem_of_find?_eq_some hop, hcode⟩
      exact ⟨fun e he => by simp [fault?_key_eq_none_iff.mpr hknown] at he,
        fun _ => ⟨op, rfl, hcode⟩⟩
  | none =>
      have hunknown : text ∉ Operator.all.map Operator.code := by
        simpa using List.find?_eq_none.mp hop
      refine ⟨fun e he => ?_, fun h => absurd (fault?_key_eq_none_iff.mp ?_) hunknown⟩
      · simpa [Place.fault?, hunknown] using he
      · simpa using h

theorem scans_opsOfJson (members : List (String × Json)) :
    Scans (members.flatMap fun m => .key m.1 :: operandPlaces column m.1 m.2)
      (opsOfJson column members)
      fun entries => List.Forall₂ (fun entry m => entry.1.code = m.1 ∧ entry.2.Holds m.2)
        entries members := by
  induction members with
  | nil => exact .pure .nil
  | cons m members ih =>
      obtain ⟨code, j⟩ := m
      rw [List.flatMap_cons, ← List.singleton_append, List.append_assoc]
      -- the code comes before its operand, so an unknown one is reported first
      refine (scans_operatorOfCode code).bind fun op hop => ?_
      subst hop
      refine (scans_operandOfJson column op j).bind fun operand hoperand => ?_
      exact ih.map fun entries hentries => .cons ⟨rfl, hoperand⟩ hentries

theorem scans_conditionOfJson (j : Json) :
    Scans (conditionPlaces column j) (conditionOfJson column j) fun c => c.Holds j := by
  cases j with
  | arr items => exact (scans_listOfJson column .eq items).map fun _ => .list
  | obj members => exact (scans_opsOfJson column members).map fun _ => .ops
  | null | bool | int | real | str => exact (scans_scalarOfJson column .eq _).map fun _ => .value

end Readers

/-- Members with new and distinct keys become entries behind those that are there. -/
theorem scans_addMembers {f : Filter} {members : List (String × Json)}
    (hdistinct : (members.map Prod.fst).Nodup) (hnew : ∀ m ∈ members, m.1 ∉ f.columns) :
    Scans (places members) (addMembers f members) fun g =>
      ∃ added, g.entries = f.entries ++ added ∧ (mk added).Holds members := by
  induction members generalizing f with
  | nil => exact .pure ⟨[], (List.append_nil _).symm, .nil⟩
  | cons m members ih =>
      obtain ⟨column, j⟩ := m
      obtain ⟨hcolumn, hdistinct⟩ := List.nodup_cons.mp hdistinct
      obtain ⟨hfresh, hnew⟩ := List.forall_mem_cons.mp hnew
      refine (scans_conditionOfJson column j).bind fun c hc => ?_
      -- a key that stood there before would be replaced in its place and not appended
      have hentries : (f.condition column c).entries = f.entries ++ [(column, c)] :=
        alterEntries_of_notMem hfresh
      have hrest : ∀ m ∈ members, m.1 ∉ (f.condition column c).columns := by
        intro m hm hmem
        rw [columns, hentries, List.map_append, List.mem_append] at hmem
        rcases hmem with hmem | hmem
        · exact hnew m hm hmem
        · exact hcolumn (List.mem_singleton.mp hmem ▸ List.mem_map_of_mem hm)
      refine (ih hdistinct hrest).mono fun g hg => ?_
      obtain ⟨added, hadded, hholds⟩ := hg
      refine ⟨(column, c) :: added, ?_, .cons ⟨rfl, hc⟩ hholds⟩
      rw [hadded, hentries, List.append_assoc]
      rfl

theorem scans_ofMembers {members : List (String × Json)}
    (hdistinct : (members.map Prod.fst).Nodup) :
    Scans (places members) (ofMembers members) fun f => f.Holds members := by
  refine (scans_addMembers hdistinct fun _ _ => List.not_mem_nil).mono fun f h => ?_
  obtain ⟨added, hadded, hholds⟩ := h
  have hentries : f.entries = added := hadded
  rw [Holds, hentries]
  exact hholds

/-! ## Values in document order -/

section Values

variable {column operator : String}

theorem value?_of_image {j : Json} {v : Value} (h : Value.ofJson? j = some v) :
    (Place.scalar column operator j).value? =
      if v = .null ∨ operator ∈ [Operator.nu.code, Operator.nn.code] then none else some v := by
  cases j with
  | arr | obj => cases h
  | null =>
      cases h
      rfl
  | bool | real | str =>
      cases h
      simp [Place.value?, Value.ofJson?]
  | int n =>
      have hv : v = Value.ofInt n := (Option.some.inj h).symm
      have hne : v ≠ .null := by
        rw [hv, Value.ofInt]
        split <;> simp
      simp [Place.value?, h, hne]

theorem isScalar_of_image {j : Json} {v : Value} (h : Value.ofJson? j = some v) :
    j.isScalar = true := by
  cases j with
  | arr | obj => cases h
  | null | bool | int | real | str => rfl

theorem filterMap_value?_of_images {items : List Json} {vs : List Value}
    (h : items.map Value.ofJson? = vs.map some) (hclean : Value.null ∉ vs)
    (hoperator : operator ∉ [Operator.nu.code, Operator.nn.code]) :
    (items.map (Place.scalar column operator)).filterMap Place.value? = vs := by
  induction vs generalizing items with
  | nil =>
      rw [List.map_eq_nil_iff.mp h]
      rfl
  | cons v vs ih =>
      obtain ⟨item, rest, rfl, hitem, hrest⟩ := List.map_eq_cons_iff.mp h
      rw [List.mem_cons, not_or] at hclean
      obtain ⟨hv, hclean⟩ := hclean
      have hvalue : (Place.scalar column operator item).value? = some v := by
        rw [value?_of_image hitem, if_neg]
        rintro (hnull | hcheck)
        · exact hv hnull.symm
        · exact hoperator hcheck
      rw [List.map_cons, List.filterMap_cons_some hvalue, ih hrest hclean]

/-- An operand that is admitted binds the values of its places. -/
theorem values_operandPlaces (column : String) {op : Operator} {operand : Operand} {j : Json}
    (hadmits : op.Admits operand) (h : operand.Holds j) :
    (Test.ofOperator op operand).flatMap Test.values =
      (operandPlaces column op.code j).filterMap Place.value? := by
  cases h with
  | @value _ v image =>
      rw [operandPlaces_of_isScalar (isScalar_of_image image), List.filterMap_cons,
        value?_of_image image]
      by_cases hv : v = .null
      · subst hv
        have hop : op ∈ [Operator.eq, .ne] := by simpa [Operator.Admits] using hadmits
        cases op with
        | eq | ne => rfl
        | lt | le | gt | ge | lk | nl | nu | nn => simp at hop
      · rw [Test.ofOperator_value op hv]
        cases op <;> simp [hv, Test.values, Operator.code]
  | @list items vs images =>
      obtain ⟨hop, -, hclean⟩ := hadmits
      rw [operandPlaces]
      cases op with
      | lt | le | gt | ge | nu | nn => simp at hop
      | eq | ne | lk | nl =>
          rw [filterMap_value?_of_images images hclean (by decide)]
          simp [Test.ofOperator, Test.values, List.flatMap_map]

theorem values_conditionPlaces {c : Condition} {j : Json} (hc : c.WellFormed) (h : c.Holds j) :
    c.tests.flatMap Test.values = (conditionPlaces column j).filterMap Place.value? := by
  cases h with
  | @value j v image =>
      have hscalar := isScalar_of_image image
      rw [Condition.tests_value, conditionPlaces_of_isScalar hscalar,
        ← operandPlaces_of_isScalar hscalar]
      exact values_operandPlaces column (hc.admits _ List.mem_cons_self) (.value image)
  | @list items vs images =>
      rw [Condition.tests_list]
      exact values_operandPlaces column (hc.admits _ List.mem_cons_self) (.list images)
  | @ops members entries each =>
      have hadmits : ∀ entry ∈ entries, entry.1.Admits entry.2 := hc.admits
      -- the induction ends without operators, which is no well-formed condition
      clear hc
      induction each with
      | nil => rfl
      | @cons entry m entries members hentry each ih =>
          obtain ⟨hcode, hholds⟩ := hentry
          obtain ⟨hfirst, hrest⟩ := List.forall_mem_cons.mp hadmits
          have hkey : (Place.key m.1).value? = none := rfl
          rw [Condition.tests_ops_cons, List.flatMap_append, ih hrest,
            values_operandPlaces column hfirst hholds, hcode]
          simp [conditionPlaces, hkey]

end Values

theorem Holds.columns_eq {f : Filter} {members : List (String × Json)} (h : f.Holds members) :
    f.columns = members.map Prod.fst := by
  rw [columns]
  unfold Holds at h
  generalize f.entries = entries at h
  induction h with
  | nil => rfl
  | @cons entry m entries members hentry _ ih =>
      rw [List.map_cons, List.map_cons, hentry.1, ih]

/-- A filter whose conditions are well formed binds the values of its document in their order. -/
theorem values_places {entries : List (String × Condition)} {members : List (String × Json)}
    (h : (mk entries).Holds members) (hwell : ∀ entry ∈ entries, entry.2.WellFormed) :
    ((tests ⟨entries⟩).flatMap fun t => t.2.values) = (places members).filterMap Place.value? := by
  replace h : List.Forall₂ (fun entry m => entry.1 = m.1 ∧ entry.2.Holds m.2) entries members := h
  induction h with
  | nil => rfl
  | @cons entry m entries members hentry _ ih =>
      obtain ⟨column, c⟩ := entry
      obtain ⟨hfirst, hrest⟩ := List.forall_mem_cons.mp hwell
      have hplaces : places (m :: members) = conditionPlaces m.1 m.2 ++ places members :=
        List.flatMap_cons
      rw [tests_cons, List.flatMap_append, ih hrest, hplaces, List.filterMap_append,
        List.flatMap_map, ← values_conditionPlaces hfirst hentry.2]

/-- Reading a filter looks at the places of its document from left to right.  It succeeds exactly if
all of them have the shape they should have, and otherwise fails with the error of the first that
has not; what is read has the members of the document as its entries, and what a restriction binds
are the values of the places. -/
theorem ofMembers_reads_document {members : List (String × Json)}
    (hdistinct : (members.map Prod.fst).Nodup) :
    ((∃ f, ofMembers members = .ok f) ↔ ∀ m ∈ members, m.2.IsCondition) ∧
    (∀ e, ofMembers members = .error e ↔ ∃ before p after,
      places members = before ++ p :: after ∧ p.fault? = some e ∧
        ∀ q ∈ before, q.fault? = none) ∧
    ∀ f, ofMembers members = .ok f →
      f.Holds members ∧ f.columns = members.map Prod.fst ∧
        ∀ (o : Options) (w : Fragment), (o.buildWhere f).result = .ok w →
          w.params = (places members).filterMap Place.value? := by
  have hscans := scans_ofMembers hdistinct
  refine ⟨hscans.ok_iff.trans faultless_places_iff, fun e => hscans.error_iff, fun f hf => ?_⟩
  have hholds : f.Holds members := (hf ▸ hscans).of_ok
  refine ⟨hholds, hholds.columns_eq, fun o w hw => ?_⟩
  obtain ⟨ps, hps, -⟩ := Options.buildWhere_eq_ok_iff.mp hw
  obtain ⟨hentries, hall⟩ := predicates_eq_ok_iff.mp hps
  have hwell : ∀ entry ∈ f.entries, entry.2.WellFormed :=
    fun entry hentry => (hentries entry hentry).wellFormed
  calc w.params = ps.flatMap Predicate.params := Options.params_of_buildWhere hw hps
    _ = f.tests.flatMap fun t => t.2.values := by
        rw [hall, List.flatMap_map]
        exact congrArg f.tests.flatMap (funext fun t => Test.params_on _ t.2)
    _ = (places members).filterMap Place.value? := values_places hholds hwell

/-- A document with a list, a comparison with null between others, null checks and patterns. -/
def nestedMembers : List (String × Json) :=
  [("id", .arr [.int 3, .int 4]), ("name", .null),
    ("age", .obj [("ge", .int 18), ("ne", .null), ("lt", .str "x")]),
    ("gone", .obj [("nu", .str "")]), ("tag", .obj [("lk", .arr [.str "a", .str "b"])])]

/-- Options that list the columns of the document in another order. -/
def nestedOptions : Options := .defaults .sqlite "t" ["tag", "gone", "age", "name", "id"]

/-- A document with a nested value, and behind it an operator that does not exist. -/
def faultyMembers : List (String × Json) :=
  [("id", .arr [.int 3, .obj []]), ("age", .obj [("gte", .arr [.arr []])])]

theorem ofMembers_reads_document_nested :
    (nestedMembers.map Prod.fst).Nodup ∧ (faultyMembers.map Prod.fst).Nodup ∧
    (∃ f w, ofMembers nestedMembers = .ok f ∧ f.columns = ["id", "name", "age", "gone", "tag"] ∧
      (nestedOptions.buildWhere f).result = .ok w ∧
      w.params = [.integer 3, .integer 4, .integer 18, .text "x", .text "a", .text "b"]) ∧
    ofMembers faultyMembers = .error (.operandMismatch "id" "eq" .nested) := by
  have hnested : (nestedMembers.map Prod.fst).Nodup := by decide
  have hfaulty : (faultyMembers.map Prod.fst).Nodup := by decide
  refine ⟨hnested, hfaulty, ?_, ?_⟩
  · obtain ⟨-, -, hread⟩ := ofMembers_reads_document hnested
    obtain ⟨-, hcolumns, hparams⟩ := hread _ rfl
    exact ⟨_, _, rfl, hcolumns, rfl, (hparams nestedOptions _ rfl).trans rfl⟩
  · obtain ⟨-, herror, -⟩ := ofMembers_reads_document hfaulty
    refine (herror _).mpr
      ⟨[.scalar "id" "eq" (.int 3)], .scalar "id" "eq" (.obj []), _, rfl, rfl, ?_⟩
    simp [Place.fault?, Json.isScalar]

end Filter

end BoundSql
