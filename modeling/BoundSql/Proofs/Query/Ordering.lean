import BoundSql.Proofs.Sql.Name
import BoundSql.Query.Order

/-!
# Orderings

An ordering can be built exactly if the columns of its terms can be named, and it then has one term
for each that was asked for, in the same order.  A trusted expression is never refused and stands as
it is.
-/

namespace BoundSql

namespace SortTerm

/-- What a term sorts by, as it stands in a statement. -/
def named (d : Dialect) (s : SortTerm) : Name :=
  match s.target with
  | .column column => .ofText d column
  | .trusted expression => .trusted expression

/-- The pieces of a term. -/
def termPieces (d : Dialect) (s : SortTerm) : List Piece :=
  [.name (s.named d), .word .space, .word s.direction.word]

/-- A term that does not sort by a column which is not listed or cannot be quoted. -/
def Admitted (o : Options) (s : SortTerm) : Prop :=
  ∀ column, s.target = .column column → o.hasColumn column = true ∧ Name.Escapable column

theorem pieces_eq_ok_iff {o : Options} {s : SortTerm} {ps : List Piece} :
    s.pieces o = .ok ps ↔ s.Admitted o ∧ ps = s.termPieces o.dialect := by
  obtain ⟨target, direction⟩ := s
  cases target with
  | column column =>
      have hpieces : pieces o ⟨.column column, direction⟩ = do
          let n ← o.columnName column
          return [.name n, .word .space, .word direction.word] := rfl
      rw [hpieces]
      simp only [bind_eq_ok_iff, Options.columnName_eq_ok_iff, pure_eq_ok, Except.ok.injEq]
      constructor
      · rintro ⟨_, ⟨hlisted, hescapable, rfl⟩, rfl⟩
        refine ⟨?_, rfl⟩
        intro c hc
        cases hc
        exact ⟨hlisted, hescapable⟩
      · rintro ⟨hcolumn, rfl⟩
        obtain ⟨hlisted, hescapable⟩ := hcolumn column rfl
        exact ⟨_, ⟨hlisted, hescapable, rfl⟩, rfl⟩
  | trusted expression =>
      have hadmitted : Admitted o ⟨.trusted expression, direction⟩ := fun _ hc => nomatch hc
      have hpieces : pieces o ⟨.trusted expression, direction⟩ =
          .ok (termPieces o.dialect ⟨.trusted expression, direction⟩) := rfl
      rw [hpieces, and_iff_right hadmitted, Except.ok.injEq, eq_comm]

end SortTerm

/-- The ordering by terms; without terms it has no text. -/
def Fragment.ordering (d : Dialect) (sorts : List SortTerm) : Fragment :=
  if sorts.isEmpty then .empty
  else
    ⟨.word .orderBy :: .word .space :: Piece.commaSeparated (sorts.map (SortTerm.termPieces d)), []⟩

theorem Fragment.isEmpty_ordering (d : Dialect) (sorts : List SortTerm) :
    (ordering d sorts).isEmpty = sorts.isEmpty := by
  cases sorts <;> rfl

namespace Options

variable {o : Options} {sorts : List SortTerm}

theorem sortTerms_eq_ok_iff {terms : List (List Piece)} :
    o.sortTerms sorts = .ok terms ↔
      (∀ s ∈ sorts, s.Admitted o) ∧ terms = sorts.map (SortTerm.termPieces o.dialect) := by
  induction sorts generalizing terms with
  | nil => simp [sortTerms, eq_comm]
  | cons s sorts ih =>
      simp only [sortTerms, bind_eq_ok_iff, SortTerm.pieces_eq_ok_iff, ih, pure_eq_ok,
        Except.ok.injEq, List.forall_mem_cons, List.map_cons]
      constructor
      · rintro ⟨_, ⟨hfirst, rfl⟩, _, ⟨hrest, rfl⟩, rfl⟩
        exact ⟨⟨hfirst, hrest⟩, rfl⟩
      · rintro ⟨⟨hfirst, hrest⟩, rfl⟩
        exact ⟨_, ⟨hfirst, rfl⟩, _, ⟨hrest, rfl⟩, rfl⟩

theorem buildOrderBy_eq_ok_iff {w : Fragment} :
    o.buildOrderBy sorts = .ok w ↔
      (∀ s ∈ sorts, s.Admitted o) ∧ w = .ordering o.dialect sorts := by
  unfold buildOrderBy Fragment.ordering
  split
  · rename_i hnone
    rw [List.isEmpty_iff.mp hnone]
    simp [eq_comm]
  · simp only [bind_eq_ok_iff, sortTerms_eq_ok_iff, pure_eq_ok, Except.ok.injEq]
    constructor
    · rintro ⟨_, ⟨hadmitted, rfl⟩, rfl⟩
      exact ⟨hadmitted, rfl⟩
    · rintro ⟨hadmitted, rfl⟩
      exact ⟨_, ⟨hadmitted, rfl⟩, rfl⟩

end Options

end BoundSql
