import BoundSql.Proofs.Store.Intake

/-!
# Two ways to learn identifiers

Over a connection that knows the last identifier and the number of changed rows, an insert of many
rows can be made under options that count its identifiers up from the first one, or under options
that ask for the rows and read the identifiers from their cells.  Both return the identifiers that
the rows got from the database, in the order of the rows.

Both inserts start from the same state, and each is cut into batches by limits of its own; a limit
of no row at all, which checked options never have, is left out.  The database may have limits that
one way of cutting keeps to and the other does not; an insert that fails at one promises nothing for
the other.  Of the connection no more is used than `Connection.Takes` says; the store, which counts
the parameters of a statement, is one of this kind.
-/

namespace BoundSql

open Session (boundRows EndsAsTaken)

/-- An insert that leaves the identifier out can learn the identifiers of its rows in two ways:
under options that count them up from the first of a batch and under options that read them from
returned rows, whatever limits there are on batches.  Either insert returns the identifiers that the
database gave the rows one by one, in the order of the rows, or fails because a statement is beyond
the limits of the database or a row is not taken.  Where both return, they return the same
identifiers and the same number of rows, and leave the same database behind. -/
theorem Session.insertRows_learn_alike {σ : Type} {k : Connection σ} {d : Intake σ}
    {table idColumn : String} (hk : k.Takes d table idColumn) {counting reading : Options}
    (hcounting : counting.dialect = .mysql) (hreading : reading.dialect = .sqlite)
    (hid : reading.idColumn = some idColumn) (htable₁ : counting.table = table)
    (htable₂ : reading.table = table) (hlimit₁ : counting.maxInsertRows ≠ some 0)
    (hlimit₂ : reading.maxInsertRows ≠ some 0) (b : BulkInsert) {s : σ}
    (hcolumns : d.LeavesOut s idColumn b.columns) (hready : d.Ready s)
    (hroom : b.rows.length ≤ d.room s) :
    EndsAsTaken k d b counting s ∧ EndsAsTaken k d b reading s ∧
      ∀ r₁ r₂ last₁ last₂,
        Step.Yields (insertRows k.executor b) ⟨counting, s⟩ (.ok r₁) last₁ →
        Step.Yields (insertRows k.executor b) ⟨reading, s⟩ (.ok r₂) last₂ →
        r₁.ids = r₂.ids ∧ r₁.affected = r₂.affected ∧ last₁.driver = last₂.driver := by
  subst htable₁
  have hk₂ : k.Takes d reading.table idColumn := by rwa [htable₂]
  have hends₁ : EndsAsTaken k d b counting s :=
    insertRows_endsAsTaken hk (.inl hcounting) hlimit₁ hcolumns hready hroom
  have hends₂ : EndsAsTaken k d b reading s :=
    insertRows_endsAsTaken hk₂ (.inr ⟨hreading, hid⟩) hlimit₂ hcolumns hready hroom
  refine ⟨hends₁, hends₂, fun r₁ r₂ last₁ last₂ hrun₁ hrun₂ => ?_⟩
  obtain ⟨ids, next, hput₁, hids₁, haffected₁, hlast₁⟩ := hends₁.of_ok hrun₁
  obtain ⟨_, _, hput₂, hids₂, haffected₂, hlast₂⟩ := hends₂.of_ok hrun₂
  cases hput₁.symm.trans hput₂
  exact ⟨hids₁.trans hids₂.symm, haffected₁.trans haffected₂.symm, hlast₁.trans hlast₂.symm⟩

/-- A store with a table of names under identifiers. -/
def membersStore (members : List (Int64 × Value)) : Store where
  tables :=
    [⟨"members", [⟨"id", true, false, false⟩, ⟨"name", false, true, true⟩],
      members.map fun m => ⟨m.1, [.integer m.1, m.2]⟩⟩]
  saved := none

/-- Members up to the identifier forty-one. -/
def twoMembers : List (Int64 × Value) := [(7, .text "ada"), (41, .text "bob")]

/-- Three rows without identifiers. -/
def threeMembers : BulkInsert :=
  ⟨["name"], [[.text "eve"], [.text "fay"], [.bool true]]⟩

/-- The members when these rows have joined; a truth value is stored as a number. -/
def fiveMembers : List (Int64 × Value) :=
  twoMembers ++ [(42, .text "eve"), (43, .text "fay"), (44, .integer 1)]

/-- Options that count identifiers up, for batches of two rows. -/
def countingOptions : Options := (Options.defaults .mysql "members" ["name"]).withLimits 2 none

/-- Options that read identifiers from returned rows, for batches of one row. -/
def readingOptions : Options :=
  ((Options.defaults .sqlite "members" ["name"]).withLimits 999 (some 1)).withIdColumn "id"

/-- Two batches on the one side and three on the other give the rows the same identifiers. -/
theorem Session.insertRows_learn_alike_threeMembers :
    Step.Yields (insertRows Store.executor threeMembers)
        ⟨countingOptions, membersStore twoMembers⟩
        (.ok ⟨[.integer 42, .integer 43, .integer 44], 3, 2⟩)
        ⟨countingOptions, membersStore fiveMembers⟩ ∧
      Step.Yields (insertRows Store.executor threeMembers)
        ⟨readingOptions, membersStore twoMembers⟩
        (.ok ⟨[.integer 42, .integer 43, .integer 44], 3, 3⟩)
        ⟨readingOptions, membersStore fiveMembers⟩ := by
  have hready : (Store.intake "members" "id").Ready (membersStore twoMembers) :=
    ⟨_, 0, rfl, by decide +kernel, rfl, rfl, by decide, by decide⟩
  have hcolumns : (Store.intake "members" "id").LeavesOut (membersStore twoMembers) "id"
      threeMembers.columns := by
    have hpath : (Store.namePath "name").getLast? = some "name" := by decide +kernel
    intro column hcolumn
    rw [List.mem_singleton.mp hcolumn]
    rintro (⟨segment, hsegment, hsame⟩ | ⟨⟨other, hother, segment, hsegment, hsame⟩, -⟩)
    all_goals
      rw [hpath] at hsegment
      cases hsegment
    · exact absurd hsame (by decide)
    · revert other
      decide
  have hroom : threeMembers.rows.length ≤
      (Store.intake "members" "id").room (membersStore twoMembers) := by
    decide +kernel
  have hlimit₁ : countingOptions.maxInsertRows ≠ some 0 := by decide
  have hlimit₂ : readingOptions.maxInsertRows ≠ some 0 := by decide
  have hput : (Store.intake "members" "id").putAll threeMembers.columns
      (boundRows threeMembers.rows) (membersStore twoMembers) =
        some ([42, 43, 44], membersStore fiveMembers) := by
    decide +kernel
  obtain ⟨hends₁, hends₂, -⟩ := insertRows_learn_alike (Store.takes_connection "members" "id")
    rfl rfl rfl rfl rfl hlimit₁ hlimit₂ threeMembers hcolumns hready hroom
  obtain ⟨p₁, hplan₁, hlength₁⟩ : ∃ p, (threeMembers.plan countingOptions).result = .ok p ∧
      p.statements.length = 2 := ⟨_, rfl, rfl⟩
  obtain ⟨p₂, hplan₂, hlength₂⟩ : ∃ p, (threeMembers.plan readingOptions).result = .ok p ∧
      p.statements.length = 3 := ⟨_, rfl, rfl⟩
  have hfits₁ := Store.fitsAll_of_plan "members" "id" (by decide) hlimit₁ hplan₁
  have hfits₂ := Store.fitsAll_of_plan "members" "id" (by decide) hlimit₂ hplan₂
  rw [Store.executor_eq, ← hlength₁, ← hlength₂]
  exact ⟨hends₁.returns hplan₁ hfits₁ hput, hends₂.returns hplan₂ hfits₂ hput⟩

end BoundSql
