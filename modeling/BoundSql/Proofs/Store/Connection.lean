import BoundSql.Proofs.Trace.Outcome
import BoundSql.Store.Connection

/-!
# The store behind its connection

The store makes a result of a statement, and it tells as much of the statement as a connection
does.  The driver over that connection makes the same result of what is told: truth values are
bound as numbers, which the store does not tell apart from them, the text of a statement starts
with the keyword that it was read by, and the first identifier of an insert follows from the last
one and the number of rows.
-/

namespace BoundSql

open Connection (bound startsInsert)

namespace Store

/-! ## Bound values -/

theorem stored_bound (v : Value) : stored (bound v) = stored v := by
  cases v <;> rfl

theorem operandValue_bound (params : List Value) :
    Operand.value (params.map bound) = Operand.value params := by
  funext x
  cases x with
  | param index =>
      have hbound : (params.map bound).getD index .null = bound (params.getD index .null) := by
        simp only [List.getD_eq_getElem?_getD, List.getElem?_map]
        cases params[index]? <;> rfl
      rw [Operand.value, Operand.value, hbound, stored_bound]
  | null | integer _ => rfl

theorem truth_bound (params : List Value) : Test.truth (params.map bound) = Test.truth params := by
  funext isKey v x
  cases x <;> simp only [Test.truth, operandValue_bound]

theorem satisfies_bound (t : Table) (params : List Value) (cs : Resolved) :
    satisfies t (params.map bound) cs = satisfies t params cs := by
  funext r
  simp only [satisfies, truth_bound]

theorem given_bound (params : List Value) (targets : List Nat) (row : List Operand) :
    given (params.map bound) targets row = given params targets row := by
  simp only [given, operandValue_bound]

theorem insertAll_bound (params : List Value) (targets : List Nat) (ids : List Int64) (t : Table)
    (rows : List (List Operand)) :
    insertAll (params.map bound) targets ids t rows = insertAll params targets ids t rows := by
  induction rows generalizing ids t with
  | nil => rfl
  | cons row rows ih => simp only [insertAll, newKey, newValues, given_bound, ih]

theorem updateAll_bound (params : List Value) (assignments : List (Nat × Operand)) (t : Table)
    (rs : List Record) :
    updateAll (params.map bound) assignments t rs = updateAll params assignments t rs := by
  have hassign : assign (params.map bound) assignments = assign params assignments := by
    funext vs
    simp only [assign, operandValue_bound]
  induction rs generalizing t with
  | nil => rfl
  | cons r rs ih => simp only [updateAll, assignedKey, operandValue_bound, hassign, ih]

/-- What a statement does depends on its parameters only through the values they are bound to. -/
theorem runBound_bound (s : Store) (params : List Value) (b : Bound) :
    s.runBound (params.map bound) b = s.runBound params b := by
  cases b <;> simp only [runBound, satisfies_bound, insertAll_bound, updateAll_bound]

/-! ## The keyword of a statement -/

theorem lexFrom_eq_cons {holes offset bound : Nat} {cs : List Char} {l : Lexeme}
    {rest : List Lexeme} (h : lexFrom holes offset bound cs = some (l :: rest)) :
    ∃ n, readToken? holes (cs.dropWhile Text.isBlankChar) = some (l.token, n) := by
  induction bound generalizing offset cs with
  | zero =>
      cases cs with
      | nil => cases h
      | cons c cs => cases h
  | succ bound ih =>
      cases cs with
      | nil => cases h
      | cons c cs =>
          rw [lexFrom] at h
          split at h
          · rename_i hblank
            rw [List.dropWhile_cons_of_pos hblank]
            exact ih h
          · rename_i hvisible
            rw [List.dropWhile_cons_of_neg hvisible]
            obtain ⟨⟨token, length⟩, hread, h⟩ := Option.bind_eq_some_iff.mp h
            obtain ⟨others, -, h⟩ := Option.bind_eq_some_iff.mp h
            cases h
            exact ⟨length, hread⟩

theorem takeWhile_of_readToken? {holes n : Nat} {cs : List Char} {text : String}
    (h : readToken? holes cs = some (.word text, n)) :
    text.toList = cs.takeWhile isWordChar := by
  unfold readToken? at h
  split at h
  · cases h
  · cases h
  · split at h
    · obtain ⟨r, -, h⟩ := Option.map_eq_some_iff.mp h
      cases h
    · split at h
      · cases h
      · split at h
        · cases h
          exact String.toList_ofList
        · obtain ⟨r, -, h⟩ := Option.map_eq_some_iff.mp h
          cases h

theorem exists_word_of_keyword {name : String} {ls rest : List Lexeme}
    (h : keyword name ls = some rest) :
    ∃ text offset width, ls = ⟨.word text, offset, width⟩ :: rest ∧
      Text.lower text = name := by
  unfold keyword at h
  split at h
  · split at h
    · cases h
      exact ⟨_, _, _, rfl, ‹_›⟩
    · cases h
  · cases h

/-- A statement starts with its keyword. -/
theorem startsInsert_of_keyword {sql name : String} {ls rest : List Lexeme}
    (hlex : lex? sql = some ls) (hkeyword : keyword name ls = some rest)
    (hlong : name.toList.length = 6) : startsInsert sql = decide (name = "insert") := by
  obtain ⟨text, offset, width, rfl, rfl⟩ := exists_word_of_keyword hkeyword
  obtain ⟨n, hread⟩ := lexFrom_eq_cons hlex
  have hword := takeWhile_of_readToken? hread
  -- blank text in front is skipped by both, and a word ends where its characters do
  have hlength : text.toList.length = 6 := by simpa [Text.lower] using hlong
  have htake : (sql.toList.dropWhile Text.isBlankChar).take 6 = text.toList := by
    rw [← List.takeWhile_append_dropWhile (p := isWordChar)
      (l := sql.toList.dropWhile Text.isBlankChar), ← hword, ← hlength, List.take_left]
  rw [startsInsert, Text.trimStart, String.toList_ofList, htake, String.ofList_toList]

/-- Whether a statement inserts rows. -/
def Statement.isInsert : Statement → Bool
  | .insert .. => true
  | _ => false

section Kinds

variable {α β : Type}

theorem forall_of_bind_some {x : Option α} {f : α → Option β} {P : β → Prop}
    (h : ∀ a b, f a = some b → P b) : ∀ b, x >>= f = some b → P b := by
  intro b hb
  obtain ⟨a, -, ha⟩ := Option.bind_eq_some_iff.mp hb
  exact h a b ha

theorem forall_of_bind_ok {ε : Type} {x : Except ε α} {f : α → Except ε β} {P : β → Prop}
    (h : ∀ a b, f a = .ok b → P b) : ∀ b, x >>= f = .ok b → P b := by
  intro b hb
  obtain ⟨a, -, ha⟩ := bind_eq_ok_iff.mp hb
  exact h a b ha

theorem isInsert_of_selectStatement (sql : List Char) (ls : List Lexeme) :
    ∀ r, selectStatement sql ls = some r → r.1.isInsert = false := by
  unfold selectStatement
  iterate 6 refine forall_of_bind_some fun _ => ?_
  rintro _ ⟨⟩
  rfl

theorem isInsert_of_insertStatement (ls : List Lexeme) :
    ∀ r, insertStatement ls = some r → r.1.isInsert = true := by
  unfold insertStatement
  iterate 2 refine forall_of_bind_some fun _ => ?_
  dsimp only
  -- the columns and what is asked back may both be left out
  split
  all_goals
    iterate 3 refine forall_of_bind_some fun _ => ?_
    split
    all_goals
      refine forall_of_bind_some fun _ => ?_
      rintro _ ⟨⟩
      rfl

theorem isInsert_of_updateStatement (ls : List Lexeme) :
    ∀ r, updateStatement ls = some r → r.1.isInsert = false := by
  unfold updateStatement
  iterate 4 refine forall_of_bind_some fun _ => ?_
  rintro _ ⟨⟩
  rfl

theorem isInsert_of_deleteStatement (ls : List Lexeme) :
    ∀ r, deleteStatement ls = some r → r.1.isInsert = false := by
  unfold deleteStatement
  iterate 3 refine forall_of_bind_some fun _ => ?_
  rintro _ ⟨⟩
  rfl

end Kinds

/-- Every statement has a keyword of six letters. -/
theorem keyword_of_statement {sql : List Char} {ls rest : List Lexeme} {st : Statement}
    (h : statement sql ls = some (st, rest)) :
    ∃ name behind, keyword name ls = some behind ∧ name.toList.length = 6 ∧
      decide (name = "insert") = st.isInsert := by
  unfold statement at h
  split at h
  · rename_i behind hkeyword
    exact ⟨"select", behind, hkeyword, rfl, (isInsert_of_selectStatement sql behind _ h).symm⟩
  · split at h
    · rename_i behind hkeyword
      exact ⟨"insert", behind, hkeyword, rfl, (isInsert_of_insertStatement behind _ h).symm⟩
    · split at h
      · rename_i behind hkeyword
        exact ⟨"update", behind, hkeyword, rfl, (isInsert_of_updateStatement behind _ h).symm⟩
      · obtain ⟨behind, hkeyword, hdelete⟩ := Option.bind_eq_some_iff.mp h
        exact ⟨"delete", behind, hkeyword, rfl, (isInsert_of_deleteStatement behind _ hdelete).symm⟩

theorem startsInsert_of_prepare? {sql : String} {p : Prepared} (h : prepare? sql = some p) :
    startsInsert sql = p.statement.isInsert := by
  obtain ⟨ls, hlex, h⟩ := Option.bind_eq_some_iff.mp h
  obtain ⟨⟨st, rest⟩, hstatement, h⟩ := Option.bind_eq_some_iff.mp h
  obtain ⟨name, behind, hkeyword, hlong, hname⟩ := keyword_of_statement hstatement
  have hp : p.statement = st := by
    simp only [] at h
    split at h
    · cases h
      rfl
    · cases h
  rw [startsInsert_of_keyword hlex hkeyword hlong, hname, hp]

/-! ## What is told of a statement -/

/-- Whether a statement whose names have been found inserts rows. -/
def Bound.isInsert : Bound → Bool
  | .insert .. => true
  | _ => false

theorem isInsert_of_bindNames (s : Store) (st : Statement) :
    ∀ b, bindNames s st = .ok b → b.isInsert = st.isInsert := by
  cases st with
  | select what path conditions order window =>
      unfold bindNames
      refine forall_of_bind_ok fun _ => ?_
      cases what
      all_goals
        iterate 3 refine forall_of_bind_ok fun _ => ?_
        rintro _ ⟨⟩
        rfl
  | insert path columns rows returning =>
      unfold bindNames
      refine forall_of_bind_ok fun _ => ?_
      dsimp only
      split
      all_goals
        refine forall_of_bind_ok fun _ => ?_
        split
        · rintro _ ⟨⟩
        · refine forall_of_bind_ok fun _ => ?_
          rintro _ ⟨⟩
          rfl
  | update path assignments conditions =>
      unfold bindNames
      iterate 3 refine forall_of_bind_ok fun _ => ?_
      rintro _ ⟨⟩
      rfl
  | delete path conditions =>
      unfold bindNames
      iterate 2 refine forall_of_bind_ok fun _ => ?_
      rintro _ ⟨⟩
      rfl

/-- What a text is bound to can be seen from its first word. -/
theorem startsInsert_of_bindText {s : Store} {sql : String} {params : List Value} {b : Bound}
    (h : s.bindText sql params = .ok b) : startsInsert sql = b.isInsert := by
  unfold bindText at h
  split at h
  · cases h
  · rename_i p hprepare
    split at h
    · cases h
    · obtain ⟨found, hfound, h⟩ := bind_eq_ok_iff.mp h
      have hb : found = b := by
        split at h
        · cases h
        · cases h
          rfl
      rw [startsInsert_of_prepare? hprepare, ← hb,
        isInsert_of_bindNames s p.statement found hfound]

/-- The first identifier is reckoned from the last one and the number of rows. -/
theorem reportedId_eq (rows : List Row) (ids : List Int64) {sql : String}
    (h : startsInsert sql = true) :
    Connection.Outcome.firstId? ⟨rows, false, ids.length, ids.getLast?.getD 0⟩ sql =
      reportedId ids := by
  cases hlast : ids.getLast? with
  | none =>
      rw [List.getLast?_eq_none_iff.mp hlast]
      simp [Connection.Outcome.firstId?, reportedId]
  | some last => simp [Connection.Outcome.firstId?, reportedId, h, hlast]

/-- A result follows from what is told, and nothing else is told of a failure. -/
theorem runBound_eq_map_tell (s : Store) (params : List Value) {b : Bound} {sql : String}
    (h : startsInsert sql = b.isInsert) :
    s.runBound params b = (s.tell params b).map fun r => (r.1.raw sql, r.2) := by
  cases b with
  | count t title conditions => rfl
  | select t indices conditions order window =>
      simp only [tell, runBound]
      cases inWindow window _ with
      | error e => rfl
      | ok shown =>
          simp [lastRowid, bind, Except.bind, pure, Except.pure, Except.map,
            Connection.Outcome.raw, Bound.isReading]
  | insert t targets rows returning =>
      simp only [tell, runBound, lastRowid]
      cases insertAll params targets [] t rows with
      | error e => rfl
      | ok r =>
          obtain ⟨next, ids⟩ := r
          simp only [bind, Except.bind, pure, Except.pure, Except.map, Connection.Outcome.raw,
            Bound.isReading, Bool.false_eq_true, if_false]
          rw [reportedId_eq _ ids h]
  | update t assignments conditions =>
      simp only [tell, runBound, lastRowid]
      cases updateAll params assignments t _ with
      | error e => rfl
      | ok next =>
          simp [bind, Except.bind, pure, Except.pure, Except.map, Connection.Outcome.raw,
            Bound.isReading, Connection.Outcome.firstId?, h, Bound.isInsert]
  | delete t conditions =>
      simp [tell, runBound, lastRowid, bind, Except.bind, pure, Except.pure, Except.map,
        Connection.Outcome.raw, Bound.isReading, Connection.Outcome.firstId?, h, Bound.isInsert]

theorem lastRowid_bound (params : List Value) (b : Bound) :
    lastRowid (params.map bound) b = lastRowid params b := by
  cases b <;> simp only [lastRowid, insertAll_bound]

theorem tell_bound (s : Store) (params : List Value) (b : Bound) :
    s.tell (params.map bound) b = s.tell params b := by
  simp only [tell, runBound_bound, lastRowid_bound]

/-- Executing a statement comes to binding its parameters and making a result of what is told. -/
theorem execute_eq (s : Store) (sql : String) (params : List Value) :
    s.execute sql params =
      (s.tellText sql (params.map bound)).map fun r => (r.1.raw sql, r.2) := by
  -- a text is read without its parameters; only their number is looked at
  have hsame : s.bindText sql (params.map bound) = s.bindText sql params := by
    unfold bindText
    rw [List.length_map]
  unfold execute tellText
  rw [hsame]
  cases hbind : s.bindText sql params with
  | error e => rfl
  | ok b =>
      -- an update or a delete changes rows as well, but its text does not start like an insert
      have hinsert : startsInsert sql = b.isInsert := startsInsert_of_bindText hbind
      simp only [bind, Except.bind, tell_bound, runBound_eq_map_tell s params hinsert]

/-- The store as a driver is the driver over the store as a connection. -/
theorem executor_eq : executor = connection.executor := by
  have hexecute : executor.execute = connection.executor.execute := by
    funext sql params s
    simp only [executor, Connection.executor, connection, execute_eq]
    cases s.tellText sql (params.map bound) <;> rfl
  have hbegin : executor.begin = connection.executor.begin := by
    funext s
    cases hsaved : s.saved <;> simp [executor, Connection.executor, Connection.batched, connection,
      hsaved]
  have hcommit : executor.commit = connection.executor.commit := by
    funext s
    cases hsaved : s.saved <;> simp [executor, Connection.executor, Connection.batched, connection,
      hsaved]
  have hrollback : executor.rollback = connection.executor.rollback := by
    funext s
    cases hsaved : s.saved <;> simp [executor, Connection.executor, Connection.batched, connection,
      hsaved]
  calc executor
      = ⟨executor.execute, executor.begin, executor.commit, executor.rollback⟩ := rfl
    _ = connection.executor := by rw [hexecute, hbegin, hcommit, hrollback]

end Store

end BoundSql
