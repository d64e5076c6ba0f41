import BoundSql.Proofs.Store.Lexing

/-!
# Reading written inserts

The grammar reads the tokens of an insert back as the insert they were made from, and counts as
many placeholders as the insert has values.  Every reader is described by what it makes of the
tokens of one item in front of any others: two items are told apart because no item starts with
the sign that separates items.  Together with the lexer this says what a written insert is read as,
whatever its names are.
-/

namespace BoundSql.Store

variable {t : Token} {ts more : List Token} {ls : List Lexeme}

/-! ## Readers in front of known tokens -/

theorem exists_lexeme_of_tokens (h : ls.map Lexeme.token = t :: ts) :
    ∃ offset width rest, ls = ⟨t, offset, width⟩ :: rest ∧ rest.map Lexeme.token = ts := by
  obtain ⟨l, rest, rfl, rfl, hrest⟩ := List.map_eq_cons_iff.mp h
  exact ⟨l.offset, l.width, rest, rfl, hrest⟩

theorem keyword_word {text : String} (h : ls.map Lexeme.token = .word text :: ts) :
    ∃ rest, rest.map Lexeme.token = ts ∧
      ∀ name, keyword name ls = if Text.lower text = name then some rest else none := by
  obtain ⟨offset, width, rest, rfl, hrest⟩ := exists_lexeme_of_tokens h
  exact ⟨rest, hrest, fun name => rfl⟩

theorem sign_sign {text : String} (h : ls.map Lexeme.token = .sign text :: ts) :
    ∃ rest, rest.map Lexeme.token = ts ∧ sign text ls = some rest := by
  obtain ⟨offset, width, rest, rfl, hrest⟩ := exists_lexeme_of_tokens h
  exact ⟨rest, hrest, if_pos rfl⟩

theorem sign_eq_none {text : String} (h : ls.map Lexeme.token = ts)
    (hts : ts.head? ≠ some (.sign text)) : sign text ls = none := by
  cases ts with
  | nil => rw [List.map_eq_nil_iff.mp h]; rfl
  | cons t ts =>
      obtain ⟨offset, width, rest, rfl, -⟩ := exists_lexeme_of_tokens h
      cases t with
      | sign other =>
          have hne : other ≠ text := fun heq => hts (by rw [heq]; rfl)
          exact if_neg hne
      | word _ | quoted _ | number _ | placeholder _ => rfl

theorem operand_placeholder {index : Nat} (h : ls.map Lexeme.token = .placeholder index :: ts) :
    ∃ rest, rest.map Lexeme.token = ts ∧ operand ls = some (.param index, rest) := by
  obtain ⟨offset, width, rest, rfl, hrest⟩ := exists_lexeme_of_tokens h
  exact ⟨rest, hrest, rfl⟩

/-! ## Names -/

theorem path_nameTokens {segments : List String} (hne : segments ≠ []) (bound : Nat)
    (hbound : segments.length ≤ bound + 1) (h : ls.map Lexeme.token = nameTokens segments ++ more)
    (hmore : more.head? ≠ some (.sign ".")) :
    ∃ rest, rest.map Lexeme.token = more ∧ path bound ls = some (segments, rest) := by
  induction segments generalizing bound ls with
  | nil => exact absurd rfl hne
  | cons s segments ih =>
      cases segments with
      | nil =>
          have hlast : ls.map Lexeme.token = .quoted s :: more := by simpa [nameTokens] using h
          obtain ⟨offset, width, rest, rfl, hrest⟩ := exists_lexeme_of_tokens hlast
          refine ⟨rest, hrest, ?_⟩
          cases bound with
          | zero => rfl
          | succ bound =>
              have hstop := sign_eq_none hrest hmore
              simp [path, segment, hstop]
      | cons u segments =>
          obtain ⟨bound, rfl⟩ : ∃ b, bound = b + 1 := ⟨bound - 1, by simp at hbound; omega⟩
          have htokens : nameTokens (s :: u :: segments) ++ more =
              .quoted s :: .sign "." :: (nameTokens (u :: segments) ++ more) := by
            simp [nameTokens, List.intercalate_cons_cons]
          rw [htokens] at h
          obtain ⟨offset, width, behind, rfl, hbehind⟩ := exists_lexeme_of_tokens h
          obtain ⟨after, hafter, hsign⟩ := sign_sign hbehind
          obtain ⟨rest, hrest, hpath⟩ := ih (List.cons_ne_nil u segments) bound
            (by simpa using hbound) hafter
          refine ⟨rest, hrest, ?_⟩
          simp [path, segment, hsign, hpath]

theorem le_length_nameTokens (segments : List String) :
    segments.length ≤ (nameTokens segments).length := by
  induction segments with
  | nil => exact Nat.zero_le _
  | cons s segments ih =>
      cases segments with
      | nil => exact Nat.le_refl 1
      | cons u segments =>
          simp only [nameTokens, List.map_cons, List.intercalate_cons_cons, List.length_append,
            List.length_cons, List.length_nil] at ih ⊢
          omega

theorem ref_nameTokens {segments : List String} (hne : segments ≠ [])
    (h : ls.map Lexeme.token = nameTokens segments ++ more)
    (hmore : more.head? ≠ some (.sign ".")) :
    ∃ r rest, rest.map Lexeme.token = more ∧ r.path = segments ∧ ref ls = some (r, rest) := by
  have hlength : ls.length = (nameTokens segments).length + more.length := by
    have hlengths := congrArg List.length h
    rwa [List.length_map, List.length_append] at hlengths
  have hle := le_length_nameTokens segments
  have hpos : 0 < segments.length := List.length_pos_iff.mpr hne
  obtain ⟨rest, hrest, hpath⟩ := path_nameTokens hne ls.length (by omega) h hmore
  obtain ⟨first, others, hcons⟩ := List.exists_cons_of_length_pos (by omega : 0 < ls.length)
  refine ⟨⟨segments, first.offset⟩, rest, hrest, rfl, ?_⟩
  have hhead : ls.head? = some first := by rw [hcons]; rfl
  simp [ref, hhead, hpath]

/-! ## Lists -/

/-- The values of items that have so many placeholders each. -/
def valuesFrom {α β : Type} (value : Nat → α → β) (width : Nat) : Nat → List α → List β
  | _, [] => []
  | holes, x :: xs => value holes x :: valuesFrom value width (holes + width) xs

theorem commaList_separated {α β γ : Type} {item : Grammar β} {f : β → γ} {value : Nat → α → γ}
    {tokens : Nat → α → List Token} {width : Nat} {xs : List α}
    (hitem : ∀ x ∈ xs, ∀ holes ls more, more.head? ≠ some (.sign ".") →
      ls.map Lexeme.token = tokens holes x ++ more →
        ∃ b rest, rest.map Lexeme.token = more ∧ f b = value holes x ∧ item ls = some (b, rest))
    (hne : xs ≠ []) (hdot : more.head? ≠ some (.sign ".")) (hcomma : more.head? ≠ some (.sign ","))
    (holes bound : Nat) (hbound : xs.length ≤ bound)
    (h : ls.map Lexeme.token = separated tokens width holes xs ++ more) :
    ∃ bs rest, rest.map Lexeme.token = more ∧ bs.map f = valuesFrom value width holes xs ∧
      commaList item bound ls = some (bs, rest) := by
  induction xs generalizing holes bound ls with
  | nil => exact absurd rfl hne
  | cons x xs ih =>
      obtain ⟨bound, rfl⟩ : ∃ b, bound = b + 1 := ⟨bound - 1, by simp at hbound; omega⟩
      -- what stands behind the last item is no comma, and what stands behind any other one is
      cases xs with
      | nil =>
          obtain ⟨b, rest, hrest, hb, hread⟩ :=
            hitem x List.mem_cons_self holes ls more hdot (by simpa [separated] using h)
          have hstop := sign_eq_none hrest hcomma
          refine ⟨[b], rest, hrest, by simp [valuesFrom, hb], ?_⟩
          simp [commaList, hread, hstop]
      | cons y xs =>
          rw [separated, List.append_assoc, List.cons_append] at h
          obtain ⟨b, behind, hbehind, hb, hread⟩ :=
            hitem x List.mem_cons_self holes ls _ (by simp) h
          obtain ⟨after, hafter, hsign⟩ := sign_sign hbehind
          obtain ⟨bs, rest, hrest, hbs, hlist⟩ := ih
            (fun z hz => hitem z (List.mem_cons_of_mem x hz)) (List.cons_ne_nil y xs)
            (holes + width) bound (by simpa using hbound) hafter
          refine ⟨b :: bs, rest, hrest, by rw [List.map_cons, hb, hbs]; rfl, ?_⟩
          simp [commaList, hread, hsign, hlist]

theorem le_length_separated {α : Type} {tokens : Nat → α → List Token} (width : Nat)
    {xs : List α} (hne : ∀ x ∈ xs, ∀ holes, tokens holes x ≠ []) (holes : Nat) :
    xs.length ≤ (separated tokens width holes xs).length := by
  induction xs generalizing holes with
  | nil => exact Nat.zero_le _
  | cons x xs ih =>
      have hx : 0 < (tokens holes x).length :=
        List.length_pos_iff.mpr (hne x List.mem_cons_self holes)
      cases xs with
      | nil => exact hx
      | cons y xs =>
          have hxs := ih (fun z hz => hne z (List.mem_cons_of_mem x hz)) (holes + width)
          simp only [separated, List.length_append, List.length_cons] at hxs ⊢
          omega

theorem list_separated {α β γ : Type} {item : Grammar β} {f : β → γ} {value : Nat → α → γ}
    {tokens : Nat → α → List Token} {width : Nat} {xs : List α}
    (hitem : ∀ x ∈ xs, ∀ holes ls more, more.head? ≠ some (.sign ".") →
      ls.map Lexeme.token = tokens holes x ++ more →
        ∃ b rest, rest.map Lexeme.token = more ∧ f b = value holes x ∧ item ls = some (b, rest))
    (htokens : ∀ x ∈ xs, ∀ holes, tokens holes x ≠ []) (hne : xs ≠ [])
    (hdot : more.head? ≠ some (.sign ".")) (hcomma : more.head? ≠ some (.sign ","))
    (holes : Nat) (h : ls.map Lexeme.token = separated tokens width holes xs ++ more) :
    ∃ bs rest, rest.map Lexeme.token = more ∧ bs.map f = valuesFrom value width holes xs ∧
      list item ls = some (bs, rest) := by
  have hlengths := congrArg List.length h
  rw [List.length_map, List.length_append] at hlengths
  have hle := le_length_separated width htokens holes
  exact commaList_separated hitem hne hdot hcomma holes ls.length (by omega) h

theorem inParens_tokens {α : Type} {item : Grammar α} {P : α → Prop} {inner : List Token}
    (hitem : ∀ ls more, more.head? = some (.sign ")") → ls.map Lexeme.token = inner ++ more →
      ∃ a rest, rest.map Lexeme.token = more ∧ P a ∧ item ls = some (a, rest))
    (h : ls.map Lexeme.token = .sign "(" :: (inner ++ .sign ")" :: more)) :
    ∃ a rest, rest.map Lexeme.token = more ∧ P a ∧ inParens item ls = some (a, rest) := by
  obtain ⟨first, hfirst, hopen⟩ := sign_sign h
  obtain ⟨a, behind, hbehind, ha, hread⟩ := hitem first _ rfl hfirst
  obtain ⟨rest, hrest, hclose⟩ := sign_sign hbehind
  refine ⟨a, rest, hrest, ha, ?_⟩
  simp [inParens, hopen, hread, hclose]

/-! ## Inserts -/

/-- Placeholders in a row of so many, the first of which has an index. -/
def operandsFrom (first width : Nat) : List Operand :=
  (List.range width).map fun i => .param (first + i)

/-- So many rows of so many placeholders, numbered from the first to the last. -/
def operandRows (width rows : Nat) : List (List Operand) :=
  (List.range rows).map fun i => operandsFrom (i * width) width

theorem valuesFrom_replicate {β : Type} (value : Nat → Unit → β) (width holes n : Nat) :
    valuesFrom value width holes (List.replicate n ()) =
      (List.range n).map fun i => value (holes + i * width) () := by
  induction n generalizing holes with
  | zero => rfl
  | succ n ih =>
      rw [List.replicate_succ, valuesFrom, ih, List.range_succ_eq_map, List.map_cons, List.map_map,
        Nat.zero_mul, Nat.add_zero]
      refine congrArg _ (List.map_congr_left fun i _ => ?_)
      simp only [Function.comp_apply, Nat.succ_mul]
      rw [Nat.add_assoc, Nat.add_comm width]

theorem valuesFrom_zero {α β : Type} (value : α → β) (xs : List α) (holes : Nat) :
    valuesFrom (fun _ => value) 0 holes xs = xs.map value := by
  induction xs generalizing holes with
  | nil => rfl
  | cons x xs ih => rw [valuesFrom, ih, List.map_cons]

theorem refs_read {columns : List String} (hcolumns : columns ≠ [])
    (hdot : more.head? ≠ some (.sign ".")) (hcomma : more.head? ≠ some (.sign ","))
    (h : ls.map Lexeme.token = separated columnTokens 0 0 columns ++ more) :
    ∃ refs rest, rest.map Lexeme.token = more ∧ refs.map Ref.path = columns.map namePath ∧
      list ref ls = some (refs, rest) := by
  rw [← valuesFrom_zero namePath columns 0]
  refine list_separated (fun column _ holes ls more hdot hls => ?_) (fun column _ holes => ?_)
    hcolumns hdot hcomma 0 h
  · exact ref_nameTokens (namePath_ne_nil column) hls hdot
  · have hle := le_length_nameTokens (namePath column)
    have hpos := List.length_pos_iff.mpr (namePath_ne_nil column)
    exact List.length_pos_iff.mp (Nat.lt_of_lt_of_le hpos hle)

theorem group_read {width : Nat} (hwidth : 0 < width) (holes : Nat)
    (h : ls.map Lexeme.token = groupTokens width holes () ++ more) :
    ∃ xs rest, rest.map Lexeme.token = more ∧ xs = operandsFrom holes width ∧
      inParens (list operand) ls = some (xs, rest) := by
  have hvalues : valuesFrom (fun index _ => Operand.param index) 1 holes
      (List.replicate width ()) = operandsFrom holes width := by
    rw [valuesFrom_replicate]
    simp [operandsFrom]
  rw [← hvalues]
  refine inParens_tokens (fun ls more hmore hls => ?_) (by simpa [groupTokens] using h)
  have hmark : ∀ x ∈ List.replicate width (), ∀ holes ls more,
      more.head? ≠ some (.sign ".") → ls.map Lexeme.token = markTokens holes x ++ more →
        ∃ b rest, rest.map Lexeme.token = more ∧ id b = Operand.param holes ∧
          operand ls = some (b, rest) := by
    intro x _ holes ls more _ hls
    obtain ⟨rest, hrest, hread⟩ := operand_placeholder hls
    exact ⟨_, rest, hrest, rfl, hread⟩
  have hne : List.replicate width () ≠ [] := by
    rw [Ne, List.replicate_eq_nil_iff]
    omega
  obtain ⟨xs, rest, hrest, hxs, hread⟩ := list_separated hmark
    (fun _ _ _ => List.cons_ne_nil _ _) hne (by simp [hmore]) (by simp [hmore]) holes hls
  exact ⟨xs, rest, hrest, by simpa using hxs, hread⟩

theorem rows_read {width rows : Nat} (hwidth : 0 < width) (hrows : 0 < rows)
    (hdot : more.head? ≠ some (.sign ".")) (hcomma : more.head? ≠ some (.sign ","))
    (h : ls.map Lexeme.token =
      separated (groupTokens width) width 0 (List.replicate rows ()) ++ more) :
    ∃ rest, rest.map Lexeme.token = more ∧
      list (inParens (list operand)) ls = some (operandRows width rows, rest) := by
  have hgroup : ∀ x ∈ List.replicate rows (), ∀ holes ls more,
      more.head? ≠ some (.sign ".") → ls.map Lexeme.token = groupTokens width holes x ++ more →
        ∃ xs rest, rest.map Lexeme.token = more ∧ id xs = operandsFrom holes width ∧
          inParens (list operand) ls = some (xs, rest) := by
    intro x _ holes ls more _ hls
    exact group_read hwidth holes hls
  have hne : List.replicate rows () ≠ [] := by
    rw [Ne, List.replicate_eq_nil_iff]
    omega
  obtain ⟨xs, rest, hrest, hxs, hread⟩ := list_separated hgroup
    (fun _ _ _ => List.cons_ne_nil _ _) hne hdot hcomma 0 h
  rw [List.map_id, valuesFrom_replicate] at hxs
  refine ⟨rest, hrest, ?_⟩
  rw [hread, hxs]
  simp [operandRows]

/-- An insert is read as what it says. -/
theorem statement_insertTokens {table : String} {columns : List String} {rows : Nat}
    {asked : Option String} (hcolumns : columns ≠ []) (hrows : 0 < rows)
    (h : ls.map Lexeme.token = insertTokens table columns rows asked) (sql : List Char) :
    ∃ refs back, refs.map Ref.path = columns.map namePath ∧
      back.map Ref.path = asked.toList.map namePath ∧
        statement sql ls =
          some (.insert (namePath table) refs (operandRows columns.length rows) back, []) := by
  have hwidth : 0 < columns.length := List.length_pos_iff.mpr hcolumns
  -- every part is read in front of the tokens of the parts behind it
  obtain ⟨ls₁, h₁, hinsert⟩ := keyword_word h
  obtain ⟨ls₂, h₂, hinto⟩ := keyword_word h₁
  have hlength := congrArg List.length h₂
  rw [List.length_map, List.length_append] at hlength
  have hle := le_length_nameTokens (namePath table)
  obtain ⟨ls₃, h₃, hpath⟩ := path_nameTokens (namePath_ne_nil table) ls₂.length (by omega) h₂
    (by simp)
  have hcolumnRefs (ls : List Lexeme) (more : List Token) (hmore : more.head? = some (.sign ")"))
      (hls : ls.map Lexeme.token = separated columnTokens 0 0 columns ++ more) :
      ∃ refs rest, rest.map Lexeme.token = more ∧ refs.map Ref.path = columns.map namePath ∧
        list ref ls = some (refs, rest) :=
    refs_read hcolumns (by simp [hmore]) (by simp [hmore]) hls
  obtain ⟨refs, ls₄, h₄, hrefs, hrefsRead⟩ := inParens_tokens hcolumnRefs h₃
  obtain ⟨ls₅, h₅, hvalues⟩ := keyword_word h₄
  have hdot : (askTokens asked).head? ≠ some (.sign ".") := by cases asked <;> simp [askTokens]
  have hcomma : (askTokens asked).head? ≠ some (.sign ",") := by cases asked <;> simp [askTokens]
  obtain ⟨ls₆, h₆, hrowsRead⟩ := rows_read hwidth hrows hdot hcomma h₅
  have hstatement : statement sql ls = insertStatement ls₁ := by
    have hselect : Text.lower "INSERT" ≠ "select" := by decide
    have hkeyword : Text.lower "INSERT" = "insert" := by decide
    rw [statement, hinsert, hinsert, if_neg hselect, if_pos hkeyword]
  have hintoKeyword : keyword "into" ls₁ = some ls₂ := (hinto "into").trans (if_pos (by decide))
  have hvaluesKeyword : keyword "values" ls₄ = some ls₅ :=
    (hvalues "values").trans (if_pos (by decide))
  rw [hstatement, insertStatement, hintoKeyword]
  simp only [bind, Option.bind_some, hpath, hrefsRead, hvaluesKeyword, hrowsRead]
  cases asked with
  | none =>
      have hend : ls₆ = [] := List.map_eq_nil_iff.mp h₆
      subst hend
      exact ⟨refs, [], hrefs, rfl, rfl⟩
  | some column =>
      obtain ⟨ls₇, h₇, hreturning⟩ := keyword_word h₆
      have hreturningKeyword : keyword "returning" ls₆ = some ls₇ :=
        (hreturning "returning").trans (if_pos (by decide))
      have hcolumn : ls₇.map Lexeme.token = separated columnTokens 0 0 [column] ++ [] := by
        simpa [separated, columnTokens] using h₇
      obtain ⟨back, rest, hrest, hback, hbackRead⟩ :=
        refs_read (List.cons_ne_nil column []) (by simp) (by simp) hcolumn
      have hend : rest = [] := List.map_eq_nil_iff.mp hrest
      subst hend
      refine ⟨refs, back, hrefs, hback, ?_⟩
      simp only [hreturningKeyword, hbackRead]
      rfl

/-! ## Placeholders -/

theorem length_placeholderOffsets (ls : List Lexeme) :
    (placeholderOffsets ls).length = (ls.map Lexeme.token).countP Token.isPlaceholder := by
  rw [placeholderOffsets, List.length_map, List.countP_map, List.countP_eq_length_filter]
  rfl

theorem countP_nameTokens (path : List String) :
    (nameTokens path).countP Token.isPlaceholder = 0 := by
  refine List.countP_eq_zero.mpr fun t ht => ?_
  rcases mem_of_mem_intercalate ht with ht | ⟨part, hpart, ht⟩
  · rw [List.mem_singleton.mp ht]
    decide
  · obtain ⟨s, -, rfl⟩ := List.mem_map.mp hpart
    rw [List.mem_singleton.mp ht]
    exact Bool.false_ne_true

theorem countP_separated {α : Type} {tokens : Nat → α → List Token} {n : Nat} {xs : List α}
    (h : ∀ x ∈ xs, ∀ holes, (tokens holes x).countP Token.isPlaceholder = n) (width holes : Nat) :
    (separated tokens width holes xs).countP Token.isPlaceholder = xs.length * n := by
  induction xs generalizing holes with
  | nil => simp [separated]
  | cons x xs ih =>
      have hx := h x List.mem_cons_self holes
      cases xs with
      | nil => simpa [separated] using hx
      | cons y xs =>
          have hrest := ih (fun z hz => h z (List.mem_cons_of_mem x hz)) (holes + width)
          rw [separated, List.countP_append, hx, List.countP_cons_of_neg (by decide), hrest,
            List.length_cons (a := x), Nat.succ_mul, Nat.add_comm]

theorem countP_insertTokens (table : String) (columns : List String) (rows : Nat)
    (asked : Option String) :
    (insertTokens table columns rows asked).countP Token.isPlaceholder = rows * columns.length := by
  have hmarks (holes : Nat) :
      (separated markTokens 1 holes (List.replicate columns.length ())).countP Token.isPlaceholder =
        columns.length := by
    rw [countP_separated (n := 1) (fun _ _ _ => rfl), List.length_replicate, Nat.mul_one]
  have hcolumn (holes : Nat) (column : String) :
      (columnTokens holes column).countP Token.isPlaceholder = 0 :=
    countP_nameTokens (namePath column)
  have hcolumns : (separated columnTokens 0 0 columns).countP Token.isPlaceholder = 0 := by
    rw [countP_separated fun column _ holes => hcolumn holes column, Nat.mul_zero]
  have hgroups : (separated (groupTokens columns.length) columns.length 0
      (List.replicate rows ())).countP Token.isPlaceholder = rows * columns.length := by
    have hgroup (holes : Nat) :
        (groupTokens columns.length holes ()).countP Token.isPlaceholder = columns.length := by
      rw [groupTokens, List.countP_cons_of_neg (by decide), List.countP_append, hmarks]
      rfl
    rw [countP_separated (fun _ _ holes => hgroup holes), List.length_replicate]
  have hasked : (askTokens asked).countP Token.isPlaceholder = 0 := by
    cases asked with
    | none => rfl
    | some column => exact countP_nameTokens _
  simp [insertTokens, Token.isPlaceholder, countP_nameTokens, hcolumns, hgroups, hasked]

/-! ## Texts of inserts -/

/-- A text that is read as an insert of so many rows into columns of a table, with a placeholder
for each value, which asks back for a column of the rows or for nothing. -/
def Inserting (table : String) (columns : List String) (rows : Nat) (back : Option String)
    (sql : String) : Prop :=
  ∃ refs returning offsets, refs.map Ref.path = columns.map namePath ∧
    returning.map Ref.path = back.toList.map namePath ∧ offsets.length = rows * columns.length ∧
      prepare? sql =
        some ⟨.insert (namePath table) refs (operandRows columns.length rows) returning, offsets⟩

/-- A written insert is read as what it says, in either quotation. -/
theorem inserting_insertPieces {o : Options} (hd : o.dialect = .mysql ∨ o.dialect = .sqlite)
    {columns : List String} (hcolumns : columns ≠ []) {rows : Nat} (hrows : 0 < rows)
    (params : List Value) :
    Inserting o.table columns rows (asked o)
      (Fragment.sql ⟨o.insertPieces columns rows, params⟩) := by
  have htext : (Fragment.sql ⟨o.insertPieces columns rows, params⟩).toList =
      (o.insertPieces columns rows).flatMap Piece.chars := Fragment.toList_sql _
  obtain ⟨ls, hlex, htokens⟩ := lexes_insertPieces hd columns rows 0 _ (Nat.le_refl _)
  obtain ⟨refs, back, hrefs, hback, hstatement⟩ :=
    statement_insertTokens hcolumns hrows htokens
      ((o.insertPieces columns rows).flatMap Piece.chars)
  have hcount : (placeholderOffsets ls).length = rows * columns.length := by
    rw [length_placeholderOffsets, htokens, countP_insertTokens]
  refine ⟨refs, back, placeholderOffsets ls, hrefs, hback, hcount, ?_⟩
  rw [prepare?, lex?, htext]
  simp only [hlex, bind, Option.bind_some, hstatement]
  rfl

end BoundSql.Store
