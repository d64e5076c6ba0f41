import BoundSql.Proofs.Toml.Value

/-!
# Written documents read back

A document whose statements are written on lines of their own, with nothing but blank and comment
lines in front of them, is read back as it is: the same statements, with the same lines in front of
each, the same spelling of every key and value, and nothing behind the last of them.

The lines in front of a statement are arbitrary as long as a reader skips them, so what is said
here holds of a document with comments as well as of one without.
-/

namespace BoundSql.Toml

variable {c : Char} {cs rest : List Char} {key : String}

/-! ## Keys -/

/-- The characters of plain keys. -/
def plainChars : List Char :=
  ['a', 'b', 'c', 'd', 'e', 'f', 'g', 'h', 'i', 'j', 'k', 'l', 'm', 'n', 'o', 'p', 'q', 'r', 's',
    't', 'u', 'v', 'w', 'x', 'y', 'z', '_']

/-- A key that is written as it is. -/
def Plain (key : String) : Prop := key.toList ≠ [] ∧ ∀ c ∈ key.toList, c ∈ plainChars

instance (key : String) : Decidable (Plain key) :=
  decidable_of_iff (key.toList ≠ [] ∧ (key.toList.all fun c => c ∈ plainChars) = true)
    (and_congr_right fun _ => List.all_iff_forall_prop)

/-- What holds of all plain characters holds of those of a plain key. -/
theorem Plain.forall_mem {P : Char → Prop} (hkey : Plain key) (h : ∀ c ∈ plainChars, P c) :
    ∀ c ∈ key.toList, P c := fun c hc => h c (hkey.2 c hc)

theorem Plain.exists_cons (hkey : Plain key) :
    ∃ c cs, key.toList = c :: cs ∧ c ∈ plainChars := by
  obtain ⟨c, cs, hcons⟩ := List.exists_cons_of_ne_nil hkey.1
  exact ⟨c, cs, hcons, hkey.2 c (hcons ▸ List.mem_cons_self)⟩

theorem readKey_plain (hkey : Plain key) (hc : isBareChar c = false) (rest : List Char) :
    readKey (key.toList ++ c :: rest) = some (.bare key, c :: rest) := by
  have hbare : ∀ d ∈ key.toList, isBareChar d = true :=
    hkey.forall_mem (List.all_iff_forall_prop.mp (by decide))
  have htake : (key.toList ++ c :: rest).takeWhile isBareChar = key.toList := by
    rw [List.takeWhile_append_of_pos hbare, List.takeWhile_cons_of_neg (by simp [hc]),
      List.append_nil]
  have hdrop : (key.toList ++ c :: rest).dropWhile isBareChar = c :: rest := by
    rw [List.dropWhile_append_of_pos hbare, List.dropWhile_cons_of_neg (by simp [hc])]
  obtain ⟨d, ds, hcons, hd⟩ := hkey.exists_cons
  have hquote : ∀ d ∈ plainChars, d ≠ '"' ∧ d ≠ '\'' :=
    List.all_iff_forall_prop.mp (by decide)
  have hname : Key.bare key = ⟨String.ofList (d :: ds), d :: ds, [], []⟩ := by
    rw [← hcons, String.ofList_toList]
    rfl
  rw [hcons, List.cons_append] at htake hdrop
  rw [hname, hcons, List.cons_append]
  unfold readKey
  split
  · rename_i hcs
    injection hcs with hcs
    exact absurd hcs (hquote d hd).1
  · rename_i hcs
    injection hcs with hcs
    exact absurd hcs (hquote d hd).2
  · rw [htake, hdrop]

/-- A path of one key is read up to the first character that is no space and ends it. -/
theorem readPath_plain (hkey : Plain key) {gap : List Char} (hgap : ∀ d ∈ gap, isSpace d = true)
    (hc : isBareChar c = false) (hspace : isSpace c = false) (hpoint : c ≠ '.') (bound : Nat)
    (rest : List Char) :
    readPath (bound + 1) (key.toList ++ (gap ++ c :: rest)) = some (.bare key gap, c :: rest) := by
  have hread : readKey (key.toList ++ (gap ++ c :: rest)) = some (.bare key, gap ++ c :: rest) := by
    cases gap with
    | nil => exact readKey_plain hkey hc rest
    | cons g gap =>
        have hg : isBareChar g = false := by
          have hg := hgap g List.mem_cons_self
          simp only [isSpace, Bool.or_eq_true, beq_iff_eq] at hg
          rcases hg with rfl | rfl <;> rfl
        exact readKey_plain hkey hg (gap ++ c :: rest)
  have htake : (gap ++ c :: rest).takeWhile isSpace = gap := by
    rw [List.takeWhile_append_of_pos hgap, List.takeWhile_cons_of_neg (by simp [hspace]),
      List.append_nil]
  have hdrop : skipSpace (gap ++ c :: rest) = c :: rest := by
    rw [skipSpace, List.dropWhile_append_of_pos hgap,
      List.dropWhile_cons_of_neg (by simp [hspace])]
  obtain ⟨d, ds, hcons, hd⟩ := hkey.exists_cons
  have hnone : ∀ d ∈ plainChars, isSpace d = false := List.all_iff_forall_prop.mp (by decide)
  have hlead : (key.toList ++ (gap ++ c :: rest)).takeWhile isSpace = [] := by
    rw [hcons, List.cons_append, List.takeWhile_cons_of_neg (by simp [hnone d hd])]
  have hstart : skipSpace (key.toList ++ (gap ++ c :: rest)) =
      key.toList ++ (gap ++ c :: rest) := by
    rw [hcons, List.cons_append, skipSpace, List.dropWhile_cons_of_neg (by simp [hnone d hd])]
  rw [readPath, hlead, hstart, hread]
  simp only [bind, Option.bind_some, htake, hdrop]
  split
  · rename_i hcs
    injection hcs with hcs
    exact absurd hcs hpoint
  · rfl

/-! ## Statements -/

/-- Lines that a reader skips in front of a statement. -/
structure Skippable (lead : List Char) : Prop where
  skips : ∀ rest, skipTrivia false (lead ++ rest) = skipTrivia false rest
  ret : '\r' ∉ lead

theorem skippable_nil : Skippable [] := ⟨fun _ => rfl, List.not_mem_nil⟩

theorem skippable_lineFeed : Skippable ['\n'] := ⟨fun _ => rfl, by decide⟩

theorem Skippable.append {lead more : List Char} (h : Skippable lead) (h' : Skippable more) :
    Skippable (lead ++ more) where
  skips rest := by rw [List.append_assoc, h.skips, h'.skips]
  ret := by simp [h.ret, h'.ret]

/-- The characters that may begin a statement. -/
def Begins (c : Char) : Prop := c ∈ plainChars ∨ c = '['

theorem Begins.skipTrivia (h : Begins c) (rest : List Char) :
    skipTrivia false (c :: rest) = some (c :: rest) := by
  have hplain : ∀ c ∈ plainChars ++ ['['],
      c ≠ '\n' ∧ isControl c = false ∧ isSpace c = false ∧ c ≠ '#' :=
    List.all_iff_forall_prop.mp (by decide)
  obtain ⟨hline, hcontrol, hspace, hcomment⟩ := hplain c (by simpa [Begins] using h)
  simp [Toml.skipTrivia, hline, hcontrol, hspace, hcomment]

/-- A statement that is read back, whatever skippable lines are put in front of it. -/
structure Statement.Legible (s : Statement) : Prop where
  reads : ∀ lead rest, readStatement lead (s.clause.chars ++ (s.tail ++ '\n' :: rest)) =
    some ({ s with lead := lead }, rest)
  begins : ∃ c cs, s.clause.chars = c :: cs ∧ Begins c
  ret : '\r' ∉ s.clause.chars ++ s.tail
  /-- The file has a line for the statement. -/
  opening : ∀ lead, Statement.opening { s with lead := lead } = lead

theorem readStatement_of_readClause {s : Statement} {lead : List Char}
    (h : readClause (cs ++ '\n' :: rest) = some (s, '\n' :: rest)) :
    readStatement lead (cs ++ '\n' :: rest) = some (s.between lead [], rest) := by
  have hline : lineEnd ('\n' :: rest) = some rest := rfl
  have hbreak : consumed rest ('\n' :: rest) = ['\n'] := consumed_append ['\n'] rest
  rw [readStatement, h]
  simp only [bind, Option.bind_some, hline, hbreak]
  rfl

theorem readClause_plain (hc : c ∈ plainChars) (cs : List Char) :
    readClause (c :: cs) = readAssignment (readValue maxDepth) (c :: cs) := by
  have hbracket : '[' ∉ plainChars := by decide
  unfold readClause
  split
  · rename_i hcs
    injection hcs with hcs
    exact absurd (hcs ▸ hc) hbracket
  · rename_i hcs
    injection hcs with hcs
    exact absurd (hcs ▸ hc) hbracket
  · rfl

theorem readAssignment_plain (hkey : Plain key) {value : Reader Spelled} {s : Spelled}
    (hstart : ∃ c cs, s.chars = c :: cs ∧ isSpace c = false)
    (hvalue : value (s.chars ++ rest) = some (s, rest)) :
    readAssignment value (key.toList ++ ([' '] ++ '=' :: ' ' :: (s.chars ++ rest))) =
      some (.assign key s.value s.chars, rest) := by
  have hpath : readPath maxDepth (key.toList ++ ([' '] ++ '=' :: ' ' :: (s.chars ++ rest))) =
      some (.bare key [' '], '=' :: ' ' :: (s.chars ++ rest)) :=
    readPath_plain hkey (by simp [isSpace]) rfl rfl (by decide) 79 _
  obtain ⟨c, cs, hcons, hspace⟩ := hstart
  have hskip : skipSpace (' ' :: (s.chars ++ rest)) = s.chars ++ rest := by
    rw [skipSpace, List.dropWhile_cons_of_pos rfl, hcons, List.cons_append,
      List.dropWhile_cons_of_neg (by simp [hspace])]
  have hgap : (' ' :: (s.chars ++ rest)).takeWhile isSpace = [' '] := by
    rw [List.takeWhile_cons_of_pos rfl, hcons, List.cons_append,
      List.takeWhile_cons_of_neg (by simp [hspace])]
  rw [readAssignment, hpath]
  simp only [bind, Option.bind_some, hskip, hvalue, hgap]
  rfl

theorem chars_assign (key : String) (v : Toml) (spelling : List Char) :
    (Statement.assign key v spelling).clause.chars = key.toList ++ [' ', '='] := by
  simp [Statement.assign, Clause.chars, Path.chars, Path.bare, Path.keyChars, Key.bare]

theorem legible_assign (hkey : Plain key) {v : Toml} {spelling : List Char}
    (hv : Spelled.Legible maxDepth ⟨v, spelling⟩) : (Statement.assign key v spelling).Legible := by
  obtain ⟨d, ds, hcons, hd⟩ := hkey.exists_cons
  refine ⟨fun lead rest => ?_, ?_, ?_, fun _ => rfl⟩
  · have hline : (Statement.assign key v spelling).clause.chars ++
        ((Statement.assign key v spelling).tail ++ '\n' :: rest) =
          (key.toList ++ (' ' :: '=' :: ' ' :: spelling)) ++ '\n' :: rest := by
      rw [chars_assign]
      simp [Statement.assign]
    have hread : readClause ((key.toList ++ (' ' :: '=' :: ' ' :: spelling)) ++ '\n' :: rest) =
        some (.assign key v spelling, '\n' :: rest) := by
      have hassignment := readAssignment_plain hkey hv.start (hv.reads '\n' rest (Or.inl rfl))
      have hassoc : (key.toList ++ (' ' :: '=' :: ' ' :: spelling)) ++ '\n' :: rest =
          key.toList ++ ([' '] ++ '=' :: ' ' :: (spelling ++ '\n' :: rest)) := by simp
      rw [hassoc, ← hassignment, hcons]
      exact readClause_plain hd _
    rw [hline, readStatement_of_readClause hread]
    simp [Statement.between, Statement.assign]
  · rw [chars_assign, hcons]
    exact ⟨d, ds ++ [' ', '='], rfl, Or.inl hd⟩
  · have hreturn : ∀ c ∈ plainChars, c ≠ '\r' := List.all_iff_forall_prop.mp (by decide)
    have hkeyReturn : '\r' ∉ key.toList := fun h => hreturn _ (hkey.2 _ h) rfl
    have hvReturn : '\r' ∉ spelling := hv.ret
    rw [chars_assign]
    simp [Statement.assign, hkeyReturn, hvReturn]

theorem chars_element (key : String) :
    (Statement.element key).clause.chars = '[' :: '[' :: (key.toList ++ [']', ']']) := by
  simp [Statement.element, Clause.chars, Path.chars, Path.bare, Path.keyChars, Key.bare]

theorem legible_element (hkey : Plain key) : (Statement.element key).Legible := by
  refine ⟨fun lead rest => ?_, ?_, ?_, fun _ => rfl⟩
  · have hpath : readPath maxDepth (key.toList ++ ([] ++ ']' :: ']' :: '\n' :: rest)) =
        some (.bare key [], ']' :: ']' :: '\n' :: rest) :=
      readPath_plain hkey (by simp) rfl rfl (by decide) 79 _
    have hread : readClause (('[' :: '[' :: (key.toList ++ [']', ']'])) ++ '\n' :: rest) =
        some (⟨[], .element (.bare key []), []⟩, '\n' :: rest) := by
      have hassoc : ('[' :: '[' :: (key.toList ++ [']', ']'])) ++ '\n' :: rest =
          '[' :: '[' :: (key.toList ++ ([] ++ ']' :: ']' :: '\n' :: rest)) := by simp
      rw [hassoc, readClause, hpath]
      rfl
    have hline : (Statement.element key).clause.chars ++
        ((Statement.element key).tail ++ '\n' :: rest) =
          ('[' :: '[' :: (key.toList ++ [']', ']'])) ++ '\n' :: rest := by
      rw [chars_element]
      rfl
    rw [hline, readStatement_of_readClause hread]
    simp [Statement.between, Statement.element]
  · rw [chars_element]
    exact ⟨'[', _, rfl, Or.inr rfl⟩
  · have hreturn : ∀ c ∈ plainChars, c ≠ '\r' := List.all_iff_forall_prop.mp (by decide)
    have hkeyReturn : '\r' ∉ key.toList := fun h => hreturn _ (hkey.2 _ h) rfl
    rw [chars_element]
    simp [Statement.element, hkeyReturn]

/-! ## Documents -/

/-- Statements that are read back from lines of their own. -/
def Lines (ss : List Statement) : Prop := ∀ s ∈ ss, s.Legible ∧ Skippable s.lead

theorem readStatements_lines {ss : List Statement} (h : Lines ss) {bound : Nat}
    (hbound : ss.length ≤ bound) :
    readStatements bound (ss.flatMap fun s => s.chars ++ ['\n']) = some ⟨ss, []⟩ := by
  induction ss generalizing bound with
  | nil =>
      rw [List.flatMap_nil, readStatements.eq_def]
      rfl
  | cons s ss ih =>
      obtain ⟨bound, rfl⟩ : ∃ n, bound = n + 1 := by
        rw [List.length_cons] at hbound
        exact ⟨bound - 1, by omega⟩
      obtain ⟨⟨hs, hlead⟩, hss⟩ := List.forall_mem_cons.mp h
      have hrest := ih hss (by simpa using hbound)
      have hread := hs.reads s.lead (ss.flatMap fun s => s.chars ++ ['\n'])
      obtain ⟨c, cs, hcons, hbegins⟩ := hs.begins
      have hopening : s.opening = s.lead := hs.opening s.lead
      have htext : ((s :: ss).flatMap fun s => s.chars ++ ['\n']) =
          s.lead ++ (c :: (cs ++ (s.tail ++ '\n' :: ss.flatMap fun s => s.chars ++ ['\n']))) := by
        simp [Statement.chars, hopening, hcons]
      rw [hcons, List.cons_append] at hread
      rw [htext, readStatements.eq_def]
      simp only [hlead.skips, hbegins.skipTrivia, bind, Option.bind_some, consumed_append, hread,
        hrest]
      rfl

theorem joinReturns_of_not_mem (h : '\r' ∉ cs) : joinReturns cs = some cs := by
  induction cs with
  | nil => rfl
  | cons c cs ih =>
      have hc : c ≠ '\r' := fun hc => h (hc ▸ List.mem_cons_self)
      have hcs := ih fun hmem => h (List.mem_cons_of_mem c hmem)
      unfold joinReturns
      split
      · rename_i heq
        cases heq
      · rename_i heq
        injection heq with heq
        exact absurd heq hc
      · rename_i heq
        injection heq with heq heq'
        subst heq heq'
        rw [if_neg hc, hcs]
        rfl

theorem return_not_mem_lines {ss : List Statement} (h : Lines ss) :
    '\r' ∉ ss.flatMap fun s => s.chars ++ ['\n'] := by
  intro hmem
  obtain ⟨s, hs, hmem⟩ := List.mem_flatMap.mp hmem
  obtain ⟨hlegible, hlead⟩ := h s hs
  have hopening : s.opening = s.lead := hlegible.opening s.lead
  have hreturn := hlegible.ret
  simp only [Statement.chars, hopening, List.mem_append, List.mem_singleton, not_or] at hmem hreturn
  rcases hmem with ((hmem | hmem) | hmem) | hmem
  · exact hlead.ret hmem
  · exact hreturn.1 hmem
  · exact hreturn.2 hmem
  · exact absurd hmem (by decide)

theorem dropMark_of_head (h : cs.head? ≠ some '\uFEFF') : dropMark cs = cs := by
  unfold dropMark
  split
  · exact absurd rfl h
  · rfl

/-- No statement and no line in front of it begins with the mark of a file. -/
theorem dropMark_lines {ss : List Statement} (h : Lines ss) :
    dropMark (ss.flatMap fun s => s.chars ++ ['\n']) = ss.flatMap fun s => s.chars ++ ['\n'] := by
  refine dropMark_of_head ?_
  cases ss with
  | nil => simp
  | cons s ss =>
      obtain ⟨⟨hs, hlead⟩, -⟩ := List.forall_mem_cons.mp h
      have hopening : s.opening = s.lead := hs.opening s.lead
      obtain ⟨c, cs, hcons, hbegins⟩ := hs.begins
      rw [List.flatMap_cons, Statement.chars, hopening, hcons]
      cases hl : s.lead with
      | nil =>
          have hplain : ∀ c ∈ plainChars ++ ['['], c ≠ '\uFEFF' :=
            List.all_iff_forall_prop.mp (by decide)
          simpa using hplain c (by simpa [Begins] using hbegins)
      | cons d ds =>
          -- a line that began with the mark would not be skipped
          intro heq
          cases heq
          have hskips := hlead.skips []
          rw [hl] at hskips
          cases hskips

/-- A document of such lines is read back as it is. -/
theorem Document.parse?_text {ss : List Statement} (h : Lines ss) :
    parse? (Document.text ⟨ss, []⟩) = some ⟨ss, []⟩ := by
  have hbound : ss.length ≤ (ss.flatMap fun s => s.chars ++ ['\n']).length := by
    clear h
    induction ss with
    | nil => exact Nat.le_refl 0
    | cons s ss ih =>
        rw [List.flatMap_cons, List.length_append, List.length_append, List.length_cons,
          List.length_singleton]
        omega
  have hchars : (Document.text ⟨ss, []⟩).toList = ss.flatMap fun s => s.chars ++ ['\n'] := by
    simp [Document.text, Document.chars]
  rw [parse?, hchars, dropMark_lines h, joinReturns_of_not_mem (return_not_mem_lines h)]
  exact readStatements_lines h hbound

end BoundSql.Toml
