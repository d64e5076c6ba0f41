import BoundSql.Toml.Quoted

/-!
# Written strings read back

A string is written in one of four forms, chosen by the characters it holds, and reading takes it
back from any of them.  Between double quotes every character is one written character or an
escape; between tripled quotes the reader looks for three quotes in a row, and the form is chosen,
or the quotes are escaped, so that these are found at the end only.

What follows a string must not begin with its quote: two quotes and a third one would open a string
of several lines.
-/

namespace BoundSql.Toml

variable {c : Char} {cs rest : List Char}

/-! ## Characters between double quotes -/

/-- A character other than a line break or a double quote as it may stand in a string, or an
escape for any character. -/
inductive Spells : Char → List Char → Prop where
  | plain {c : Char} (quote : c ≠ '"') (backslash : c ≠ '\\') (line : c ≠ '\n')
      (control : isControl c = false) : Spells c [c]
  | escape {c : Char} (d : Char) (ds : List Char)
      (reads : ∀ tail, readEscape (d :: ds ++ tail) = some (c, tail))
      (space : isSpace d = false) (line : d ≠ '\n') (ret : '\r' ∉ d :: ds) :
      Spells c ('\\' :: d :: ds)

/-- The digits of a control character have the fixed width of their escape and are read as the
character. -/
theorem codePoint?_hexPadded :
    ∀ n < 128, ((Text.hexPadded 4 n).map Char.toUpper).length = 4 ∧
      codePoint? ((Text.hexPadded 4 n).map Char.toUpper) = some (Char.ofNat n) ∧
      '\r' ∉ (Text.hexPadded 4 n).map Char.toUpper := by
  decide +kernel

theorem toNat_lt_of_isControl (h : isControl c = true) : c.toNat < 128 := by
  simp only [isControl, Bool.or_eq_true, Bool.and_eq_true, decide_eq_true_eq, beq_iff_eq] at h
  omega

theorem spells_codePointEscape (h : isControl c = true) : Spells c (codePointEscape c) := by
  obtain ⟨hlength, hcode, hreturn⟩ := codePoint?_hexPadded c.toNat (toNat_lt_of_isControl h)
  rw [Char.ofNat_toNat] at hcode
  refine .escape _ _ (fun tail => ?_) rfl (by decide) (by simpa using hreturn)
  have hwidth : escapeWidth 'u' = some 4 := rfl
  have hlong : ¬((Text.hexPadded 4 c.toNat).map Char.toUpper ++ tail).length < 4 := by
    rw [List.length_append, hlength]
    omega
  rw [List.cons_append, readEscape, hwidth]
  simp only [if_neg hlong]
  rw [List.take_left' hlength, List.drop_left' hlength, hcode]
  rfl

theorem spells_escaped (hquote : c ≠ '"') (hline : c ≠ '\n') : Spells c (escaped c) := by
  unfold escaped
  split
  case h_6 c hslash _ _ _ _ =>
    split
    · exact spells_codePointEscape ‹_›
    · exact .plain hquote hslash hline (Bool.not_eq_true _ ▸ ‹_›)
  all_goals exact .escape _ _ (fun _ => rfl) rfl (by decide) (by decide)

theorem spells_doubleQuote : Spells '"' ['\\', '"'] :=
  .escape _ _ (fun _ => rfl) rfl (by decide) (by decide)

theorem spells_lineFeed : Spells '\n' ['\\', 'n'] :=
  .escape _ _ (fun _ => rfl) rfl (by decide) (by decide)

theorem Spells.readBasic {w : List Char} (h : Spells c w) (rest : List Char) :
    readBasic (w ++ rest) = push c (readBasic rest) := by
  cases h with
  | plain hquote hslash hline hcontrol =>
      rw [List.singleton_append, Toml.readBasic, if_neg hquote, if_neg hslash, if_neg]
      simp [hline, hcontrol]
  | escape d ds hreads =>
      rw [List.cons_append, Toml.readBasic, if_neg (by decide), if_pos rfl]
      split
      · rename_i hsome
        cases (hreads rest).symm.trans hsome
        rfl
      · rename_i hnone
        cases (hreads rest).symm.trans hnone

/-- Between tripled quotes a character is taken as it stands, unless the string ends here. -/
theorem readLines_cons (hopen : closing? '"' (c :: rest) = none) (hslash : c ≠ '\\')
    (hcontrol : isControl c = false) :
    readLines false (c :: rest) = push c (readLines false rest) := by
  rw [readLines, if_neg (by simp)]
  simp only [hopen, if_neg hslash, hcontrol, Bool.false_eq_true, if_false]

theorem closing?_of_ne {quote : Char} (h : c ≠ quote) (rest : List Char) :
    closing? quote (c :: rest) = none := by
  simp [closing?, h]

theorem Spells.readLines {w : List Char} (h : Spells c w) (rest : List Char) :
    readLines false (w ++ rest) = push c (readLines false rest) := by
  cases h with
  | plain hquote hslash _ hcontrol =>
      exact readLines_cons (closing?_of_ne hquote rest) hslash hcontrol
  | escape d ds hreads hspace hline =>
      have hopen : closing? '"' ('\\' :: (d :: ds ++ rest)) = none :=
        closing?_of_ne (by decide) _
      have hstays : (skipSpace (d :: ds ++ rest)).head? ≠ some '\n' := by
        simp [skipSpace, hspace, hline]
      rw [List.cons_append, Toml.readLines, if_neg (by simp)]
      simp only [hopen, if_neg hstays, if_true]
      split
      · rename_i hsome
        cases (hreads rest).symm.trans hsome
        rfl
      · rename_i hnone
        cases (hreads rest).symm.trans hnone

/-! ## Strings on one line -/

theorem readBasic_basicChars (cs rest : List Char) :
    readBasic (basicChars cs ++ '"' :: rest) = some (cs, rest) := by
  induction cs with
  | nil => rw [basicChars, List.flatMap_nil, List.nil_append, readBasic, if_pos rfl]
  | cons c cs ih =>
      have hstep {w : List Char} (hw : Spells c w) :
          readBasic (w ++ basicChars cs ++ '"' :: rest) = some (c :: cs, rest) := by
        rw [List.append_assoc, hw.readBasic, ih]
        rfl
      rw [basicChars, List.flatMap_cons]
      split
      · exact hstep spells_doubleQuote
      · exact hstep spells_lineFeed
      · rename_i hquote hline
        exact hstep (spells_escaped hquote hline)

theorem readLiteral_append (hquote : '\'' ∉ cs) (hline : '\n' ∉ cs)
    (hcontrol : ∀ c ∈ cs, isControl c = false) :
    readLiteral (cs ++ '\'' :: rest) = some (cs, rest) := by
  induction cs with
  | nil => rfl
  | cons c cs ih =>
      simp only [List.mem_cons, not_or, forall_eq_or_imp] at hquote hline hcontrol
      rw [List.cons_append, readLiteral, if_neg (Ne.symm hquote.1), if_neg,
        ih hquote.2 hline.2 hcontrol.2]
      · rfl
      · simp [Ne.symm hline.1, hcontrol.1]

/-! ## Strings of several lines -/

/-- The quotes at the front of a text. -/
def frontRun (quote : Char) (cs : List Char) : Nat := (cs.takeWhile (· = quote)).length

theorem closing?_eq_none {quote : Char} (h : frontRun quote cs ≤ 2) :
    closing? quote cs = none := by
  have hshort : ((cs.takeWhile (· = quote)).take 5).length < 3 := by
    rw [List.length_take]
    have : frontRun quote cs = (cs.takeWhile (· = quote)).length := rfl
    omega
  rw [closing?, if_pos hshort]

/-- At most two quotes and the three that close a string are told apart. -/
theorem closing?_replicate {quote : Char} {k : Nat} (hk : k ≤ 2)
    (hrest : rest.head? ≠ some quote) :
    closing? quote (List.replicate k quote ++ List.replicate 3 quote ++ rest) =
      some (List.replicate k quote, rest) := by
  have hrun : (List.replicate (k + 3) quote ++ rest).takeWhile (· = quote) =
      List.replicate (k + 3) quote := by
    cases rest with
    | nil => simp
    | cons c rest =>
        have hc : c ≠ quote := by simpa using hrest
        simp [hc]
  have hall : (List.replicate (k + 3) quote).take 5 = List.replicate (k + 3) quote :=
    List.take_of_length_le (by rw [List.length_replicate]; omega)
  have hlong : ¬(List.replicate (k + 3) quote).length < 3 := by
    rw [List.length_replicate]
    omega
  rw [List.replicate_append_replicate, closing?, hrun, hall]
  simp only [if_neg hlong]
  rw [List.drop_replicate, List.drop_left, Nat.add_sub_cancel]

/-- After `run` quotes, what is written begins with few quotes, unless nothing but quotes is left
and none of them needs an escape. -/
theorem frontRun_linesChars (run : Nat) (hrun : run ≤ 2) (cs rest : List Char) :
    (∃ k, k + run ≤ 2 ∧ cs = List.replicate k '"' ∧ linesChars run cs = cs) ∨
      frontRun '"' (linesChars run cs ++ rest) + run ≤ 2 := by
  induction cs generalizing run with
  | nil => exact Or.inl ⟨0, by omega, rfl, rfl⟩
  | cons c cs ih =>
      unfold linesChars
      split
      · rename_i hc
        subst hc
        split
        · rename_i hfew
          rcases ih (run + 1) (by omega) with ⟨k, hk, hcs, hwritten⟩ | hshort
          · refine Or.inl ⟨k + 1, by omega, by rw [hcs]; rfl, by rw [hwritten]⟩
          · refine Or.inr ?_
            have hcons : frontRun '"' ('"' :: linesChars (run + 1) cs ++ rest) =
                frontRun '"' (linesChars (run + 1) cs ++ rest) + 1 := by simp [frontRun]
            omega
        · exact Or.inr (by simpa [frontRun] using hrun)
      · rename_i hc
        split
        · rename_i hline
          subst hline
          exact Or.inr (by simpa [frontRun] using hrun)
        · rename_i hline
          refine Or.inr ?_
          cases h : escaped c with
          | nil =>
              have hspells := spells_escaped hc hline
              rw [h] at hspells
              cases hspells
          | cons d ds =>
              have hspells := spells_escaped hc hline
              rw [h] at hspells
              have hd : d ≠ '"' := by
                cases hspells with
                | plain => exact hc
                | escape => decide
              simpa [frontRun, hd] using hrun

theorem readLines_linesChars {run : Nat} (hrun : run ≤ 2) (hrest : rest.head? ≠ some '"') :
    readLines false (linesChars run cs ++ (List.replicate 3 '"' ++ rest)) = some (cs, rest) := by
  induction cs generalizing run with
  | nil =>
      have hclosing : closing? '"' ('"' :: '"' :: '"' :: rest) = some ([], rest) :=
        closing?_replicate (k := 0) (by decide) hrest
      show readLines false ('"' :: '"' :: '"' :: rest) = _
      rw [readLines, if_neg (by simp)]
      simp only [hclosing]
  | cons c cs ih =>
      rcases frontRun_linesChars _ hrun (c :: cs) (List.replicate 3 '"' ++ rest) with
        ⟨k, hk, hcs, hwritten⟩ | hshort
      -- only quotes are left, and they are taken together with those that close the string
      · have hclosing := closing?_replicate (k := k) (by omega) hrest
        rw [← hcs, List.append_assoc, List.cons_append] at hclosing
        rw [hwritten, List.cons_append, readLines, if_neg (by simp)]
        simp only [hclosing]
      · have hopen := closing?_eq_none (Nat.le_of_add_right_le hshort)
        unfold linesChars at hopen ⊢
        split at hopen
        · rename_i hc
          subst hc
          simp only [if_true]
          split at hopen
          · rename_i hfew
            rw [List.cons_append] at hopen
            rw [if_pos hfew, List.cons_append, readLines_cons hopen (by decide) rfl,
              ih (by omega)]
            rfl
          · rename_i hmany
            rw [if_neg hmany]
            have hstep := spells_doubleQuote.readLines
              (linesChars 0 cs ++ (List.replicate 3 '"' ++ rest))
            rw [ih (by decide)] at hstep
            exact hstep
        · rename_i hc
          rw [if_neg hc]
          split at hopen
          · rename_i hline
            subst hline
            rw [List.cons_append] at hopen
            rw [if_pos rfl, List.cons_append, readLines_cons hopen (by decide) rfl,
              ih (by decide)]
            rfl
          · rename_i hline
            rw [if_neg hline, List.append_assoc, (spells_escaped hc hline).readLines,
              ih (by decide)]
            rfl

theorem frontRun_of_longestRun {quote : Char} {run : Nat} (h : longestRun quote run cs ≤ 2)
    (rest : List Char) :
    (∃ k, k + run ≤ 2 ∧ cs = List.replicate k quote) ∨ frontRun quote (cs ++ rest) + run ≤ 2 := by
  induction cs generalizing run with
  | nil => exact Or.inl ⟨0, by simpa [longestRun] using h, rfl⟩
  | cons c cs ih =>
      unfold longestRun at h
      split at h
      · rename_i hc
        subst hc
        rcases ih h with ⟨k, hk, hcs⟩ | hshort
        · exact Or.inl ⟨k + 1, by omega, by rw [hcs]; rfl⟩
        · have hcons : frontRun c (c :: cs ++ rest) = frontRun c (cs ++ rest) + 1 := by
            simp [frontRun]
          exact Or.inr (by omega)
      · rename_i hc
        have hnone : frontRun quote (c :: cs ++ rest) = 0 := by simp [frontRun, hc]
        exact Or.inr (by omega)

theorem readLiteralLines_append {run : Nat} (h : longestRun '\'' run cs ≤ 2)
    (hcontrol : ∀ c ∈ cs, isControl c = false) (hrest : rest.head? ≠ some '\'') :
    readLiteralLines (cs ++ (List.replicate 3 '\'' ++ rest)) = some (cs, rest) := by
  induction cs generalizing run with
  | nil =>
      have hclosing : closing? '\'' ('\'' :: '\'' :: '\'' :: rest) = some ([], rest) :=
        closing?_replicate (k := 0) (by decide) hrest
      show readLiteralLines ('\'' :: '\'' :: '\'' :: rest) = _
      rw [readLiteralLines, hclosing]
  | cons c cs ih =>
      rw [List.forall_mem_cons] at hcontrol
      rcases frontRun_of_longestRun h (List.replicate 3 '\'' ++ rest) with ⟨k, hk, hcs⟩ | hshort
      · have hclosing := closing?_replicate (k := k) (by omega) hrest
        rw [← hcs, List.append_assoc, List.cons_append] at hclosing
        rw [List.cons_append, readLiteralLines, hclosing]
      · have hopen := closing?_eq_none (Nat.le_of_add_right_le hshort)
        have htail : ∃ run', longestRun '\'' run' cs ≤ 2 := by
          unfold longestRun at h
          split at h
          · exact ⟨_, h⟩
          · exact ⟨0, by omega⟩
        obtain ⟨run', hrun'⟩ := htail
        rw [List.cons_append] at hopen ⊢
        rw [readLiteralLines, hopen]
        simp only [hcontrol.1, Bool.false_eq_true, if_false]
        rw [ih hrun' hcontrol.2]
        rfl

/-! ## All forms -/

theorem le_longestRun (quote : Char) (run : Nat) (cs : List Char) :
    run ≤ longestRun quote run cs := by
  induction cs generalizing run with
  | nil => exact Nat.le_refl run
  | cons c cs ih =>
      unfold longestRun
      split
      · exact Nat.le_of_succ_le (ih (run + 1))
      · exact Nat.le_max_left _ _

theorem not_mem_of_longestRun {quote : Char} (h : longestRun quote 0 cs = 0) : quote ∉ cs := by
  induction cs with
  | nil => exact List.not_mem_nil
  | cons c cs ih =>
      unfold longestRun at h
      split at h
      · have := le_longestRun quote (0 + 1) cs
        omega
      · rename_i hc
        exact List.not_mem_cons_of_ne_of_not_mem (Ne.symm hc) (ih (by omega))

/-- A string between single quotes on one line holds neither these nor a control character. -/
theorem literal_of_quoteForm (h : quoteForm cs = .literal) :
    '\'' ∉ cs ∧ '\n' ∉ cs ∧ ∀ c ∈ cs, isControl c = false := by
  simp only [quoteForm] at h
  split at h
  · cases h
  split at h
  · rename_i hliteral
    simp only [Bool.and_eq_true, Bool.not_eq_true', List.any_eq_false, decide_eq_true_eq]
      at hliteral
    obtain ⟨⟨hcontrol, hnone⟩, hline⟩ := hliteral
    exact ⟨not_mem_of_longestRun hnone, by simpa using hline,
      fun c hc => Bool.not_eq_true _ ▸ hcontrol c hc⟩
  split at h
  · cases h
  split at h
  · cases h
  split at h <;> cases h

/-- A string between tripled single quotes never has three of them in a row. -/
theorem literalLines_of_quoteForm (h : quoteForm cs = .literalLines) :
    longestRun '\'' 0 cs ≤ 2 ∧ ∀ c ∈ cs, isControl c = false := by
  simp only [quoteForm] at h
  split at h
  · cases h
  split at h
  · cases h
  split at h
  · cases h
  split at h
  · rename_i hliteral
    simp only [Bool.and_eq_true, Bool.not_eq_true', List.any_eq_false, decide_eq_true_eq]
      at hliteral
    exact ⟨hliteral.2, fun c hc => Bool.not_eq_true _ ▸ hliteral.1 c hc⟩
  split at h <;> cases h

theorem dropBreak_of_head (h : cs.head? ≠ some '\n') : dropBreak cs = cs := by
  unfold dropBreak
  split
  · simp at h
  · rfl

/-- The break after opening quotes is written exactly if the string would begin with one read as
such. -/
theorem dropBreak_start {written : List Char} (h : '\n' ∉ cs → written.head? ≠ some '\n') :
    dropBreak ((if cs.contains '\n' then ['\n'] else []) ++ written) = written := by
  by_cases hbroken : '\n' ∈ cs
  · rw [if_pos (by simpa using hbroken)]
    rfl
  · rw [if_neg (by simpa using hbroken), List.nil_append]
    exact dropBreak_of_head (h hbroken)

theorem head_escaped (hquote : c ≠ '"') (hline : c ≠ '\n') :
    ∃ d ds, escaped c = d :: ds ∧ d ≠ '"' ∧ d ≠ '\n' := by
  cases h : escaped c with
  | nil =>
      have hspells := spells_escaped hquote hline
      rw [h] at hspells
      cases hspells
  | cons d ds =>
      have hspells := spells_escaped hquote hline
      rw [h] at hspells
      refine ⟨d, ds, rfl, ?_⟩
      cases hspells with
      | plain => exact ⟨hquote, hline⟩
      | escape => exact ⟨by decide, by decide⟩

theorem readQuoted_basic {cs : List Char} (h : ∀ more, cs ≠ '"' :: '"' :: more) :
    readQuoted ('"' :: cs) = readBasic cs := by
  unfold readQuoted
  split
  · rename_i hcs
    cases hcs
    exact absurd rfl (h _)
  · rename_i hcs
    cases hcs
    rfl
  · rename_i hcs
    cases hcs
  · rename_i hcs
    cases hcs
  · rename_i hnone _ _
    exact absurd rfl (hnone cs)

theorem readQuoted_literal {cs : List Char} (h : ∀ more, cs ≠ '\'' :: '\'' :: more) :
    readQuoted ('\'' :: cs) = readLiteral cs := by
  unfold readQuoted
  split
  · rename_i hcs
    cases hcs
  · rename_i hcs
    cases hcs
  · rename_i hcs
    cases hcs
    exact absurd rfl (h _)
  · rename_i hcs
    cases hcs
    rfl
  · rename_i hnone
    exact absurd rfl (hnone cs)

/-- What stands between tripled quotes does not begin with a line break of its own. -/
theorem head_linesChars (hline : '\n' ∉ cs) (rest : List Char) :
    (linesChars 0 cs ++ (List.replicate 3 '"' ++ rest)).head? ≠ some '\n' := by
  cases cs with
  | nil => simp [linesChars, List.replicate]
  | cons c cs =>
      have hc : c ≠ '\n' := fun h => hline (h ▸ List.mem_cons_self)
      unfold linesChars
      by_cases hquote : c = '"'
      · simp [hquote]
      · obtain ⟨d, ds, hescaped, -, hd⟩ := head_escaped hquote hc
        simp [hquote, hc, hescaped, hd]

theorem head_literalLines (hline : '\n' ∉ cs) (rest : List Char) :
    (cs ++ (List.replicate 3 '\'' ++ rest)).head? ≠ some '\n' := by
  cases cs with
  | nil => simp [List.replicate]
  | cons c cs =>
      have hc : c ≠ '\n' := fun h => hline (h ▸ List.mem_cons_self)
      simp [hc]

/-- A written string is read back, and what follows it is left. -/
theorem readQuoted_quoted (cs : List Char) (hdouble : rest.head? ≠ some '"')
    (hsingle : rest.head? ≠ some '\'') : readQuoted (quoted cs ++ rest) = some (cs, rest) := by
  cases hform : quoteForm cs with
  | basic =>
      have hshort (more : List Char) : basicChars cs ++ '"' :: rest ≠ '"' :: '"' :: more := by
        cases cs with
        | nil =>
            intro h
            injection h with _ h
            exact hdouble (by rw [h]; rfl)
        | cons c cs =>
            rw [basicChars, List.flatMap_cons]
            split
            · simp
            · simp
            · rename_i hquote hline
              obtain ⟨d, ds, hescaped, hd, -⟩ := head_escaped hquote hline
              simp [hescaped, hd]
      have hquoted : quoted cs ++ rest = '"' :: (basicChars cs ++ '"' :: rest) := by
        simp [quoted, hform]
      rw [hquoted, readQuoted_basic hshort, readBasic_basicChars]
  | literal =>
      obtain ⟨hquote, hline, hcontrol⟩ := literal_of_quoteForm hform
      have hshort (more : List Char) : cs ++ '\'' :: rest ≠ '\'' :: '\'' :: more := by
        cases cs with
        | nil =>
            intro h
            injection h with _ h
            exact hsingle (by rw [h]; rfl)
        | cons c cs =>
            have hc : c ≠ '\'' := fun h => hquote (h ▸ List.mem_cons_self)
            simp [hc]
      have hquoted : quoted cs ++ rest = '\'' :: (cs ++ '\'' :: rest) := by
        simp [quoted, hform]
      rw [hquoted, readQuoted_literal hshort, readLiteral_append hquote hline hcontrol]
  | lines =>
      have hquoted : quoted cs ++ rest = '"' :: '"' :: '"' ::
          ((if cs.contains '\n' then ['\n'] else []) ++
            (linesChars 0 cs ++ (List.replicate 3 '"' ++ rest))) := by
        simp [quoted, hform, List.replicate]
      rw [hquoted, readQuoted, dropBreak_start fun hline => head_linesChars hline rest]
      exact readLines_linesChars (by decide) hdouble
  | literalLines =>
      obtain ⟨hrun, hcontrol⟩ := literalLines_of_quoteForm hform
      have hquoted : quoted cs ++ rest = '\'' :: '\'' :: '\'' ::
          ((if cs.contains '\n' then ['\n'] else []) ++
            (cs ++ (List.replicate 3 '\'' ++ rest))) := by
        simp [quoted, hform, List.replicate]
      rw [hquoted, readQuoted, dropBreak_start fun hline => head_literalLines hline rest]
      exact readLiteralLines_append hrun hcontrol hsingle

/-! ## Characters of written strings -/

theorem Spells.return_not_mem {w : List Char} (h : Spells c w) : '\r' ∉ w := by
  cases h with
  | plain _ _ _ hcontrol =>
      rw [List.mem_singleton]
      rintro rfl
      cases hcontrol
  | escape d ds _ _ _ hreturn => exact List.not_mem_cons_of_ne_of_not_mem (by decide) hreturn

theorem return_not_mem_basicChars (cs : List Char) : '\r' ∉ basicChars cs := by
  intro h
  obtain ⟨c, -, hc⟩ := List.mem_flatMap.mp h
  split at hc
  · exact spells_doubleQuote.return_not_mem hc
  · exact spells_lineFeed.return_not_mem hc
  · rename_i hquote hline
    exact (spells_escaped hquote hline).return_not_mem hc

theorem return_not_mem_linesChars (run : Nat) (cs : List Char) : '\r' ∉ linesChars run cs := by
  induction cs generalizing run with
  | nil => exact List.not_mem_nil
  | cons c cs ih =>
      unfold linesChars
      split
      · rename_i hc
        subst hc
        split
        · exact List.not_mem_cons_of_ne_of_not_mem (by decide) (ih _)
        · exact List.not_mem_cons_of_ne_of_not_mem (by decide)
            (List.not_mem_cons_of_ne_of_not_mem (by decide) (ih 0))
      · rename_i hc
        split
        · rename_i hline
          subst hline
          exact List.not_mem_cons_of_ne_of_not_mem (by decide) (ih 0)
        · rename_i hline
          rw [List.mem_append, not_or]
          exact ⟨(spells_escaped hc hline).return_not_mem, ih 0⟩

theorem return_not_mem_of_control (h : ∀ c ∈ cs, isControl c = false) : '\r' ∉ cs :=
  fun hmem => Bool.noConfusion (h '\r' hmem)

/-- A written string holds no carriage return, which only an escape can stand for. -/
theorem return_not_mem_quoted (cs : List Char) : '\r' ∉ quoted cs := by
  cases hform : quoteForm cs with
  | basic => simp [quoted, hform, return_not_mem_basicChars]
  | lines =>
      by_cases hbroken : '\n' ∈ cs <;>
        simp [quoted, hform, hbroken, return_not_mem_linesChars]
  | literal =>
      have hreturn := return_not_mem_of_control (literal_of_quoteForm hform).2.2
      simp [quoted, hform, hreturn]
  | literalLines =>
      have hreturn := return_not_mem_of_control (literalLines_of_quoteForm hform).2
      by_cases hbroken : '\n' ∈ cs <;> simp [quoted, hform, hbroken, hreturn]

/-- A written string begins with the quote that tells how to read it. -/
theorem quoted_eq_cons (cs : List Char) :
    ∃ quote more, quoted cs = quote :: more ∧ (quote = '"' ∨ quote = '\'') := by
  have hhead : (quoted cs).head? = some '"' ∨ (quoted cs).head? = some '\'' := by
    cases hform : quoteForm cs with
    | basic => exact Or.inl (by simp [quoted, hform])
    | lines => exact Or.inl (by simp [quoted, hform])
    | literal => exact Or.inr (by simp [quoted, hform])
    | literalLines => exact Or.inr (by simp [quoted, hform])
  rcases hhead with hhead | hhead
  · obtain ⟨more, hmore⟩ := List.head?_eq_some_iff.mp hhead
    exact ⟨'"', more, hmore, Or.inl rfl⟩
  · obtain ⟨more, hmore⟩ := List.head?_eq_some_iff.mp hhead
    exact ⟨'\'', more, hmore, Or.inr rfl⟩

end BoundSql.Toml
