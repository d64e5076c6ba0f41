import BoundSql.Proofs.Toml.Document
import BoundSql.Toml.Annotation
import Mathlib.Data.List.Forall2

/-!
# What annotating adds

Annotating a document puts comment lines behind what stands in front of a statement, and does
nothing else: the statements stay, with their keys, values and order, and their lines get further
lines put between them.  A comment line begins with its sign and has no line break but its last
character, so a reader skips it, and an annotated document is read back as it is.

The documentation of a key is used up where the key is first introduced.  Whatever names no other
keys behind that place is left as it was.
-/

namespace BoundSql.Toml

variable {cs : List Char} {s t : Statement} {ss ts : List Statement}

/-! ## Comment lines -/

/-- The words of a comment: no line breaks and no control characters. -/
def Comment (line : String) : Prop := ∀ c ∈ line.toList, c ≠ '\n' ∧ isControl c = false

theorem commentLine_eq (line : String) :
    ∃ words, commentLine line = '#' :: (words ++ ['\n']) ∧
      ∀ c ∈ words, c = ' ' ∨ c ∈ line.toList := by
  unfold commentLine
  split
  · exact ⟨[], rfl, fun _ hc => nomatch hc⟩
  · exact ⟨' ' :: line.toList, rfl, fun c hc => List.mem_cons.mp hc⟩

theorem skipTrivia_comment (h : ∀ c ∈ cs, c ≠ '\n' ∧ isControl c = false) (rest : List Char) :
    skipTrivia true (cs ++ '\n' :: rest) = skipTrivia false rest := by
  induction cs with
  | nil => rfl
  | cons c cs ih =>
      obtain ⟨⟨hline, hcontrol⟩, hcs⟩ := List.forall_mem_cons.mp h
      rw [List.cons_append, skipTrivia, if_neg hline, if_neg (by simp [hcontrol]), if_pos rfl]
      exact ih hcs

theorem skippable_commentLine {line : String} (h : Comment line) :
    Skippable (commentLine line) := by
  obtain ⟨words, hwords, hmem⟩ := commentLine_eq line
  have hplain : ∀ c ∈ words, c ≠ '\n' ∧ isControl c = false := fun c hc => by
    rcases hmem c hc with rfl | hline
    · decide
    · exact h c hline
  rw [hwords]
  constructor
  · intro rest
    show skipTrivia true (words ++ ['\n'] ++ rest) = _
    rw [List.append_assoc]
    exact skipTrivia_comment hplain rest
  · have hreturn : '\r' ∉ words := fun hc => Bool.noConfusion (hplain '\r' hc).2
    simp [hreturn]

theorem skippable_flatMap_commentLine {lines : List String} (h : ∀ l ∈ lines, Comment l) :
    Skippable (lines.flatMap commentLine) := by
  induction lines with
  | nil => exact skippable_nil
  | cons line lines ih =>
      obtain ⟨hline, hlines⟩ := List.forall_mem_cons.mp h
      rw [List.flatMap_cons]
      exact (skippable_commentLine hline).append (ih hlines)

theorem mem_of_mem_splitOn {sep c : Char} {part : List Char} (hpart : part ∈ cs.splitOn sep)
    (hc : c ∈ part) : c ∈ cs ∧ c ≠ sep := by
  induction cs generalizing part with
  | nil =>
      rw [List.splitOn_nil, List.mem_singleton] at hpart
      subst hpart
      cases hc
  | cons d cs ih =>
      rw [List.splitOn_cons_eq_if_modifyHead] at hpart
      split at hpart
      · rcases List.mem_cons.mp hpart with rfl | hpart
        · cases hc
        · exact ⟨List.mem_cons_of_mem d (ih hpart hc).1, (ih hpart hc).2⟩
      · rename_i hd
        cases hsplit : cs.splitOn sep with
        | nil => exact absurd hsplit (List.splitOn_ne_nil sep cs)
        | cons first others =>
            rw [hsplit] at ih hpart
            rcases List.mem_cons.mp hpart with rfl | hpart
            · rcases List.mem_cons.mp hc with rfl | hc
              · exact ⟨List.mem_cons_self, by simpa using hd⟩
              · have := ih List.mem_cons_self hc
                exact ⟨List.mem_cons_of_mem d this.1, this.2⟩
            · have := ih (List.mem_cons_of_mem first hpart) hc
              exact ⟨List.mem_cons_of_mem d this.1, this.2⟩

/-- Documentation that can be written in comments. -/
def Printable (docs : String) : Prop := ∀ c ∈ docs.toList, isControl c = false

instance (docs : String) : Decidable (Printable docs) :=
  decidable_of_iff _ List.all_iff_forall_prop

/-- A line is a part between line feeds, perhaps without a carriage return at its end. -/
theorem exists_part_of_mem_lines {line : List Char} (h : line ∈ Text.linesOfChars cs) :
    ∃ part ∈ cs.splitOn '\n', ∀ c ∈ line, c ∈ part := by
  have hclosed {line : List Char}
      (h : line ∈ (cs.splitOn '\n').dropLast.map Text.dropCarriageReturn) :
      ∃ part ∈ cs.splitOn '\n', ∀ c ∈ line, c ∈ part := by
    obtain ⟨part, hpart, rfl⟩ := List.mem_map.mp h
    refine ⟨part, List.dropLast_subset _ hpart, fun c hc => ?_⟩
    unfold Text.dropCarriageReturn at hc
    split at hc
    · exact List.dropLast_subset _ hc
    · exact hc
  simp only [Text.linesOfChars] at h
  split at h
  · exact hclosed h
  · exact hclosed h
  · rename_i hlast
    rcases List.mem_append.mp h with h | h
    · exact hclosed h
    · rw [List.mem_singleton] at h
      subst h
      exact ⟨_, List.mem_of_getLast? hlast, fun _ hc => hc⟩

theorem comment_of_mem_lines {docs line : String} (h : Printable docs)
    (hline : line ∈ Text.lines docs) : Comment line := by
  obtain ⟨chars, hchars, rfl⟩ := List.mem_map.mp hline
  obtain ⟨part, hpart, hsub⟩ := exists_part_of_mem_lines hchars
  rw [Comment, String.toList_ofList]
  intro c hc
  obtain ⟨hmem, hne⟩ := mem_of_mem_splitOn hpart (hsub c hc)
  exact ⟨hne, h c hmem⟩

/-! ## Commented statements -/

/-- A statement with comment lines behind what stood in front of it. -/
def Statement.Commented (s t : Statement) : Prop :=
  ∃ lines : List String, (∀ l ∈ lines, Comment l) ∧
    t = { s with lead := s.lead ++ lines.flatMap commentLine }

namespace Statement

theorem Commented.refl (s : Statement) : s.Commented s :=
  ⟨[], fun _ h => absurd h List.not_mem_nil, by simp⟩

theorem Commented.trans {u : Statement} (h : s.Commented t) (h' : t.Commented u) :
    s.Commented u := by
  obtain ⟨lines, hlines, rfl⟩ := h
  obtain ⟨more, hmore, rfl⟩ := h'
  refine ⟨lines ++ more, fun l hl => ?_, by simp⟩
  rcases List.mem_append.mp hl with hl | hl
  · exact hlines l hl
  · exact hmore l hl

theorem Commented.clause_eq (h : s.Commented t) : t.clause = s.clause := by
  obtain ⟨lines, -, rfl⟩ := h
  rfl

theorem Commented.line (h : s.Commented t) (hs : s.Legible ∧ Skippable s.lead) :
    t.Legible ∧ Skippable t.lead := by
  obtain ⟨lines, hlines, rfl⟩ := h
  exact ⟨⟨hs.1.reads, hs.1.begins, hs.1.ret, hs.1.opening⟩,
    hs.2.append (skippable_flatMap_commentLine hlines)⟩

/-- What stands in front of a statement is made of whole lines. -/
def Closed (s : Statement) : Prop := s.lead = [] ∨ s.lead.getLast? = some '\n'

/-- A statement that is read back and stands on the next line or behind an empty one. -/
def Written (s : Statement) : Prop := s.Legible ∧ (s.lead = [] ∨ s.lead = ['\n'])

theorem Written.line (h : s.Written) : s.Legible ∧ Skippable s.lead := by
  refine ⟨h.1, ?_⟩
  rcases h.2 with hlead | hlead <;> rw [hlead]
  · exact skippable_nil
  · exact skippable_lineFeed

theorem Written.closed (h : s.Written) : s.Closed := by
  rcases h.2 with hlead | hlead
  · exact Or.inl hlead
  · exact Or.inr (by rw [hlead]; rfl)

theorem getLast?_commentLine (line : String) : (commentLine line).getLast? = some '\n' := by
  obtain ⟨words, hwords, -⟩ := commentLine_eq line
  rw [hwords, ← List.cons_append, List.getLast?_append]
  rfl

theorem Commented.closed (h : s.Commented t) (hs : s.Closed) : t.Closed := by
  obtain ⟨lines, -, rfl⟩ := h
  rcases List.eq_nil_or_concat lines with rfl | ⟨init, last, rfl⟩
  · simpa [Closed] using hs
  · refine Or.inr ?_
    simp [List.getLast?_append, getLast?_commentLine]

theorem Commented.comment {docs : String} (hs : s.Closed) (h : Printable docs) :
    s.Commented (s.comment docs) := by
  refine ⟨Text.lines docs, fun _ hl => comment_of_mem_lines h hl, ?_⟩
  have happend : appendComments s.lead docs = s.lead ++ commentLines docs := by
    unfold appendComments
    rcases hs with hs | hs
    · simp [hs]
    · simp [hs]
  rw [Statement.comment, happend]
  rfl

end Statement

/-! ## Commented keys -/

namespace Docs

def Printable (docs : Docs) : Prop := ∀ f ∈ docs.fields, Toml.Printable f.2

instance (docs : Docs) : Decidable docs.Printable := by
  unfold Printable
  infer_instance

theorem Printable.drop {docs : Docs} (h : docs.Printable) (field : String) :
    (docs.drop field).Printable := fun f hf => h f ((List.mem_filter.mp hf).1)

theorem Printable.of_field? {docs : Docs} (h : docs.Printable) {base path : List String}
    {f : String × String} (hf : docs.field? base path = some f) : Toml.Printable f.2 :=
  h f (List.mem_of_find?_eq_some hf)

/-- The documentation that is left describes no key that was not described before. -/
theorem field?_drop_eq_none {docs : Docs} {base path : List String}
    (h : docs.field? base path = none) (field : String) :
    (docs.drop field).field? base path = none := by
  refine List.find?_eq_none.mpr fun f hf => ?_
  exact List.find?_eq_none.mp h f ((List.mem_filter.mp hf).1)

/-- A key is described once. -/
theorem field?_drop_self {docs : Docs} {base path : List String} {f : String × String}
    (h : docs.field? base path = some f) : (docs.drop f.1).field? base path = none := by
  have hpath : base ++ [f.1] = path := by simpa using List.find?_some h
  refine List.find?_eq_none.mpr fun g hg hsame => ?_
  have hne : g.1 ≠ f.1 := by simpa using (List.mem_filter.mp hg).2
  have heq : base ++ [g.1] = base ++ [f.1] := by simpa [hpath] using hsame
  exact hne (by simpa using heq)

end Docs

/-- The keys that lead to what each of some statements introduces. -/
def targets (current : List Key) : List Statement → List (List String)
  | [] => []
  | s :: ss => s.clause.target current :: targets (s.clause.scope current) ss

/-- The current table behind some statements. -/
def scopeAfter (current : List Key) (ss : List Statement) : List Key :=
  ss.foldl (fun current s => s.clause.scope current) current

theorem targets_append (current : List Key) (ss ts : List Statement) :
    targets current (ss ++ ts) = targets current ss ++ targets (scopeAfter current ss) ts := by
  induction ss generalizing current with
  | nil => rfl
  | cons s ss ih => rw [List.cons_append, targets, ih]; rfl

/-- Documentation describes the keys of one table and nothing above or below it. -/
theorem Docs.field?_eq_none_of_length {docs : Docs} {base path : List String}
    (h : path.length ≠ base.length + 1) : docs.field? base path = none := by
  refine List.find?_eq_none.mpr fun f _ hf => h ?_
  have hpath : base ++ [f.1] = path := by simpa using hf
  rw [← hpath, List.length_append, List.length_singleton]

/-- Where no key is described nothing is changed. -/
theorem commentFields_eq_self {docs : Docs} {base : List String} {current : List Key}
    {ss : List Statement} (h : ∀ path ∈ targets current ss, docs.field? base path = none)
    (inElement : Bool) : commentFields docs base current inElement ss = ss := by
  induction ss generalizing current inElement with
  | nil => rfl
  | cons s ss ih =>
      obtain ⟨hs, hss⟩ := List.forall_mem_cons.mp h
      simp only [commentFields, hs, ih hss]
      split <;> rfl

section

variable {docs : Docs} (base : List String) (current : List Key) (inElement : Bool)

/-- One statement is commented, or left as it is if its key is not described; its key is then
used up. -/
theorem commentFields_cons {base : List String} {inElement : Bool} (hdocs : docs.Printable)
    (hs : s.Closed) (hgoes : (s.clause.isElement base && inElement) = false) :
    ∃ t left, s.Commented t ∧ left.Printable ∧
      (∀ path, docs.field? base path = none → Docs.field? left base path = none) ∧
      left.field? base (s.clause.target current) = none ∧
      ∀ rest, commentFields docs base current inElement (s :: rest) =
        t :: commentFields left base (s.clause.scope current)
          (s.clause.isElement base || inElement) rest := by
  cases hf : docs.field? base (s.clause.target current) with
  | none =>
      refine ⟨s, docs, .refl s, hdocs, fun _ h => h, hf, fun rest => ?_⟩
      simp [commentFields, hgoes, hf]
  | some f =>
      refine ⟨s.comment f.2, docs.drop f.1, .comment hs (hdocs.of_field? hf), hdocs.drop f.1,
        fun _ h => Docs.field?_drop_eq_none h f.1, Docs.field?_drop_self hf, fun rest => ?_⟩
      simp [commentFields, hgoes, hf]

/-- A second entry of an array is left as it is, and so is all behind it. -/
theorem commentFields_element {base : List String} (h : s.clause.isElement base = true)
    (docs : Docs) (current : List Key) (rest : List Statement) :
    commentFields docs base current true (s :: rest) = s :: rest := by
  simp [commentFields, h]

/-- What is done to the statements in front does not depend on those behind: the second entry of
an array ends the work, or it goes on with the documentation that is left. -/
theorem commentFields_append (hdocs : docs.Printable) (hss : ∀ s ∈ ss, s.Closed)
    (rest : List Statement) :
    ∃ ts, List.Forall₂ Statement.Commented ss ts ∧
      (commentFields docs base current inElement (ss ++ rest) = ts ++ rest ∨
        ∃ left, (∀ path, docs.field? base path = none → Docs.field? left base path = none) ∧
          (∀ path ∈ targets current ss, left.field? base path = none) ∧
          commentFields docs base current inElement (ss ++ rest) =
            ts ++ commentFields left base (scopeAfter current ss)
              (inElement || ss.any fun s => s.clause.isElement base) rest) := by
  induction ss generalizing docs current inElement with
  | nil =>
      refine ⟨[], .nil, Or.inr ⟨docs, fun _ h => h, fun _ h => absurd h List.not_mem_nil, ?_⟩⟩
      simp [scopeAfter]
  | cons s ss ih =>
      obtain ⟨hs, hss⟩ := List.forall_mem_cons.mp hss
      cases hgoes : s.clause.isElement base && inElement with
      | true =>
          have hsame : List.Forall₂ Statement.Commented (s :: ss) (s :: ss) :=
            List.forall₂_same.mpr fun _ _ => .refl _
          exact ⟨s :: ss, hsame, Or.inl (by simp [commentFields, hgoes])⟩
      | false =>
          obtain ⟨t, next, hcommented, hnext, hmono, hself, hstep⟩ :=
            commentFields_cons current hdocs hs hgoes
          obtain ⟨ts, hts, hends⟩ := ih (s.clause.scope current)
            (s.clause.isElement base || inElement) hnext hss
          refine ⟨t :: ts, .cons hcommented hts, ?_⟩
          rw [List.cons_append, hstep]
          rcases hends with hends | ⟨left, hleft, hused, hends⟩
          · exact Or.inl (by rw [hends]; rfl)
          · refine Or.inr ⟨left, fun path h => hleft path (hmono path h), ?_, ?_⟩
            · exact List.forall_mem_cons.mpr ⟨hleft _ hself, hused⟩
            · rw [hends, List.any_cons, Bool.or_comm (s.clause.isElement base), Bool.or_assoc]
              rfl

end

/-! ## Commented documents -/

/-- A text with further lines put between its lines. -/
inductive Interlined (P : List Char → Prop) : List Char → List Char → Prop where
  | nil : Interlined P [] []
  /-- Whole lines that both texts have. -/
  | shared {block cs ds : List Char} (whole : block.getLast? = some '\n')
      (rest : Interlined P cs ds) : Interlined P (block ++ cs) (block ++ ds)
  /-- A line that only the second text has. -/
  | added {line cs ds : List Char} (admitted : P line) (rest : Interlined P cs ds) :
      Interlined P cs (line ++ ds)

/-- A line that is a comment and nothing else. -/
def IsComment (line : List Char) : Prop :=
  ∃ words, line = '#' :: (words ++ ['\n']) ∧ '\n' ∉ words

theorem isComment_commentLine {line : String} (h : Comment line) :
    IsComment (commentLine line) := by
  obtain ⟨words, hwords, hmem⟩ := commentLine_eq line
  refine ⟨words, hwords, fun hline => ?_⟩
  rcases hmem '\n' hline with hspace | hline
  · exact absurd hspace (by decide)
  · exact (h '\n' hline).1 rfl

theorem Interlined.comments {lines : List String} (h : ∀ l ∈ lines, Comment l)
    {ds : List Char} (hrest : Interlined IsComment cs ds) :
    Interlined IsComment cs (lines.flatMap commentLine ++ ds) := by
  induction lines with
  | nil => exact hrest
  | cons line lines ih =>
      obtain ⟨hline, hlines⟩ := List.forall_mem_cons.mp h
      rw [List.flatMap_cons, List.append_assoc]
      exact .added (isComment_commentLine hline) (ih hlines)

/-- The text of commented statements is the text of the statements with comment lines between its
lines. -/
theorem interlined_of_commented (hlines : Lines ss) (hclosed : ∀ s ∈ ss, s.Closed)
    (h : List.Forall₂ Statement.Commented ss ts) :
    Interlined IsComment (Document.chars ⟨ss, []⟩) (Document.chars ⟨ts, []⟩) := by
  unfold Document.chars
  rw [List.append_nil, List.append_nil]
  induction h with
  | nil => exact .nil
  | @cons s t ss ts hcommented hrest ih =>
      obtain ⟨⟨hs, -⟩, hss⟩ := List.forall_mem_cons.mp hlines
      obtain ⟨hlead, hclosed⟩ := List.forall_mem_cons.mp hclosed
      obtain ⟨lines, hcomments, rfl⟩ := hcommented
      have hbody : (s.clause.chars ++ (s.tail ++ ['\n'])).getLast? = some '\n' := by simp
      have hbehind := (Interlined.shared hbody (ih hss hclosed)).comments hcomments
      have hplain : Statement.opening s = s.lead := hs.opening s.lead
      have hlonger := hs.opening (s.lead ++ lines.flatMap commentLine)
      simp only [List.flatMap_cons, Statement.chars, hplain, hlonger, List.append_assoc]
        at hbehind ⊢
      rcases hlead with hnil | hbreak
      · rwa [hnil]
      · exact .shared hbreak hbehind

/-- Commented statements say what the statements say. -/
theorem clauses_of_commented (h : List.Forall₂ Statement.Commented ss ts) :
    ts.map Statement.clause = ss.map Statement.clause := by
  induction h with
  | nil => rfl
  | cons hcommented _ ih => rw [List.map_cons, List.map_cons, ih, hcommented.clause_eq]

theorem commented_trans {us : List Statement} (h : List.Forall₂ Statement.Commented ss ts)
    (h' : List.Forall₂ Statement.Commented ts us) : List.Forall₂ Statement.Commented ss us := by
  induction h generalizing us with
  | nil => exact h'
  | cons hcommented _ ih =>
      cases h' with
      | cons hmore hrest => exact .cons (hcommented.trans hmore) (ih hrest)

theorem closed_of_commented (h : List.Forall₂ Statement.Commented ss ts)
    (hss : ∀ s ∈ ss, s.Closed) : ∀ t ∈ ts, t.Closed := by
  induction h with
  | nil => exact hss
  | cons hcommented _ ih =>
      obtain ⟨hs, hss⟩ := List.forall_mem_cons.mp hss
      exact List.forall_mem_cons.mpr ⟨hcommented.closed hs, ih hss⟩

theorem lines_of_commented (h : List.Forall₂ Statement.Commented ss ts) (hss : Lines ss) :
    Lines ts := by
  induction h with
  | nil => exact hss
  | cons hcommented _ ih =>
      obtain ⟨hs, hss⟩ := List.forall_mem_cons.mp hss
      exact List.forall_mem_cons.mpr ⟨hcommented.line hs, ih hss⟩

end BoundSql.Toml
