import BoundSql.Proofs.Sql.Name
import BoundSql.Proofs.Toml.Quoted
import BoundSql.Toml.Writer
import Mathlib.Data.Bool.AllAny

/-!
# Written values read back

Texts, numbers and arrays of texts are read back as the values that were written, character for
character: a reader takes exactly what the writer wrote and leaves the line end, comma or bracket
behind it.
-/

namespace BoundSql

/-! ## Digits -/

theorem Json.digitsValue_toDigits (n : Nat) : digitsValue (Nat.toDigits 10 n) = n := by
  have hcommutes : digitsValue (Nat.toDigits 10 n) = Nat.ofDigitChars 10 (Nat.toDigits 10 n) 0 := by
    unfold digitsValue Nat.ofDigitChars
    simp only [Nat.mul_comm]
  rw [hcommutes, Nat.ofDigitChars_ten_toDigits]

/-- Only zero is written with a zero in front. -/
theorem head_toDigits {n : Nat} (hn : 0 < n) : (Nat.toDigits 10 n).head? ≠ some '0' := by
  induction n using Nat.strongRecOn with
  | ind n ih =>
      rw [Nat.toDigits_eq_if (by decide)]
      split
      · rename_i hsmall
        have hdigits : ∀ d < 10, 0 < d → [Nat.digitChar d].head? ≠ some '0' := by decide
        exact hdigits n hsmall hn
      · rename_i hlarge
        have hne : Nat.toDigits 10 (n / 10) ≠ [] := Nat.toDigits_ne_nil
        rw [List.head?_append, Option.or_of_isSome (List.isSome_head?.mpr hne)]
        exact ih (n / 10) (by omega) (by omega)

namespace Toml

variable {c : Char} {cs rest : List Char}

theorem consumed_append (cs rest : List Char) : consumed rest (cs ++ rest) = cs := by
  rw [consumed, List.length_append, Nat.add_sub_cancel, List.take_left]

/-- The ten decimal digits. -/
def decimalDigits : List Char := ['0', '1', '2', '3', '4', '5', '6', '7', '8', '9']

theorem mem_decimalDigits (h : c.isDigit = true) : c ∈ decimalDigits := by
  have hall : ∀ n < 58, 48 ≤ n → Char.ofNat n ∈ decimalDigits := by decide
  simp only [Char.isDigit, Bool.and_eq_true, decide_eq_true_eq] at h
  have hmem := hall c.toNat (Nat.lt_succ_of_le h.2) h.1
  rwa [Char.ofNat_toNat] at hmem

/-- What holds of the ten digits holds of every character of a written number. -/
theorem forall_mem_toDigits {P : Char → Prop} (h : ∀ c ∈ decimalDigits, P c) (n : Nat) :
    ∀ c ∈ Nat.toDigits 10 n, P c := fun c hc =>
  h c (mem_decimalDigits (Nat.isDigit_of_mem_toDigits (by decide) (by decide) hc))

theorem not_mem_toDigits (h : c ∉ decimalDigits) (n : Nat) : c ∉ Nat.toDigits 10 n := fun hc =>
  h (forall_mem_toDigits (P := (· ∈ decimalDigits)) (fun _ hd => hd) n c hc)

/-! ## Dates and times -/

theorem suffix_of_twoDigits? {n : Nat} (h : twoDigits? cs = some (n, rest)) : rest <:+ cs := by
  unfold twoDigits? at h
  split at h
  · split at h
    · cases h
      exact ⟨[_, _], rfl⟩
    · cases h
  · cases h

theorem mem_of_expectChar {d : Char} (h : expectChar d cs = some rest) : d ∈ cs := by
  unfold expectChar at h
  split at h
  · split at h
    · rename_i hd
      exact hd ▸ List.mem_cons_self
    · cases h
  · cases h

/-- A date has a hyphen. -/
theorem mem_of_dropDate (h : dropDate cs = some rest) : '-' ∈ cs := by
  simp only [dropDate, bind, Option.bind_eq_some_iff, Prod.exists] at h
  obtain ⟨_, years, hyears, _, month, hmonth, behind, hhyphen, -⟩ := h
  have hsuffix := (suffix_of_twoDigits? hmonth).trans (suffix_of_twoDigits? hyears)
  exact hsuffix.subset (mem_of_expectChar hhyphen)

/-- A time has a colon. -/
theorem mem_of_dropClock (h : dropClock cs = some rest) : ':' ∈ cs := by
  simp only [dropClock, bind, Option.bind_eq_some_iff, Prod.exists] at h
  obtain ⟨_, minute, hhour, behind, hcolon, -⟩ := h
  exact (suffix_of_twoDigits? hhour).subset (mem_of_expectChar hcolon)

theorem dropDate_toDigits (n : Nat) : dropDate (Nat.toDigits 10 n) = none :=
  Option.eq_none_iff_forall_ne_some.mpr fun _ h =>
    not_mem_toDigits (by decide) n (mem_of_dropDate h)

theorem isMoment_toDigits (n : Nat) : isMoment (Nat.toDigits 10 n) = false := by
  have hclock : dropClock (Nat.toDigits 10 n) = none :=
    Option.eq_none_iff_forall_ne_some.mpr fun _ h =>
      not_mem_toDigits (by decide) n (mem_of_dropClock h)
  rw [isMoment, dropDate_toDigits]
  simp [dropTime, hclock]

/-! ## Numbers -/

theorem digits?_toDigits (n : Nat) :
    digits? Char.isDigit (Nat.toDigits 10 n) = some (Nat.toDigits 10 n) := by
  have hsingle : (Nat.toDigits 10 n).splitOn '_' = [Nat.toDigits 10 n] :=
    List.splitOn_eq_singleton (not_mem_toDigits (by decide) n)
  have hdigits : ∀ c ∈ Nat.toDigits 10 n, c.isDigit = true := fun c hc =>
    Nat.isDigit_of_mem_toDigits (by decide) (by decide) hc
  rw [digits?, hsingle, if_pos]
  · simp
  · simpa [Nat.toDigits_ne_nil] using hdigits

theorem int?_toDigits (n : Nat) : int? (Nat.toDigits 10 n) = some (n : Int) := by
  by_cases hn : n = 0
  · subst hn
    decide
  have hhead := head_toDigits (Nat.pos_of_ne_zero hn)
  have hdigits := digits?_toDigits n
  have hminus : '-' ∉ Nat.toDigits 10 n := not_mem_toDigits (by decide) n
  have hplus : '+' ∉ Nat.toDigits 10 n := not_mem_toDigits (by decide) n
  have hvalue := Json.digitsValue_toDigits n
  obtain ⟨d, ds, hcons⟩ := List.exists_cons_of_ne_nil (Nat.toDigits_ne_nil (b := 10) (n := n))
  rw [hcons] at hhead hdigits hminus hplus hvalue ⊢
  have hd : d ≠ '0' := by simpa using hhead
  have hsign : splitSign (d :: ds) = (none, d :: ds) := by
    unfold splitSign
    split
    · rename_i hcs
      exact absurd (hcs ▸ List.mem_cons_self) hminus
    · rename_i hcs
      exact absurd (hcs ▸ List.mem_cons_self) hplus
    · rfl
  have hwhole : wholeDigits? (d :: ds) = some (d :: ds) := by
    rw [wholeDigits?, hdigits]
    simp only [bind, Option.bind_some]
    split
    · rename_i hcs
      cases hcs
      exact absurd rfl hd
    · rfl
  unfold int?
  split
  · rename_i hcs
    cases hcs
    exact absurd rfl hd
  · simp [hsign, hwhole, hvalue]

theorem scalar?_toDigits (n : Nat) : scalar? (Nat.toDigits 10 n) = some (.int n) := by
  have hletter {w : List Char} (h : 'e' ∈ w) : Nat.toDigits 10 n ≠ w := by
    rintro rfl
    exact not_mem_toDigits (by decide) n h
  rw [scalar?, if_neg (hletter (by decide)), if_neg (hletter (by decide)), isMoment_toDigits,
    int?_toDigits]
  rfl

/-! ## Values in front of what follows them -/

/-- What may stand behind a written value. -/
def Delimits (c : Char) : Prop := c = '\n' ∨ c = ',' ∨ c = ']'

/-- A value that is read with the characters it was written with, whatever follows the
delimiter. -/
structure Spelled.Legible (depth : Nat) (s : Spelled) : Prop where
  reads : ∀ c rest, Delimits c → readValue depth (s.chars ++ c :: rest) = some (s, c :: rest)
  start : ∃ c cs, s.chars = c :: cs ∧ isSpace c = false
  ret : '\r' ∉ s.chars

theorem readScalar_repr (n : Nat) (hc : Delimits c) (rest : List Char) :
    readScalar (n.repr.toList ++ c :: rest) = some (.int n, c :: rest) := by
  have hscalar : ∀ d ∈ Nat.toDigits 10 n, isScalarChar d = true :=
    forall_mem_toDigits (List.all_iff_forall_prop.mp (by decide)) n
  have hstop : isScalarChar c = false ∧ c ≠ ' ' := by
    rcases hc with rfl | rfl | rfl <;> decide
  have htake : (Nat.toDigits 10 n ++ c :: rest).takeWhile isScalarChar = Nat.toDigits 10 n := by
    rw [List.takeWhile_append_of_pos hscalar, List.takeWhile_cons_of_neg (by simp [hstop.1]),
      List.append_nil]
  have hdrop : (Nat.toDigits 10 n ++ c :: rest).dropWhile isScalarChar = c :: rest := by
    rw [List.dropWhile_append_of_pos hscalar, List.dropWhile_cons_of_neg (by simp [hstop.1])]
  rw [Nat.toList_repr, readScalar, htake, hdrop, dropDate_toDigits, scalar?_toDigits]
  rfl

theorem readValue_scalar (h : c ∉ ['[', '\x7b', '"', '\'']) (depth : Nat) (cs : List Char) :
    readValue depth (c :: cs) = (readScalar (c :: cs)).map (spelled (c :: cs)) := by
  unfold readValue
  split
  · rename_i hcs
    cases hcs
    exact absurd (by decide) h
  · rename_i hcs
    cases hcs
    exact absurd (by decide) h
  · rename_i hcs
    cases hcs
    exact absurd (by decide) h
  · rename_i hcs
    cases hcs
    exact absurd (by decide) h
  · rfl

theorem legible_count (depth n : Nat) : Spelled.Legible depth ⟨.int n, n.repr.toList⟩ := by
  obtain ⟨d, ds, hcons⟩ := List.exists_cons_of_ne_nil (Nat.toDigits_ne_nil (b := 10) (n := n))
  have hd : d ∉ ['[', '\x7b', '"', '\''] ∧ isSpace d = false :=
    forall_mem_toDigits (P := fun d => d ∉ ['[', '\x7b', '"', '\''] ∧ isSpace d = false)
      (List.all_iff_forall_prop.mp (by decide)) n d (hcons ▸ List.mem_cons_self)
  have hrepr : n.repr.toList = d :: ds := by rw [Nat.toList_repr, hcons]
  refine ⟨fun c rest hc => ?_, ⟨d, ds, hrepr, hd.2⟩, ?_⟩
  · have hread := readScalar_repr n hc rest
    have hconsumed := consumed_append n.repr.toList (c :: rest)
    rw [hrepr, List.cons_append] at hread hconsumed
    show readValue depth (n.repr.toList ++ c :: rest) = some (⟨.int n, n.repr.toList⟩, c :: rest)
    rw [hrepr, List.cons_append, readValue_scalar hd.1, hread, Option.map_some, spelled, hconsumed]
  · show '\r' ∉ n.repr.toList
    rw [Nat.toList_repr]
    exact not_mem_toDigits (by decide) n

theorem readValue_quote (h : c = '"' ∨ c = '\'') (depth : Nat) (cs : List Char) :
    readValue depth (c :: cs) = (readQuoted (c :: cs)).map fun p =>
      spelled (c :: cs) (.str (String.ofList p.1), p.2) := by
  rcases h with rfl | rfl
  · exact readValue.eq_def depth _
  · exact readValue.eq_def depth _

theorem legible_text (depth : Nat) (s : String) :
    Spelled.Legible depth ⟨.str s, quoted s.toList⟩ := by
  obtain ⟨quote, more, hcons, hquote⟩ := quoted_eq_cons s.toList
  have hspace : isSpace quote = false := by rcases hquote with rfl | rfl <;> rfl
  refine ⟨fun c rest hc => ?_, ⟨quote, more, hcons, hspace⟩, return_not_mem_quoted s.toList⟩
  have hdouble : (c :: rest).head? ≠ some '"' := by
    rcases hc with rfl | rfl | rfl <;> simp
  have hsingle : (c :: rest).head? ≠ some '\'' := by
    rcases hc with rfl | rfl | rfl <;> simp
  have hread := readQuoted_quoted s.toList hdouble hsingle
  have hconsumed := consumed_append (quoted s.toList) (c :: rest)
  rw [hcons, List.cons_append] at hread hconsumed
  show readValue depth (quoted s.toList ++ c :: rest) = some (⟨.str s, quoted s.toList⟩, c :: rest)
  rw [hcons, List.cons_append, readValue_quote hquote, hread, Option.map_some, spelled, hconsumed,
    String.ofList_toList]

/-! ## Arrays -/

theorem skipTrivia_of_quote (h : c = '"' ∨ c = '\'') (rest : List Char) :
    skipTrivia false (c :: rest) = some (c :: rest) := by
  rcases h with rfl | rfl <;> rfl

/-- A text of an array with what stands in front of it. -/
def lineItem (lead : List Char) (s : String) : Item Spelled :=
  ⟨lead, ⟨.str s, quoted s.toList⟩, []⟩

/-- The break and the space in front of a text on a line of its own. -/
def lineStart : List Char := ['\n', ' ', ' ', ' ', ' ']

/-- Texts on lines of their own. -/
def lineItems (ss : List String) : Items Spelled where
  items := ss.map (lineItem lineStart)
  closing := if ss.isEmpty then ['\n'] else [',', '\n']

/-- One text of an array is read, and then what its delimiter asks for. -/
theorem readItems_item (lead next : List Char) {d : Char} (depth bound : Nat) (s : String)
    (hlead : ∀ more, skipTrivia false (lead ++ more) = skipTrivia false more)
    (hd : d = ',' ∨ d = ']') :
    readItems (readValue depth) ']' (bound + 1) (lead ++ (quoted s.toList ++ d :: next)) =
      if d = ',' then
        (readItems (readValue depth) ']' bound next).map fun p =>
          (p.1.under (lineItem lead s), p.2)
      else some (⟨[lineItem lead s], []⟩, next) := by
  have hread := (legible_text depth s).reads d next (Or.inr hd)
  have hlead' := consumed_append lead (quoted s.toList ++ d :: next)
  obtain ⟨quote, more, hcons, hquote⟩ := quoted_eq_cons s.toList
  have hopen : quote ≠ ']' := by rcases hquote with rfl | rfl <;> decide
  have hnext : skipTrivia false (d :: next) = some (d :: next) := by
    rcases hd with rfl | rfl <;> rfl
  have hempty : consumed (d :: next) (d :: next) = [] := consumed_append [] (d :: next)
  have hitem : lineItem lead s = ⟨lead, ⟨.str s, quote :: more⟩, []⟩ := by rw [lineItem, hcons]
  rw [hcons, List.cons_append] at hread hlead' ⊢
  rw [hitem, readItems, hlead, skipTrivia_of_quote hquote]
  simp only [bind, Option.bind_some, if_neg hopen, hread, hnext, hlead', hempty]
  rcases hd with rfl | rfl
  · rw [if_pos rfl]
    show (readItems (readValue depth) ']' bound next).bind _ = _
    cases readItems (readValue depth) ']' bound next <;> rfl
  · rfl

theorem under_lineItems (s : String) (ss : List String) :
    (lineItems ss).under (lineItem lineStart s) = lineItems (s :: ss) := by
  cases ss <;> rfl

theorem skipTrivia_lineStart (cs : List Char) :
    skipTrivia false (lineStart ++ cs) = skipTrivia false cs := rfl

/-- The break behind one line is the one in front of the next. -/
theorem readItems_lines (depth : Nat) (ss : List String) {bound : Nat} (h : ss.length < bound)
    (rest : List Char) :
    readItems (readValue depth) ']' bound ('\n' :: (ss.flatMap itemLine ++ ']' :: rest)) =
      some (lineItems ss, rest) := by
  induction ss generalizing bound with
  | nil =>
      obtain ⟨bound, rfl⟩ := Nat.exists_eq_add_of_lt h
      have hlead : consumed (']' :: rest) ('\n' :: ']' :: rest) = ['\n'] :=
        consumed_append ['\n'] (']' :: rest)
      show readItems (readValue depth) ']' _ ('\n' :: ']' :: rest) = _
      rw [readItems]
      simp [skipTrivia, hlead, lineItems, isControl, isSpace]
  | cons s ss ih =>
      obtain ⟨bound, rfl⟩ : ∃ n, bound = n + 1 := ⟨bound - 1, by omega⟩
      have hline : '\n' :: ((s :: ss).flatMap itemLine ++ ']' :: rest) =
          lineStart ++ (quoted s.toList ++ ',' ::
            ('\n' :: (ss.flatMap itemLine ++ ']' :: rest))) := by
        simp [itemLine, lineStart]
      rw [hline, readItems_item _ _ depth bound s skipTrivia_lineStart (Or.inl rfl), if_pos rfl,
        ih (by simpa using h), Option.map_some, under_lineItems]

theorem listChars_lineItems (ss : List String) :
    listChars ((lineItems ss).items.map fun i => i.lead ++ i.item.chars ++ i.tail)
      (lineItems ss).closing = '\n' :: ss.flatMap itemLine := by
  induction ss with
  | nil => rfl
  | cons s ss ih =>
      cases ss with
      | nil => simp [lineItems, lineItem, lineStart, listChars, itemLine]
      | cons t ss =>
          simp only [lineItems, List.map_cons, List.isEmpty_cons, Bool.false_eq_true, if_false,
            listChars, List.intercalate_cons_cons, List.append_assoc] at ih ⊢
          rw [ih]
          simp [lineItem, lineStart, itemLine]

theorem le_length_flatMap_itemLine (ss : List String) :
    ss.length ≤ (ss.flatMap itemLine).length := by
  induction ss with
  | nil => exact Nat.le_refl 0
  | cons s ss ih =>
      have hline : 1 ≤ (itemLine s).length := by simp [itemLine]
      rw [List.flatMap_cons, List.length_append, List.length_cons]
      omega

theorem readValue_array (depth : Nat) (cs : List Char) :
    readValue (depth + 1) ('[' :: cs) =
      (readItems (readValue depth) ']' (cs.length + 1) cs).map fun p => (.array p.1, p.2) := by
  refine (readValue.eq_def (depth + 1) ('[' :: cs)).trans ?_
  show (readItems (readValue depth) ']' (cs.length + 1) cs).bind _ = _
  cases readItems (readValue depth) ']' (cs.length + 1) cs <;> rfl

theorem readValue_arrayChars (depth : Nat) (ss : List String) (c : Char) (rest : List Char) :
    readValue (depth + 1) (arrayChars ss ++ c :: rest) =
      some (⟨.arr false (ss.map .str), arrayChars ss⟩, c :: rest) := by
  match ss with
  | [] =>
      have hlead : consumed (']' :: c :: rest) (']' :: c :: rest) = [] :=
        consumed_append [] (']' :: c :: rest)
      have hitems : readItems (readValue depth) ']' ((']' :: c :: rest).length + 1)
          (']' :: c :: rest) = some (⟨[], []⟩, c :: rest) := by
        simp [readItems, skipTrivia, hlead, isControl, isSpace]
      exact (readValue_array depth (']' :: c :: rest)).trans (by rw [hitems]; rfl)
  | [s] =>
      have hitems := readItems_item [] (c :: rest) depth
        (quoted s.toList ++ ']' :: c :: rest).length s (fun _ => rfl) (Or.inr rfl)
      rw [List.nil_append] at hitems
      have hchars : arrayChars [s] ++ c :: rest = '[' :: (quoted s.toList ++ ']' :: c :: rest) := by
        simp [arrayChars]
      rw [hchars, readValue_array, hitems]
      simp [Spelled.array, lineItem, listChars, arrayChars]
  | s :: t :: ss =>
      have hbound : (s :: t :: ss).length <
          ('\n' :: ((s :: t :: ss).flatMap itemLine ++ ']' :: c :: rest)).length + 1 := by
        have := le_length_flatMap_itemLine (s :: t :: ss)
        rw [List.length_cons (a := '\n'), List.length_append]
        omega
      have hitems := readItems_lines depth (s :: t :: ss) hbound (c :: rest)
      have hchars : arrayChars (s :: t :: ss) ++ c :: rest =
          '[' :: '\n' :: ((s :: t :: ss).flatMap itemLine ++ ']' :: c :: rest) := by
        simp [arrayChars]
      have hspelled : Spelled.array (lineItems (s :: t :: ss)) =
          ⟨.arr false ((s :: t :: ss).map .str), arrayChars (s :: t :: ss)⟩ := by
        rw [Spelled.array, listChars_lineItems]
        simp [lineItems, lineItem, arrayChars]
      rw [hchars, readValue_array, hitems, Option.map_some, hspelled]

theorem arrayChars_eq_cons (ss : List String) : ∃ cs, arrayChars ss = '[' :: cs := by
  match ss with
  | [] => exact ⟨_, rfl⟩
  | [s] => exact ⟨_, rfl⟩
  | s :: t :: ss => exact ⟨_, rfl⟩

theorem return_not_mem_arrayChars (ss : List String) : '\r' ∉ arrayChars ss := by
  match ss with
  | [] => decide
  | [s] => simp [arrayChars, return_not_mem_quoted]
  | s :: t :: ss => simp [arrayChars, itemLine, return_not_mem_quoted]

theorem legible_texts (depth : Nat) (ss : List String) :
    Spelled.Legible (depth + 1) ⟨.arr false (ss.map .str), arrayChars ss⟩ where
  reads c rest _ := readValue_arrayChars depth ss c rest
  start := by
    obtain ⟨cs, hcs⟩ := arrayChars_eq_cons ss
    exact ⟨'[', cs, hcs, rfl⟩
  ret := return_not_mem_arrayChars ss

end Toml

end BoundSql
