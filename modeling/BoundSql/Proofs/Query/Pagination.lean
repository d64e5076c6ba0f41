import BoundSql.Proofs.Sql.Number
import BoundSql.Proofs.Trace.Outcome
import BoundSql.Query.Page
import Mathlib.Algebra.Order.Group.Nat
import Mathlib.Logic.ExistsUnique

/-!
# Pages

Pages of one size lie behind one another.  The first starts at the first row, each starts where the
one before it ends, and every row with a number below the largest word of sixty-four bits lies on
exactly one page that can be requested.  A page cannot be requested if the number of rows before it
does not fit a word, even if its own number and size do.

The clause for a page has the row count and the number of skipped rows in the order of the dialect,
and no other number.
-/

namespace BoundSql

/-! ## Windows -/

/-- Whether a row, counted from zero, lies in a window. -/
def Window.Covers (w : Window) (row : Nat) : Prop := w.offset ≤ row ∧ row < w.offset + w.limit

namespace Page

/-- The page with a number and a size that are words. -/
def ofWords (number size : UInt64) : Page := ⟨number.toNat, size.toNat⟩

/-- The rows of a page, if all rows before it are on pages of the same size. -/
def span (p : Page) : Window := ⟨p.size, (p.number - 1) * p.size⟩

/-- A page that can be requested where pages have at most so many rows. -/
structure Valid (p : Page) (maximum : Nat) : Prop where
  number_pos : 1 ≤ p.number
  size_pos : 1 ≤ p.size
  size_le : p.size ≤ maximum
  /-- The number of rows before the page, taken exactly, is a word. -/
  offset_lt : (p.number - 1) * p.size < 2 ^ 64

variable {p : Page} {maximum : Nat} {w : Window} {row : Nat}

theorem window_eq_ok_iff : p.window maximum = .ok w ↔ p.Valid maximum ∧ w = p.span := by
  unfold window
  split
  · rename_i hnumber
    refine iff_of_false (fun h => nomatch h) fun h => ?_
    exact absurd h.1.number_pos (Nat.not_le.mpr hnumber)
  split
  · rename_i hsize
    refine iff_of_false (fun h => nomatch h) fun h => ?_
    rcases hsize with hsize | hsize
    · exact absurd h.1.size_pos (Nat.not_le.mpr hsize)
    · exact absurd h.1.size_le (Nat.not_le.mpr hsize)
  split
  · rename_i hoffset
    refine iff_of_false (fun h => nomatch h) fun h => ?_
    exact absurd h.1.offset_lt (Nat.not_lt.mpr hoffset)
  · rename_i hnumber hsize hoffset
    have hvalid : p.Valid maximum :=
      ⟨by omega, by omega, by omega, Nat.not_le.mp hoffset⟩
    rw [and_iff_right hvalid, Except.ok.injEq, eq_comm]
    rfl

/-- In words, the number of rows before a page does not wrap around. -/
theorem Valid.toNat_offset {number size : UInt64} (h : (ofWords number size).Valid maximum) :
    ((number - 1) * size).toNat = (number.toNat - 1) * size.toNat := by
  have hone : (1 : UInt64) ≤ number := UInt64.le_iff_toNat_le.mpr h.number_pos
  have hlt : (number.toNat - 1) * size.toNat < 2 ^ 64 := h.offset_lt
  rw [UInt64.toNat_mul, UInt64.toNat_sub_of_le _ _ hone]
  exact Nat.mod_eq_of_lt hlt

/-! ## The page of a row -/

/-- A row lies on the page whose number is by one larger than the number of full pages before. -/
theorem covers_span_iff (hnumber : 1 ≤ p.number) (hsize : 1 ≤ p.size) :
    p.span.Covers row ↔ p.number = row / p.size + 1 := by
  have hdiv : row / p.size = p.number - 1 ↔ p.span.Covers row := by
    rw [Nat.div_eq_iff hsize]
    show _ ↔ (p.number - 1) * p.size ≤ row ∧ row < (p.number - 1) * p.size + p.size
    omega
  rw [← hdiv]
  omega

/-- The page of a row that is small enough can be requested. -/
theorem valid_of_row {size : Nat} (hsize : 1 ≤ size) (hmaximum : size ≤ maximum)
    (hrow : row < 2 ^ 64) : Valid ⟨row / size + 1, size⟩ maximum where
  number_pos := Nat.le_add_left 1 _
  size_pos := hsize
  size_le := hmaximum
  offset_lt := Nat.lt_of_le_of_lt (Nat.div_mul_le_self row size) hrow

/-- How the pages of one size cut the rows. -/
structure Tiles (size : UInt64) (maximum : Nat) : Prop where
  first : (ofWords 1 size).window maximum = .ok ⟨size.toNat, 0⟩
  next : ∀ number following : UInt64, following.toNat = number.toNat + 1 → ∀ w w',
    (ofWords number size).window maximum = .ok w →
    (ofWords following size).window maximum = .ok w' → w'.offset = w.offset + w.limit
  covered : ∀ row < 2 ^ 64 - 1,
    ∃! number : UInt64, ∃ w, (ofWords number size).window maximum = .ok w ∧ w.Covers row

theorem tiles {size : UInt64} (hsize : 1 ≤ size.toNat) (hmaximum : size.toNat ≤ maximum) :
    Tiles size maximum where
  first := by
    refine window_eq_ok_iff.mpr ⟨⟨Nat.le_refl 1, hsize, hmaximum, ?_⟩, ?_⟩
    · exact Nat.lt_of_le_of_lt (Nat.le_of_eq (Nat.zero_mul _)) (by decide)
    · exact congrArg (Window.mk size.toNat) (Nat.zero_mul _).symm
  next := by
    intro number following hnumber w w' hw hw'
    obtain ⟨hvalid, rfl⟩ := window_eq_ok_iff.mp hw
    obtain ⟨-, rfl⟩ := window_eq_ok_iff.mp hw'
    have hpos : 1 ≤ number.toNat := hvalid.number_pos
    show (following.toNat - 1) * size.toNat = (number.toNat - 1) * size.toNat + size.toNat
    rw [hnumber, ← Nat.succ_mul]
    congr 1
    omega
  covered := by
    intro row hrow
    have hquotient : row / size.toNat ≤ row := Nat.div_le_self row _
    have hnumber : (UInt64.ofNat (row / size.toNat + 1)).toNat = row / size.toNat + 1 :=
      UInt64.toNat_ofNat_of_lt' (by show _ < 2 ^ 64; omega)
    refine ⟨UInt64.ofNat (row / size.toNat + 1), ⟨_, window_eq_ok_iff.mpr ⟨?_, rfl⟩, ?_⟩, ?_⟩
    · rw [ofWords, hnumber]
      exact valid_of_row hsize hmaximum (by omega)
    · refine (covers_span_iff ?_ hsize).mpr hnumber
      show 1 ≤ (UInt64.ofNat (row / size.toNat + 1)).toNat
      rw [hnumber]
      exact Nat.le_add_left 1 _
    · rintro number ⟨w, hw, hcovers⟩
      obtain ⟨hvalid, rfl⟩ := window_eq_ok_iff.mp hw
      have hpage : number.toNat = row / size.toNat + 1 :=
        (covers_span_iff hvalid.number_pos hvalid.size_pos).mp hcovers
      rw [← hpage, UInt64.ofNat_toNat]

end Page

/-! ## Clauses -/

namespace PaginationStyle

/-- The pieces that request a window. -/
def pieces : PaginationStyle → Window → List Piece
  | .limitOffset, w => w.limitOffset
  | .offsetFetch, w => w.offsetFetch

/-- The text that requests a window. -/
def text : PaginationStyle → Window → String
  | .limitOffset, w => "LIMIT " ++ w.limit.repr ++ " OFFSET " ++ w.offset.repr
  | .offsetFetch, w =>
      "OFFSET " ++ w.offset.repr ++ " ROWS FETCH NEXT " ++ w.limit.repr ++ " ROWS ONLY"

/-- The two numbers of a window in the order of the text. -/
def numbers : PaginationStyle → Window → List Nat
  | .limitOffset, w => [w.limit, w.offset]
  | .offsetFetch, w => [w.offset, w.limit]

variable (style : PaginationStyle) (w : Window)

theorem text_pieces : String.ofList ((style.pieces w).flatMap Piece.chars) = style.text w := by
  apply String.ext
  cases style <;>
    simp [pieces, text, Window.limitOffset, Window.offsetFetch, Piece.chars, Word.chars, Word.text]

theorem parted_pieces : Piece.Parted (style.pieces w) := by
  cases style with
  | limitOffset => exact .word _ (.word _ (.number _ _ (.word _ (.word _ (.last _)))))
  | offsetFetch =>
      exact .word _ (.word _ (.number _ _ (.word _ (.word _ (.word _ (.word _
        (.number _ _ (.word _ .nil))))))))

theorem numbers_text : Text.numbers (style.text w) = style.numbers w := by
  rw [← text_pieces, (parted_pieces style w).numbers]
  cases style <;> rfl

end PaginationStyle

namespace Options

variable {o : Options} {p : Page} {ordered : Bool} {f : Fragment}

theorem buildPagination_eq_ok_iff :
    o.buildPagination p ordered = .ok f ↔
      p.Valid o.maxPageSize ∧
        (o.dialect.paginationStyle = .offsetFetch → ordered = true) ∧
        f = ⟨o.dialect.paginationStyle.pieces p.span, []⟩ := by
  simp only [buildPagination, bind_eq_ok_iff, Page.window_eq_ok_iff]
  constructor
  · rintro ⟨w, ⟨hvalid, rfl⟩, h⟩
    refine ⟨hvalid, ?_⟩
    split at h
    · rename_i hstyle
      cases h
      rw [hstyle]
      exact ⟨(nomatch ·), rfl⟩
    · rename_i hstyle
      split at h
      · rename_i hordered
        cases h
        rw [hstyle]
        exact ⟨fun _ => hordered, rfl⟩
      · cases h
  · rintro ⟨hvalid, hordered, rfl⟩
    refine ⟨p.span, ⟨hvalid, rfl⟩, ?_⟩
    cases hstyle : o.dialect.paginationStyle with
    | limitOffset => rfl
    | offsetFetch =>
        simp only [hordered hstyle, if_true]
        rfl

/-- The text of the clause for a page requests the window of the page. -/
theorem sql_buildPagination (h : o.buildPagination p ordered = .ok f) :
    f.sql = o.dialect.paginationStyle.text p.span := by
  obtain ⟨-, -, rfl⟩ := buildPagination_eq_ok_iff.mp h
  exact PaginationStyle.text_pieces _ _

end Options

/-! ## Tiling -/

/-- A page is requested exactly if it is valid, with the exact number of rows before it, which does
not wrap around in words.  The pages of one size cut the rows without gap and without overlap.  A
clause for a page has the two numbers of the window, where its form has them, and no others. -/
theorem Page.pages_tile_rows :
    (∀ (number size maximum : UInt64) (w : Window),
      (ofWords number size).window maximum.toNat = .ok w ↔
        (ofWords number size).Valid maximum.toNat ∧
          w = ⟨size.toNat, (number.toNat - 1) * size.toNat⟩) ∧
    (∀ number size maximum : UInt64, (ofWords number size).Valid maximum.toNat →
      ((number - 1) * size).toNat = (number.toNat - 1) * size.toNat) ∧
    (∀ size maximum : UInt64, 1 ≤ size.toNat → size.toNat ≤ maximum.toNat →
      Tiles size maximum.toNat) ∧
    ∀ (o : Options) (p : Page) (ordered : Bool) (f : Fragment),
      o.buildPagination p ordered = .ok f →
        ∃ w, p.window o.maxPageSize = .ok w ∧ f.sql = o.dialect.paginationStyle.text w ∧
          Text.numbers f.sql = o.dialect.paginationStyle.numbers w ∧ f.params = [] := by
  refine ⟨fun number size maximum w => window_eq_ok_iff, fun number size maximum h =>
    h.toNat_offset, fun size maximum hsize hmaximum => tiles hsize hmaximum, ?_⟩
  intro o p ordered f h
  have hsql := Options.sql_buildPagination h
  obtain ⟨hvalid, -, rfl⟩ := Options.buildPagination_eq_ok_iff.mp h
  refine ⟨p.span, window_eq_ok_iff.mpr ⟨hvalid, rfl⟩, hsql, ?_, rfl⟩
  rw [hsql]
  exact PaginationStyle.numbers_text _ _

/-- Of the pages of two rows, the last that can be requested; pages of three rows and the last row
that is on one in any case; and a page for a dialect that skips rows first. -/
theorem Page.pages_tile_rows_ends :
    (ofWords 9223372036854775808 2).window 1000 = .ok ⟨2, 18446744073709551614⟩ ∧
      (∀ w, (ofWords 9223372036854775809 2).window 1000 ≠ .ok w) ∧
      (∃! number : UInt64, ∃ w, (ofWords number 3).window 1000 = .ok w ∧
        w.Covers 18446744073709551614) ∧
      ∃ f, (Options.defaults .sqlserver "t" []).buildPagination ⟨3, 20⟩ true = .ok f ∧
        f.sql = "OFFSET 40 ROWS FETCH NEXT 20 ROWS ONLY" ∧ Text.numbers f.sql = [40, 20] := by
  obtain ⟨hwindow, -, htiles, hclause⟩ := pages_tile_rows
  refine ⟨?_, fun w hw => ?_, ?_, ?_⟩
  · exact (hwindow 9223372036854775808 2 1000 _).mpr
      ⟨⟨by decide, by decide, by decide, by decide⟩, rfl⟩
  · have hvalid := ((hwindow 9223372036854775809 2 1000 w).mp hw).1
    exact absurd hvalid.offset_lt (by decide)
  · exact (htiles 3 1000 (by decide) (by decide)).covered 18446744073709551614 (by decide)
  · have hbuilt : (Options.defaults .sqlserver "t" []).buildPagination ⟨3, 20⟩ true =
        .ok ⟨Window.offsetFetch ⟨20, 40⟩, []⟩ := rfl
    obtain ⟨w, hw, hsql, hnumbers, -⟩ := hclause _ _ _ _ hbuilt
    cases hw
    exact ⟨_, hbuilt, hsql.trans (by decide), hnumbers⟩

end BoundSql
