import BoundSql.Query.Whitelist

/-!
# Pages

Pages are numbered from one and have a fixed size.  The number of rows before a
page has to fit sixty-four bits.
-/

namespace BoundSql

/-- A request for one page of rows. -/
structure Page where
  number : Nat
  size : Nat
deriving DecidableEq

/-- The window of rows that a page covers. -/
structure Window where
  limit : Nat
  offset : Nat
deriving DecidableEq

/-- The first number of skipped rows that does not fit sixty-four bits. -/
def Page.offsetBound : Nat := UInt64.size

/-- The window of a page, given the largest page size. -/
def Page.window (p : Page) (maxPageSize : Nat) : Except QueryError Window :=
  if p.number < 1 then
    .error (.invalidPagination (.numberTooSmall p.number))
  else if p.size < 1 ∨ maxPageSize < p.size then
    .error (.invalidPagination (.sizeOutOfRange p.size maxPageSize))
  else if Page.offsetBound ≤ (p.number - 1) * p.size then
    .error (.invalidPagination (.offsetOutOfRange p.number p.size))
  else
    .ok ⟨p.size, (p.number - 1) * p.size⟩

/-- The text that selects a window with a row count before the number of skipped rows. -/
def Window.limitOffset (w : Window) : List Piece :=
  [.word .limit, .word .space, .number w.limit, .word .space,
   .word .offset, .word .space, .number w.offset]

/-- The text that selects a window with the number of skipped rows first. -/
def Window.offsetFetch (w : Window) : List Piece :=
  [.word .offset, .word .space, .number w.offset, .word .space, .word .rows, .word .space,
   .word .fetchNext, .word .space, .number w.limit, .word .space, .word .rowsOnly]

/-- Build the clause for a page; some dialects need the statement to be ordered. -/
def Options.buildPagination (o : Options) (p : Page) (ordered : Bool) :
    Except QueryError Fragment := do
  let w ← p.window o.maxPageSize
  match o.dialect.paginationStyle with
  | .limitOffset => return ⟨w.limitOffset, []⟩
  | .offsetFetch =>
      -- the clause is part of the ordering, so there has to be one
      if ordered then return ⟨w.offsetFetch, []⟩
      else .error (.invalidPagination (.unordered o.dialect))

end BoundSql
