import BoundSql.Json.Reader
import BoundSql.Value

/-!
# Numbers in texts

A column of row identifiers reads texts that spell a number as that number, and
reals that are whole as integers.
-/

namespace BoundSql.Store

/-- The integer of a number, if it fits sixty-four bits. -/
def fitting? (n : Int) : Option Int64 :=
  if Int64.minValue.toInt ≤ n ∧ n ≤ Int64.maxValue.toInt then some (Int64.ofInt n) else none

/-- A real as an integer value if it is whole and fits, otherwise as it is. -/
def ofReal (x : Binary64) : Value :=
  match x.wholeNumber?.bind fitting? with
  | some n => .integer n
  | none => .real x

def splitSign : List Char → Bool × List Char
  | '-' :: rest => (true, rest)
  | '+' :: rest => (false, rest)
  | rest => (false, rest)

/-- The number written by digits with an optional fraction and an optional exponent. -/
def unsignedNumber? (negative : Bool) (cs : List Char) : Option Value := do
  let (whole, rest) := Json.spanDigits cs
  let (fraction, rest) := match rest with
    | '.' :: rest => Json.spanDigits rest
    | rest => ([], rest)
  if whole.isEmpty && fraction.isEmpty then none
  let (exponent, rest) ← Json.readExponent rest
  if !rest.isEmpty then none
  let digits := whole ++ fraction
  let n := Json.digitsValue digits
  match fitting? (if negative then -(n : Int) else n) with
  | some i => if fraction.isEmpty && exponent.isNone then return .integer i
  | none => pure ()
  return ofReal (Binary64.ofDecimal negative n digits.length
    (exponent.getD 0 - fraction.length))

def isNumberSpace (c : Char) : Bool := c == ' ' || (9 ≤ c.toNat && c.toNat ≤ 13)

/-- The number that a text spells, if it spells one. -/
def numberOfText? (s : String) : Option Value :=
  let cs := (s.toList.dropWhile isNumberSpace).reverse.dropWhile isNumberSpace
  let (negative, rest) := splitSign cs.reverse
  unsignedNumber? negative rest

/-- A value as a column of row identifiers sees it. -/
def numeric : Value → Value
  | .text s => (numberOfText? s).getD (.text s)
  | .real x => ofReal x
  | v => v

end BoundSql.Store
