import BoundSql.Binary64.Basic

/-!
# Decimal digits

Among the decimals that round to a given double the shortest one is taken, and of
two equally short ones the nearer; a tie rule decides between two equally near ones.
Digits may also be limited to a number of places.  All comparisons are made on
integers: the double, the ends of its rounding interval and the decimal grid share a
denominator.
-/

namespace BoundSql.Binary64

/-- A positive decimal `digits * 10 ^ exponent`. -/
structure Decimal where
  digits : Nat
  exponent : Int
deriving DecidableEq

/-- Which of two neighbouring decimals is taken for a number halfway between them. -/
inductive Tie where
  /-- The one with the even last digit. -/
  | even
  /-- The greater one. -/
  | up
deriving DecidableEq

/-- Whether a number halfway above a decimal with the given digits is rounded up. -/
def Tie.roundsUp (below : Nat) : Tie → Bool
  | .even => below % 2 == 1
  | .up => true

/-- A positive number and the ends of its rounding interval, over one denominator. -/
structure Interval where
  lower : Nat
  value : Nat
  upper : Nat
  denominator : Nat
  closed : Bool

/-- The rounding interval of a finite nonzero double.  Below a power of two the spacing of
doubles halves, so the lower end is nearer there. -/
def interval (x : Binary64) : Interval :=
  let m := x.mantissa
  let lower := if m = twoTo 52 && 1 < x.exponentField then 4 * m - 1 else 4 * m - 2
  let q := x.scale - 2
  if 0 ≤ q then
    let f := twoTo q.toNat
    ⟨lower * f, 4 * m * f, (4 * m + 2) * f, 1, m % 2 == 0⟩
  else
    ⟨lower, 4 * m, 4 * m + 2, twoTo (-q).toNat, m % 2 == 0⟩

/-- Whether `num / den` rounds to the number of the interval. -/
def Interval.holds (i : Interval) (num den : Nat) : Bool :=
  let n := num * i.denominator
  if i.closed then i.lower * den ≤ n && n ≤ i.upper * den
  else i.lower * den < n && n < i.upper * den

/-- The power `10 ^ e` as numerator and denominator. -/
def powerOfTen (e : Int) : Nat × Nat :=
  if 0 ≤ e then (tenTo e.toNat, 1) else (1, tenTo (-e).toNat)

/-- Whether `10 ^ e` is at most the number of the interval. -/
def Interval.reaches (i : Interval) (e : Int) : Bool :=
  let p := powerOfTen e
  p.1 * i.denominator ≤ i.value * p.2

/-- The decimal exponent of the leading digit of the number of the interval. -/
def Interval.leading (i : Interval) : Int :=
  let guess := ((Nat.log2 i.value : Int) - Nat.log2 i.denominator) * 30103 / 100000
  if i.reaches (guess + 2) then guess + 2
  else if i.reaches (guess + 1) then guess + 1
  else if i.reaches guess then guess
  else if i.reaches (guess - 1) then guess - 1
  else guess - 2

/-- The decimal on the grid of `10 ^ e` that rounds to the number of the interval, the
nearer one if both neighbours do. -/
def Interval.onGrid? (i : Interval) (tie : Tie) (e : Int) : Option Decimal :=
  let step := powerOfTen e
  let unit := step.1 * i.denominator
  let scaled := i.value * step.2
  let below := scaled / unit
  let rest := scaled % unit
  let belowFits := i.holds (below * step.1) step.2
  let aboveFits := i.holds ((below + 1) * step.1) step.2
  if belowFits && aboveFits then
    let roundsUp := 2 * rest > unit || (2 * rest == unit && tie.roundsUp below)
    some ⟨if roundsUp then below + 1 else below, e⟩
  else if belowFits then some ⟨below, e⟩
  else if aboveFits then some ⟨below + 1, e⟩
  else none

/-- Try ever finer grids, `steps` of them, starting at `10 ^ e`. -/
def Interval.search (i : Interval) (tie : Tie) (e : Int) : Nat → Decimal
  | 0 => ⟨0, 0⟩
  | steps + 1 => (i.onGrid? tie e).getD (i.search tie (e - 1) steps)

/-- Move trailing zeros of the digits into the exponent. -/
def Decimal.stripZeros (d : Decimal) : Nat → Decimal
  | 0 => d
  | steps + 1 =>
      if d.digits ≠ 0 ∧ d.digits % 10 = 0 then
        Decimal.stripZeros ⟨d.digits / 10, d.exponent + 1⟩ steps
      else d

/-- The decimal of at most `places` digits that is nearest to a finite nonzero double; halves are
rounded up. -/
def significant (places : Nat) (x : Binary64) : Decimal :=
  let i := x.interval
  let e := i.leading + 1 - places
  let step := powerOfTen e
  let unit := step.1 * i.denominator
  Decimal.stripZeros ⟨(2 * (i.value * step.2) + unit) / (2 * unit), e⟩ places

/-- The shortest decimal that rounds to a finite nonzero double; seventeen digits always suffice. -/
def shortest (tie : Tie) (x : Binary64) : Decimal :=
  let i := x.interval
  (i.search tie i.leading 17).stripZeros 17

end BoundSql.Binary64
