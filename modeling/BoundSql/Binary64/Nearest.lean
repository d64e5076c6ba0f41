import BoundSql.Binary64.Basic

/-!
# Rounding to the nearest double

A positive fraction is rounded to the nearest number with a mantissa of
fifty-three bits, a tie going to the even mantissa.  Below the normal range the
spacing stays fixed; above the largest finite number the result is infinite.
-/

namespace BoundSql.Binary64

/-- The quotient rounded to the nearest integer, ties to even. -/
def divNearest (num den : Nat) : Nat :=
  let quotient := num / den
  let rest := num % den
  if 2 * rest > den || (2 * rest == den && quotient % 2 == 1) then quotient + 1 else quotient

/-- The fraction `num / (den * 2 ^ q)` as numerator and denominator. -/
def unscale (num den : Nat) (q : Int) : Nat × Nat :=
  if 0 ≤ q then (num, den * twoTo q.toNat) else (num * twoTo (-q).toNat, den)

/-- The largest `e` with `2 ^ e ≤ num / den`. -/
def floorLog2 (num den : Nat) : Int :=
  let guess : Int := (Nat.log2 num : Int) - Nat.log2 den
  let scaled := unscale num den guess
  if scaled.1 < scaled.2 then guess - 1 else guess

/-- The double nearest to a fraction, with a given sign. -/
def ofFraction (negative : Bool) (num den : Nat) : Binary64 :=
  if num = 0 then
    zero negative
  else
    let q := max (floorLog2 num den - 52) (-1074)
    let scaled := unscale num den q
    let magnitude := (q + 1074).toNat * twoTo 52 + divNearest scaled.1 scaled.2
    if 2047 * twoTo 52 ≤ magnitude then infinity negative else ofMagnitude negative magnitude

/-- The double nearest to an integer. -/
def ofInt (n : Int) : Binary64 := ofFraction (n < 0) n.natAbs 1

/-- The double nearest to `digits * 10 ^ exponent`.  Far outside the range of finite numbers
the power is not computed: with `count` digits the value lies below `10 ^ (count + exponent)`. -/
def ofDecimal (negative : Bool) (digits count : Nat) (exponent : Int) : Binary64 :=
  if digits = 0 || count + exponent < -400 then zero negative
  else if 400 < exponent then infinity negative
  else if 0 ≤ exponent then ofFraction negative (digits * tenTo exponent.toNat) 1
  else ofFraction negative digits (tenTo (-exponent).toNat)

/-- The double equal to a single-precision number given by its bits.  A single-precision
not-a-number keeps its payload and becomes quiet. -/
def ofBinary32 (bits : UInt32) : Binary64 :=
  let n := bits.toNat
  let negative : Bool := twoTo 31 ≤ n
  let exponent := n / twoTo 23 % twoTo 8
  let fraction := n % twoTo 23
  if exponent = 255 then
    if fraction = 0 then infinity negative
    else
      ofMagnitude negative (2047 * twoTo 52 + twoTo 51 + fraction % twoTo 22 * twoTo 29)
  else if exponent = 0 then
    ofFraction negative fraction (twoTo 149)
  else if 150 ≤ exponent then
    ofFraction negative ((twoTo 23 + fraction) * twoTo (exponent - 150)) 1
  else
    ofFraction negative (twoTo 23 + fraction) (twoTo (150 - exponent))

end BoundSql.Binary64
