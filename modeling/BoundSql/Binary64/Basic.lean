/-!
# Double-precision numbers

A number is held as its sixty-four bits, so that every bit pattern, not-a-number
included, is told apart.  A finite number is a sign, a mantissa and a power of
two; comparison is exact.
-/

namespace BoundSql

/-- A double-precision binary floating-point number. -/
structure Binary64 where
  bits : UInt64
deriving DecidableEq, Inhabited

namespace Binary64

def twoTo (exponent : Nat) : Nat := Nat.pow 2 exponent

def tenTo (exponent : Nat) : Nat := Nat.pow 10 exponent

/-- The eleven bits of the exponent. -/
def exponentField (x : Binary64) : Nat := x.bits.toNat / twoTo 52 % twoTo 11

/-- The fifty-two bits of the fraction. -/
def fraction (x : Binary64) : Nat := x.bits.toNat % twoTo 52

/-- Whether the sign bit is set; minus zero is negative here. -/
def isNegative (x : Binary64) : Bool := twoTo 63 ≤ x.bits.toNat

/-- Whether the bits stand for no number. -/
def isNaN (x : Binary64) : Bool := x.exponentField == 2047 && x.fraction != 0

def isInfinite (x : Binary64) : Bool := x.exponentField == 2047 && x.fraction == 0

/-- Whether the bits stand for zero, of either sign. -/
def isZero (x : Binary64) : Bool := x.exponentField == 0 && x.fraction == 0

/-- The mantissa of a finite number as an integer. -/
def mantissa (x : Binary64) : Nat :=
  if x.exponentField = 0 then x.fraction else twoTo 52 + x.fraction

/-- The power of two that scales the mantissa of a finite number. -/
def scale (x : Binary64) : Int :=
  if x.exponentField = 0 then -1074 else (x.exponentField : Int) - 1075

/-- The number with a given sign whose other bits form `magnitude`. -/
def ofMagnitude (negative : Bool) (magnitude : Nat) : Binary64 :=
  ⟨UInt64.ofNat (if negative then twoTo 63 + magnitude else magnitude)⟩

def infinity (negative : Bool) : Binary64 := ofMagnitude negative (2047 * twoTo 52)

def zero (negative : Bool) : Binary64 := ofMagnitude negative 0

/-- A quiet not-a-number with a given sign and no payload. -/
def quietNaN (negative : Bool) : Binary64 := ofMagnitude negative (2047 * twoTo 52 + twoTo 51)

/-- Equality of numbers: not-a-number differs from itself and the zeros agree. -/
def sameNumber (x y : Binary64) : Bool :=
  if x.isNaN || y.isNaN then false
  else if x.isZero && y.isZero then true
  else x == y

/-- A number of at least the size of every finite one stands for an infinity in comparisons. -/
def beyond : Int := twoTo 2100

/-- The number times `2 ^ 1074`, an integer; an infinity is `beyond` all of these. -/
def scaledInt (x : Binary64) : Int :=
  let size : Int :=
    if x.exponentField = 2047 then beyond else (x.mantissa * twoTo (x.scale + 1074).toNat : Nat)
  if x.isNegative then -size else size

/-- The integer equal to a number, if it is whole and finite. -/
def wholeNumber? (x : Binary64) : Option Int :=
  let size : Option Nat :=
    if x.exponentField = 2047 then none
    else if 0 ≤ x.scale then some (x.mantissa * twoTo x.scale.toNat)
    else
      let d := twoTo (-x.scale).toNat
      if x.mantissa % d = 0 then some (x.mantissa / d) else none
  size.map fun n => if x.isNegative then -(n : Int) else n

/-- An integer on the scale of `scaledInt`. -/
def scaleInt (n : Int) : Int := n * twoTo 1074

end Binary64

end BoundSql
