import BoundSql.Binary64.Shortest

/-!
# Written forms of a double

The digits of a written number are the shortest ones that read back; a layout
says how a tie between two of them is broken, where positional notation ends and how
an exponent is spelled.
-/

namespace BoundSql.Binary64

/-- Which digits of a number are written. -/
inductive Digits where
  /-- The fewest that read back. -/
  | shortest (tie : Tie)
  /-- The nearest ones, up to a number of places. -/
  | limited (places : Nat)

/-- The decimal that stands for a finite nonzero number. -/
def Digits.decimal (x : Binary64) : Digits → Decimal
  | .shortest tie => x.shortest tie
  | .limited places => x.significant places

/-- How the digits of a number are chosen and laid out. -/
structure Layout where
  digits : Digits
  /-- The least and the first excluded decimal exponent written without an exponent part. -/
  positional : Option (Int × Int)
  /-- Whether a whole number keeps one decimal place. -/
  keepsPlace : Bool
  /-- Whether a single digit in front of an exponent keeps one decimal place. -/
  keepsMantissaPlace : Bool
  /-- Whether a positive exponent carries its sign. -/
  signsExponent : Bool
  /-- The fewest digits of an exponent. -/
  exponentWidth : Nat
  /-- Whether minus zero carries its sign. -/
  signsZero : Bool
  /-- The texts of not-a-number and of positive and negative infinity. -/
  notANumber : String
  positiveInfinity : String
  negativeInfinity : String

/-- Numbers in diagnostics: at least one decimal place, an exponent below `1e-4` and from `1e16`
on. -/
def diagnosticLayout : Layout where
  digits := .shortest .up
  positional := some (-4, 16)
  keepsPlace := true
  keepsMantissaPlace := false
  signsExponent := false
  exponentWidth := 1
  signsZero := true
  notANumber := "NaN"
  positiveInfinity := "inf"
  negativeInfinity := "-inf"

/-- Numbers as shown to a reader: never an exponent and no needless decimal place. -/
def plainLayout : Layout := { diagnosticLayout with positional := none, keepsPlace := false }

/-- Numbers in documents: at least one decimal place, an exponent below `1e-5` and from `1e16`
on, and no spelling for numbers that are not finite. -/
def documentLayout : Layout where
  digits := .shortest .even
  positional := some (-5, 16)
  keepsPlace := true
  keepsMantissaPlace := false
  signsExponent := true
  exponentWidth := 1
  signsZero := true
  notANumber := "null"
  positiveInfinity := "null"
  negativeInfinity := "null"

/-- Numbers as the store matches them with patterns: fifteen digits, at least one decimal place,
an exponent of two digits below `1e-4` and from `1e15` on. -/
def storeLayout : Layout where
  digits := .limited 15
  positional := some (-4, 15)
  keepsPlace := true
  keepsMantissaPlace := true
  signsExponent := true
  exponentWidth := 2
  signsZero := false
  notANumber := ""
  positiveInfinity := "Inf"
  negativeInfinity := "-Inf"

/-- Digits with the decimal point after the first `point` of them, filled with zeros where the
point lies outside. -/
def placePoint (keepsPlace : Bool) (digits : List Char) (point : Int) : List Char :=
  if point ≤ 0 then
    ['0', '.'] ++ List.replicate (-point).toNat '0' ++ digits
  else if digits.length ≤ point.toNat then
    digits ++ List.replicate (point.toNat - digits.length) '0' ++
      (if keepsPlace then ['.', '0'] else [])
  else
    digits.take point.toNat ++ '.' :: digits.drop point.toNat

/-- Digits with an exponent part; a point follows the first digit if there are more. -/
def Layout.placeExponent (l : Layout) (digits : List Char) (exponent : Int) : List Char :=
  let head :=
    match digits with
    | first :: second :: rest => first :: '.' :: second :: rest
    | short => short ++ (if l.keepsMantissaPlace then ['.', '0'] else [])
  let sign := if exponent < 0 then ['-'] else if l.signsExponent then ['+'] else []
  head ++ 'e' :: sign ++ (Nat.repr exponent.natAbs).toList.leftpad l.exponentWidth '0'

/-- The unsigned written form of a finite number. -/
def Layout.finite (l : Layout) (x : Binary64) : List Char :=
  if x.isZero then
    placePoint l.keepsPlace ['0'] 1
  else
    let d := l.digits.decimal x
    let digits := (Nat.repr d.digits).toList
    let leading := d.exponent + digits.length - 1
    let fits := match l.positional with
      | none => true
      | some (least, bound) => least ≤ leading && leading < bound
    if fits then placePoint l.keepsPlace digits (leading + 1)
    else l.placeExponent digits leading

/-- Whether the written form of a finite number carries a minus sign. -/
def Layout.signs (l : Layout) (x : Binary64) : Bool :=
  x.isNegative && (l.signsZero || !x.isZero)

/-- The written form of a number. -/
def Layout.text (l : Layout) (x : Binary64) : String :=
  if x.isNaN then l.notANumber
  else if x.isInfinite then (if x.isNegative then l.negativeInfinity else l.positiveInfinity)
  else String.ofList (if l.signs x then '-' :: l.finite x else l.finite x)

end BoundSql.Binary64
