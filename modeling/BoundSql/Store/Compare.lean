import BoundSql.Store.Syntax
import BoundSql.Text.Case
import BoundSql.Value

/-!
# Comparing stored values

Stored values are ordered by their class first: null, numbers, texts, blobs.
Numbers compare by exact value across integers and reals.  A comparison with null
is neither true nor false.
-/

namespace BoundSql.Store

/-- The value that is stored for a bound one: truth values are integers and there is no
not-a-number. -/
def stored : Value → Value
  | .bool b => .integer (if b then 1 else 0)
  | .real x => if x.isNaN then .null else .real x
  | v => v

def classRank : Value → Nat
  | .null => 0
  | .bool _ | .integer _ | .real _ => 1
  | .text _ => 2
  | .blob _ => 3

/-- A number on a scale that all integers and doubles share. -/
def scaledNumber : Value → Int
  | .bool b => Binary64.scaleInt (if b then 1 else 0)
  | .integer n => Binary64.scaleInt n.toInt
  | .real x => x.scaledInt
  | _ => 0

def compareBytes : List UInt8 → List UInt8 → Ordering
  | [], [] => .eq
  | [], _ :: _ => .lt
  | _ :: _, [] => .gt
  | a :: as, b :: bs => (compare a b).then (compareBytes as bs)

def order (v w : Value) : Ordering :=
  (compare (classRank v) (classRank w)).then <|
    match v, w with
    | .text s, .text t => compare s t
    | .blob a, .blob b => compareBytes a b
    | v, w => compare (scaledNumber v) (scaledNumber w)

def Comparison.holds : Comparison → Ordering → Bool
  | .equal, o => o = .eq
  | .notEqual, o => o ≠ .eq
  | .less, o => o = .lt
  | .lessOrEqual, o => o ≠ .gt
  | .greater, o => o = .gt
  | .greaterOrEqual, o => o ≠ .lt

/-- The truth of a comparison; none if a side is null. -/
def compare? (c : Comparison) (v w : Value) : Option Bool :=
  if v.isNull || w.isNull then none else some (c.holds (order v w))

/-- The truth of membership; none if it hangs on a null. -/
def member? (v : Value) (vs : List Value) : Option Bool :=
  if v.isNull then none
  else if vs.any fun w => compare? .equal v w = some true then some true
  else if vs.any Value.isNull then none
  else some false

/-- Whether two characters agree up to ASCII case. -/
def sameLetter (c d : Char) : Bool := c.toLower == d.toLower

/-- Whether a text matches a pattern; a percent sign stands for any sequence and an underscore
for any one character. -/
def matchesPattern : List Char → List Char → Bool
  | [], [] => true
  | [], _ :: _ => false
  | '%' :: pattern, [] => matchesPattern pattern []
  | '%' :: pattern, c :: cs =>
      matchesPattern pattern (c :: cs) || matchesPattern ('%' :: pattern) cs
  | _ :: _, [] => false
  | p :: pattern, c :: cs => (p == '_' || sameLetter p c) && matchesPattern pattern cs
termination_by pattern text => pattern.length + text.length

/-- The characters that bytes encode; bytes that encode none stand for themselves. -/
def charsOf (bytes : List UInt8) : List Char :=
  match String.fromUTF8? ⟨bytes.toArray⟩ with
  | some s => s.toList
  | none => bytes.map fun b => Char.ofNat b.toNat

/-- The text of a value in pattern matching, which ends at a zero; null has none. -/
def patternText? : Value → Option (List Char)
  | .null => none
  | .bool b => some [if b then '1' else '0']
  | .integer n => some n.toInt.repr.toList
  | .real x => some (Binary64.storeLayout.text x).toList
  | .text s => some (s.toList.takeWhile (· ≠ '\x00'))
  | .blob bytes => some (charsOf (bytes.takeWhile (· ≠ 0)))

/-- The truth of a pattern match; none if a side is null. -/
def like? (v pattern : Value) : Option Bool := do
  let text ← patternText? v
  let pattern ← patternText? pattern
  return matchesPattern pattern text

end BoundSql.Store
