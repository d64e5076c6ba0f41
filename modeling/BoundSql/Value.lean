import BoundSql.Json.Basic
import BoundSql.Text.Quoted

/-!
# Values

A value is what a placeholder is bound to and what a result cell holds.  It has a
text for readers, a text for diagnostics and a form inside documents; only
scalars of a document are values.
-/

namespace BoundSql

/-- A scalar of the database. -/
inductive Value where
  | null
  | bool (b : Bool)
  | integer (n : Int64)
  | real (x : Binary64)
  | text (s : String)
  | blob (bytes : List UInt8)
deriving DecidableEq, Inhabited

namespace Value

def isNull : Value → Bool
  | .null => true
  | _ => false

/-- The empty text, which stands where an operator takes no value. -/
def blank : Value := .text ""

/-- Whether the value is the empty text. -/
def isBlank : Value → Bool
  | .text s => s = ""
  | _ => false

theorem isNull_iff (v : Value) : v.isNull = true ↔ v = .null := by
  cases v <;> simp [isNull]

theorem isBlank_iff (v : Value) : v.isBlank = true ↔ v = .text "" := by
  cases v <;> simp [isBlank]

def asInteger? : Value → Option Int64
  | .integer n => some n
  | _ => none

def asText? : Value → Option String
  | .text s => some s
  | _ => none

/-- Equality in which not-a-number differs from itself and the two zeros agree. -/
def same : Value → Value → Bool
  | .real x, .real y => x.sameNumber y
  | v, w => v = w

/-- An integer value if the number fits, otherwise the nearest real. -/
def ofInt (n : Int) : Value :=
  if Int64.minValue.toInt ≤ n ∧ n ≤ Int64.maxValue.toInt then .integer (Int64.ofInt n)
  else .real (Binary64.ofInt n)

/-- The value of a document scalar; arrays and objects have none. -/
def ofJson? : Json → Option Value
  | .null => some .null
  | .bool b => some (.bool b)
  | .int n => some (ofInt n)
  | .real x => some (.real x)
  | .str s => some (.text s)
  | .arr _ | .obj _ => none

/-- The document form of a value; a blob is the array of its bytes. -/
def toJson : Value → Json
  | .null => .null
  | .bool b => .bool b
  | .integer n => .int n.toInt
  | .real x => .real x
  | .text s => .str s
  | .blob bytes => .arr (bytes.map fun b => .int b.toNat)

/-- A value as shown to a reader. -/
def display : Value → String
  | .null => "NULL"
  | .bool b => if b then "true" else "false"
  | .integer n => n.toInt.repr
  | .real x => Binary64.plainLayout.text x
  | .text s => Text.quoted s
  | .blob bytes => "<" ++ bytes.length.repr ++ " bytes>"

/-- Texts between brackets, separated by commas. -/
def bracketed (items : List String) : String :=
  "[" ++ String.intercalate ", " items ++ "]"

/-- A value as shown in diagnostics, with its kind. -/
def inspect : Value → String
  | .null => "Null"
  | .bool b => if b then "Bool(true)" else "Bool(false)"
  | .integer n => "Integer(" ++ n.toInt.repr ++ ")"
  | .real x => "Real(" ++ Binary64.diagnosticLayout.text x ++ ")"
  | .text s => "Text(" ++ Text.quoted s ++ ")"
  | .blob bytes => "Blob(" ++ bracketed (bytes.map fun b => b.toNat.repr) ++ ")"

def inspectAll (values : List Value) : String := bracketed (values.map inspect)

end Value

/-- A number of rows is a word of sixty-four bits wherever a driver reports it. -/
instance coeNatUInt64 : Coe Nat UInt64 := ⟨UInt64.ofNat⟩

end BoundSql
