import BoundSql.Json.Reader
import BoundSql.Json.Writer
import BoundSql.Store.Execute

/-!
# Snapshots

A snapshot is the text that keeps the tables of a store between two runs.  Numbers
with a fraction and bytes are written digit by digit, so that every stored value
reads back as it was.
-/

namespace BoundSql.Store

namespace Snapshot

/-- The number that hexadecimal digits write. -/
def readHex (cs : List Char) : Option Nat :=
  (cs.mapM Json.hexValue).map fun digits => digits.foldl (fun n d => n * 16 + d) 0

/-- Bytes with two hexadecimal digits each. -/
def byteChars (bytes : List UInt8) : List Char :=
  bytes.flatMap fun b => Text.hexPadded 2 b.toNat

/-- Read bytes with two hexadecimal digits each. -/
def readBytes : List Char → Option (List UInt8)
  | [] => some []
  | [_] => none
  | a :: b :: rest => do
      let n ← readHex [a, b]
      let bytes ← readBytes rest
      return UInt8.ofNat n :: bytes

def ofValue : Value → Json
  | .null => .null
  | .bool b => .bool b
  | .integer n => .int n.toInt
  | .text s => .str s
  | .real x => .obj [("real", .str (String.ofList (Text.hexPadded 16 x.bits.toNat)))]
  | .blob bytes => .obj [("blob", .str (String.ofList (byteChars bytes)))]

def readValue : Json → Option Value
  | .null => some .null
  | .bool b => some (.bool b)
  | .int n => some (.integer (Int64.ofInt n))
  | .str s => some (.text s)
  | .obj [("real", .str digits)] =>
      (readHex digits.toList).map fun n => .real ⟨UInt64.ofNat n⟩
  | .obj [("blob", .str digits)] => (readBytes digits.toList).map .blob
  | _ => none

def ofColumn (c : Column) : Json :=
  .arr [.str c.name, .bool c.isKey, .bool c.notNull, .bool c.unique]

def readColumn : Json → Option Column
  | .arr [.str name, .bool isKey, .bool notNull, .bool unique] =>
      some ⟨name, isKey, notNull, unique⟩
  | _ => none

def ofRecord (r : Record) : Json := .arr (.int r.id.toInt :: r.values.map ofValue)

def readRecord : Json → Option Record
  | .arr (.int id :: values) => (values.mapM readValue).map fun vs => ⟨Int64.ofInt id, vs⟩
  | _ => none

def ofTable (t : Table) : Json :=
  .obj [("name", .str t.name), ("columns", .arr (t.columns.map ofColumn)),
    ("records", .arr (t.records.map ofRecord))]

def readTable : Json → Option Table
  | .obj [("name", .str name), ("columns", .arr columns), ("records", .arr records)] => do
      return ⟨name, ← columns.mapM readColumn, ← records.mapM readRecord⟩
  | _ => none

def text (tables : List Table) : String := (Json.arr (tables.map ofTable)).text

def parse? (s : String) : Option (List Table) := do
  match ← Json.parse? s with
  | .arr tables => tables.mapM readTable
  | _ => none

end Snapshot

end BoundSql.Store
