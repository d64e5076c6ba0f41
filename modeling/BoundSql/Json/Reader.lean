import BoundSql.Json.Basic

/-!
# Reading documents

The grammar is strict: four blank characters, no trailing commas, no raw control
characters in strings and no unpaired surrogates.  A document nests at most 127
arrays and objects.
-/

namespace BoundSql.Json

/-- A reader consumes the front of its input and returns the rest. -/
abbrev Reader (α : Type) := List Char → Option (α × List Char)

/-- The characters allowed between tokens. -/
def isSpace (c : Char) : Bool := c == ' ' || c == '\t' || c == '\n' || c == '\r'

/-- Drop the space in front of a token. -/
def skipSpace (cs : List Char) : List Char := cs.dropWhile isSpace

/-- Consume a fixed word. -/
def expect : List Char → List Char → Option (List Char)
  | [], cs => some cs
  | w :: word, c :: cs => if w = c then expect word cs else none
  | _ :: _, [] => none

/-- The value of a hexadecimal digit of either case. -/
def hexValue (c : Char) : Option Nat :=
  if '0' ≤ c ∧ c ≤ '9' then some (c.toNat - '0'.toNat)
  else if 'a' ≤ c ∧ c ≤ 'f' then some (c.toNat - 'a'.toNat + 10)
  else if 'A' ≤ c ∧ c ≤ 'F' then some (c.toNat - 'A'.toNat + 10)
  else none

/-- The number written by four hexadecimal digits. -/
def hexFour (a b c d : Char) : Option Nat := do
  let a ← hexValue a
  let b ← hexValue b
  let c ← hexValue c
  let d ← hexValue d
  return ((a * 16 + b) * 16 + c) * 16 + d

def shortEscape : Char → Option Char
  | '"' => some '"'
  | '\\' => some '\\'
  | '/' => some '/'
  | 'b' => some '\x08'
  | 'f' => some '\x0c'
  | 'n' => some '\n'
  | 'r' => some '\r'
  | 't' => some '\t'
  | _ => none

/-- Read the inside of a string up to and including the closing quote. -/
def readString : Reader (List Char)
  | [] => none
  | '"' :: rest => some ([], rest)
  | '\\' :: 'u' :: a :: b :: c :: d :: rest => do
      let unit ← hexFour a b c d
      if unit < 0xD800 ∨ 0xE000 ≤ unit then
        let (tail, rest) ← readString rest
        return (Char.ofNat unit :: tail, rest)
      else if 0xDC00 ≤ unit then
        none
      else
        match rest with
        | '\\' :: 'u' :: e :: f :: g :: h :: rest => do
            let low ← hexFour e f g h
            if low < 0xDC00 ∨ 0xE000 ≤ low then
              none
            else
              let (tail, rest) ← readString rest
              return (Char.ofNat (0x10000 + (unit - 0xD800) * 0x400 + (low - 0xDC00)) :: tail, rest)
        | _ => none
  | '\\' :: c :: rest => do
      let c ← shortEscape c
      let (tail, rest) ← readString rest
      return (c :: tail, rest)
  | c :: rest =>
      if c = '\\' ∨ c.toNat < 0x20 then
        none
      else do
        let (tail, rest) ← readString rest
        return (c :: tail, rest)

/-- The number written by decimal digits. -/
def digitsValue (ds : List Char) : Nat :=
  ds.foldl (fun n d => n * 10 + (d.toNat - '0'.toNat)) 0

/-- Split off the leading decimal digits. -/
def spanDigits (cs : List Char) : List Char × List Char :=
  (cs.takeWhile Char.isDigit, cs.dropWhile Char.isDigit)

/-- Read a whole part: a single zero, or digits that do not start with zero. -/
def readWhole (cs : List Char) : Option (List Char × List Char) :=
  match spanDigits cs with
  | ([], _) => none
  | ('0' :: _ :: _, _) => none
  | found => some found

/-- Read an optional fraction; without a point there are no digits. -/
def readFraction : Reader (Option (List Char))
  | '.' :: rest =>
      match spanDigits rest with
      | ([], _) => none
      | (ds, rest) => some (some ds, rest)
  | rest => some (none, rest)

def readExponentDigits (negative : Bool) (cs : List Char) : Option (Option Int × List Char) :=
  match spanDigits cs with
  | ([], _) => none
  | (ds, rest) =>
      let n : Int := digitsValue ds
      some (some (if negative then -n else n), rest)

def readExponent : Reader (Option Int)
  | 'e' :: '-' :: rest | 'E' :: '-' :: rest => readExponentDigits true rest
  | 'e' :: '+' :: rest | 'E' :: '+' :: rest => readExponentDigits false rest
  | 'e' :: rest | 'E' :: rest => readExponentDigits false rest
  | rest => some (none, rest)

/-- The number of a literal.  Without fraction and exponent it is an integer if it fits
sixty-four bits, signed or unsigned; minus zero is real.  A real beyond the range of finite
doubles is refused. -/
def number? (negative : Bool) (whole : List Char) (fraction : Option (List Char))
    (exponent : Option Int) : Option Json :=
  let real (digits : List Char) (exponent : Int) : Option Json :=
    let x := Binary64.ofDecimal negative (digitsValue digits) digits.length exponent
    if x.isInfinite then none else some (.real x)
  match fraction, exponent with
  | none, none =>
      let n := digitsValue whole
      if negative then
        if 0 < n ∧ Int64.minValue.toInt ≤ -(n : Int) then some (.int (-(n : Int)))
        else real whole 0
      else if n < UInt64.size then some (.int n)
      else real whole 0
  | fraction, exponent =>
      let fraction := fraction.getD []
      real (whole ++ fraction) (exponent.getD 0 - fraction.length)

/-- Read a number after its optional minus sign. -/
def readUnsigned (negative : Bool) (cs : List Char) : Option (Json × List Char) := do
  let (whole, rest) ← readWhole cs
  let (fraction, rest) ← readFraction rest
  let (exponent, rest) ← readExponent rest
  let value ← number? negative whole fraction exponent
  return (value, rest)

/-- Read items separated by commas up to and including the closing character.  Every item
consumes input, so the length of the input bounds their number. -/
def readItems {α : Type} (item : Reader α) (close : Char) : Nat → Reader (List α)
  | 0, _ => none
  | bound + 1, cs => do
      let (first, rest) ← item cs
      match skipSpace rest with
      | ',' :: rest => do
          let (others, rest) ← readItems item close bound rest
          return (first :: others, rest)
      | c :: rest => if c = close then some ([first], rest) else none
      | [] => none

/-- Read a key, its colon and its value. -/
def readMember (value : Reader Json) (cs : List Char) :
    Option ((String × Json) × List Char) :=
  match skipSpace cs with
  | '"' :: rest => do
      let (key, rest) ← readString rest
      match skipSpace rest with
      | ':' :: rest => do
          let (v, rest) ← value rest
          return ((String.ofList key, v), rest)
      | _ => none
  | _ => none

/-- Read one value that nests at most `depth` arrays and objects. -/
def readValue (depth : Nat) (cs : List Char) : Option (Json × List Char) :=
  match skipSpace cs with
  | 'n' :: rest => do return (.null, ← expect ['u', 'l', 'l'] rest)
  | 't' :: rest => do return (.bool true, ← expect ['r', 'u', 'e'] rest)
  | 'f' :: rest => do return (.bool false, ← expect ['a', 'l', 's', 'e'] rest)
  | '"' :: rest => do
      let (s, rest) ← readString rest
      return (.str (String.ofList s), rest)
  | '[' :: rest =>
      match depth with
      | 0 => none
      | depth + 1 =>
          match skipSpace rest with
          | ']' :: rest => some (.arr [], rest)
          | _ => do
              let (items, rest) ← readItems (readValue depth) ']' rest.length rest
              return (.arr items, rest)
  | '\x7b' :: rest =>
      match depth with
      | 0 => none
      | depth + 1 =>
          match skipSpace rest with
          | '\x7d' :: rest => some (.obj [], rest)
          | _ => do
              let (members, rest) ← readItems (readMember (readValue depth)) '\x7d' rest.length rest
              return (.obj members, rest)
  | '-' :: rest => readUnsigned true rest
  | cs => readUnsigned false cs
termination_by structural depth

/-- The deepest nesting a document may have. -/
def maxDepth : Nat := 127

/-- Read a whole document, keeping repeated keys. -/
def parseRaw? (text : String) : Option Json := do
  let (value, rest) ← readValue maxDepth text.toList
  if (skipSpace rest).isEmpty then some value else none

/-- Read a whole document and resolve repeated keys. -/
def parse? (text : String) : Option Json := (parseRaw? text).map merged

end BoundSql.Json
