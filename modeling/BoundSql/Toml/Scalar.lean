import BoundSql.Json.Reader
import BoundSql.Toml.Basic
import BoundSql.Toml.Quoted
import BoundSql.Text.Lines

/-!
# Unquoted values of configuration files

Truth values, integers, reals, dates and times stand without quotes.  Digits may be
grouped by single underscores, a decimal integer has no leading zeros, and dates and
times exist on the calendar and the clock.
-/

namespace BoundSql.Toml

/-- The characters of unquoted values. -/
def isScalarChar (c : Char) : Bool :=
  c.isAlphanum || c == '_' || c == '+' || c == '-' || c == '.' || c == ':'

/-! ## Numbers -/

/-- Digits that single underscores may group. -/
def digits? (isDigit : Char → Bool) (cs : List Char) : Option (List Char) :=
  let groups := cs.splitOn '_'
  if groups.all fun g => !g.isEmpty && g.all isDigit then some groups.flatten else none

/-- Decimal digits without leading zeros. -/
def wholeDigits? (cs : List Char) : Option (List Char) := do
  let digits ← digits? Char.isDigit cs
  match digits with
  | '0' :: _ :: _ => none
  | digits => return digits

def splitSign : List Char → Option Bool × List Char
  | '-' :: rest => (some true, rest)
  | '+' :: rest => (some false, rest)
  | rest => (none, rest)

def radixValue (base : Nat) (digits : List Char) : Nat :=
  digits.foldl (fun n d => n * base + (Json.hexValue d).getD 0) 0

/-- An integer in base sixteen, eight or two, after the leading zero. -/
def radixInt? : List Char → Option Int
  | 'x' :: cs => (digits? (fun c => (Json.hexValue c).isSome) cs).map fun ds => radixValue 16 ds
  | 'o' :: cs => (digits? (fun c => '0' ≤ c && c ≤ '7') cs).map fun ds => radixValue 8 ds
  | 'b' :: cs => (digits? (fun c => '0' ≤ c && c ≤ '1') cs).map fun ds => radixValue 2 ds
  | _ => none

/-- An integer.  Only decimal integers have a sign. -/
def int? (cs : List Char) : Option Int :=
  match cs with
  | '0' :: c :: rest => radixInt? (c :: rest)
  | cs => do
      let (negative, rest) := splitSign cs
      let digits ← wholeDigits? rest
      let n : Int := Json.digitsValue digits
      return if negative = some true then -n else n

/-- Split at the first character that satisfies a test; the character belongs to neither part. -/
def splitAt? (p : Char → Bool) (cs : List Char) : Option (List Char × List Char) :=
  match cs.dropWhile fun c => !p c with
  | [] => none
  | _ :: rest => some (cs.takeWhile fun c => !p c, rest)

def exponent? (cs : List Char) : Option Int := do
  let (negative, rest) := splitSign cs
  let digits ← digits? Char.isDigit rest
  let n : Int := Json.digitsValue digits
  return if negative = some true then -n else n

/-- A real with a fraction, an exponent or both; it has to be within the range of doubles. -/
def decimal? (negative : Bool) (cs : List Char) : Option Binary64 := do
  let (mantissa, exponent) ← match splitAt? (fun c => c = 'e' || c = 'E') cs with
    | some (mantissa, exponent) => (exponent? exponent).map fun e => (mantissa, some e)
    | none => some (cs, none)
  let (whole, fraction) ← match splitAt? (· = '.') mantissa with
    | some (whole, fraction) => (digits? Char.isDigit fraction).map fun ds => (whole, some ds)
    | none => some (mantissa, none)
  let whole ← wholeDigits? whole
  if fraction.isNone && exponent.isNone then none
  let fraction := fraction.getD []
  let digits := whole ++ fraction
  let x := Binary64.ofDecimal negative (Json.digitsValue digits) digits.length
    (exponent.getD 0 - fraction.length)
  if x.isInfinite then none else return x

def real? (cs : List Char) : Option Binary64 :=
  let (sign, rest) := splitSign cs
  let negative := sign = some true
  if rest = ['i', 'n', 'f'] then some (Binary64.infinity negative)
  else if rest = ['n', 'a', 'n'] then some (Binary64.quietNaN negative)
  else decimal? negative rest

/-! ## Dates and times -/

def twoDigits? : List Char → Option (Nat × List Char)
  | a :: b :: rest =>
      if a.isDigit && b.isDigit then some (Json.digitsValue [a, b], rest) else none
  | _ => none

def daysOf (year month : Nat) : Nat :=
  if month = 2 then
    if year % 4 = 0 ∧ (year % 100 ≠ 0 ∨ year % 400 = 0) then 29 else 28
  else if month = 4 ∨ month = 6 ∨ month = 9 ∨ month = 11 then 30 else 31

/-- Drop a fixed character. -/
def expectChar (c : Char) : List Char → Option (List Char)
  | d :: rest => if c = d then some rest else none
  | [] => none

def dropDate (cs : List Char) : Option (List Char) := do
  let (century, rest) ← twoDigits? cs
  let (years, rest) ← twoDigits? rest
  let (month, rest) ← twoDigits? (← expectChar '-' rest)
  let (day, rest) ← twoDigits? (← expectChar '-' rest)
  let known := 1 ≤ month ∧ month ≤ 12 ∧ 1 ≤ day ∧ day ≤ daysOf (century * 100 + years) month
  if known then return rest else none

/-- Drop the fraction of a second, if there is one. -/
def dropFraction : List Char → Option (List Char)
  | '.' :: rest =>
      if (rest.head?.any Char.isDigit) then some (rest.dropWhile Char.isDigit) else none
  | rest => some rest

/-- Drop the seconds of a time, if there are any. -/
def dropSeconds : List Char → Option (List Char)
  | ':' :: rest => do
      let (second, rest) ← twoDigits? rest
      if second ≤ 60 then dropFraction rest else none
  | rest => some rest

/-- Drop an hour and a minute. -/
def dropClock (cs : List Char) : Option (List Char) := do
  let (hour, rest) ← twoDigits? cs
  let (minute, rest) ← twoDigits? (← expectChar ':' rest)
  if hour ≤ 23 ∧ minute ≤ 59 then return rest else none

def dropTime (cs : List Char) : Option (List Char) := do dropSeconds (← dropClock cs)

/-- Drop a time zone, if there is one. -/
def dropZone : List Char → Option (List Char)
  | 'Z' :: rest | 'z' :: rest => some rest
  | '+' :: rest | '-' :: rest => dropClock rest
  | rest => some rest

/-- Whether a spelling is a date, a time, or a date with a time and perhaps a zone. -/
def isMoment (cs : List Char) : Bool :=
  match dropDate cs with
  | some [] => true
  | some (c :: rest) =>
      (c = 'T' || c = 't' || c = ' ') && ((dropTime rest).bind dropZone) = some []
  | none => dropTime cs = some []

/-! ## All kinds -/

/-- The value of an unquoted spelling. -/
def scalar? (cs : List Char) : Option Toml :=
  if cs = ['t', 'r', 'u', 'e'] then some (.bool true)
  else if cs = ['f', 'a', 'l', 's', 'e'] then some (.bool false)
  else if isMoment cs then some (.moment cs)
  else
    match int? cs with
    | some n => some (.int n)
    | none => (real? cs).map .real

/-- Read an unquoted value.  A date may be followed by one space and a time. -/
def readScalar (cs : List Char) : Option (Toml × List Char) := do
  let spelling := cs.takeWhile isScalarChar
  let rest := cs.dropWhile isScalarChar
  match dropDate spelling, rest with
  | some [], ' ' :: c :: more =>
      if c.isDigit then
        let long := spelling ++ ' ' :: (c :: more).takeWhile isScalarChar
        if isMoment long then return (.moment long, (c :: more).dropWhile isScalarChar) else none
      else return (.moment spelling, rest)
  | _, _ => return (← scalar? spelling, rest)

end BoundSql.Toml
