import BoundSql.Text.Printable

/-!
# Quoted text

The quoted form of a text stands between double quotes.  Quotes, backslashes and
the common control characters have two-character escapes; any other character
without a glyph of its own is written as its code point in braces.
-/

namespace BoundSql.Text

/-- Lower-case hexadecimal digits of a number, without leading zeros. -/
def hexDigits (n : Nat) : List Char := Nat.toDigits 16 n

/-- Lower-case hexadecimal digits of a number, filled with zeros to a width. -/
def hexPadded (width n : Nat) : List Char :=
  let digits := hexDigits n
  List.replicate (width - digits.length) '0' ++ digits

def quotedChar (c : Char) : List Char :=
  match c with
  | '"' => ['\\', '"']
  | '\\' => ['\\', '\\']
  | '\n' => ['\\', 'n']
  | '\r' => ['\\', 'r']
  | '\t' => ['\\', 't']
  | '\x00' => ['\\', '0']
  | c => if isPrintable c then [c] else ['\\', 'u', '\x7b'] ++ hexDigits c.toNat ++ ['\x7d']

def quotedChars (cs : List Char) : List Char := '"' :: cs.flatMap quotedChar ++ ['"']

def quoted (s : String) : String := String.ofList (quotedChars s.toList)

end BoundSql.Text
