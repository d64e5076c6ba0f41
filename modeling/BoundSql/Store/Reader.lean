import BoundSql.Store.Syntax
import BoundSql.Text.Blank
import BoundSql.Text.Case

/-!
# Reading statements

A statement is cut into lexemes, each with its byte position; keywords are words in
any ASCII case.  The grammar is read front to back, every reader returning what it
leaves.
-/

namespace BoundSql.Store

/-- The smallest unit of a statement. -/
inductive Token where
  /-- A bare word, as written. -/
  | word (text : String)
  /-- A quoted name, without its quotes. -/
  | quoted (name : String)
  | number (n : Nat)
  | sign (text : String)
  /-- A placeholder with its index among all placeholders. -/
  | placeholder (index : Nat)
deriving DecidableEq

/-- A token with its byte position and its width in bytes. -/
structure Lexeme where
  token : Token
  offset : Nat
  width : Nat
deriving DecidableEq

def byteWidth (cs : List Char) : Nat := cs.foldl (fun n c => n + c.utf8Size) 0

/-- Drop characters from the front until so many bytes are gone. -/
def dropBytes : Nat → List Char → List Char
  | 0, cs => cs
  | _ + 1, [] => []
  | n + 1, c :: cs => dropBytes (n + 1 - c.utf8Size) cs

/-- Take characters from the front until so many bytes are taken. -/
def takeBytes : Nat → List Char → List Char
  | 0, _ => []
  | _ + 1, [] => []
  | n + 1, c :: cs => c :: takeBytes (n + 1 - c.utf8Size) cs

/-- Whether a character may stand inside a bare word. -/
def isWordChar (c : Char) : Bool := c.isAlphanum || c == '_' || c == '$' || 0x80 ≤ c.toNat

def closingQuote? : Char → Option Char
  | '"' => some '"'
  | '\x60' => some '\x60'
  | '[' => some ']'
  | _ => none

/-- Read a quoted name after its opening quote, a doubled closing quote standing for itself:
the name, the number of characters read and the rest. -/
def readQuoted (close : Char) : List Char → Option (List Char × Nat × List Char)
  | [] => none
  | c :: rest =>
      if c = close then
        match rest with
        | d :: rest' =>
            if d = close then
              (readQuoted close rest').map fun r => (close :: r.1, r.2.1 + 2, r.2.2)
            else some ([], 1, rest)
        | [] => some ([], 1, [])
      else (readQuoted close rest).map fun r => (c :: r.1, r.2.1 + 1, r.2.2)

/-- The sign at the front of the input and the number of its characters. -/
def readSign? : List Char → Option (String × Nat)
  | '<' :: '>' :: _ => some ("<>", 2)
  | '<' :: '=' :: _ => some ("<=", 2)
  | '>' :: '=' :: _ => some (">=", 2)
  | c :: _ => if "<>=(),.*;".toList.contains c then some (c.toString, 1) else none
  | [] => none

/-- Read one token: the token and the number of its characters.  `holes` placeholders came
before. -/
def readToken? (holes : Nat) (cs : List Char) : Option (Token × Nat) :=
  match cs with
  | [] => none
  | '?' :: _ => some (.placeholder holes, 1)
  | c :: rest =>
      match closingQuote? c with
      | some close => (readQuoted close rest).map fun r => (.quoted (String.ofList r.1), r.2.1 + 1)
      | none =>
          if c.isDigit then
            let digits := cs.takeWhile Char.isDigit
            some (.number ((String.ofList digits).toNat?.getD 0), digits.length)
          else if isWordChar c then
            let word := cs.takeWhile isWordChar
            some (.word (String.ofList word), word.length)
          else (readSign? cs).map fun r => (.sign r.1, r.2)

/-- Cut a statement into lexemes; every lexeme takes at least one of `bound` characters. -/
def lexFrom (holes offset : Nat) : Nat → List Char → Option (List Lexeme)
  | _, [] => some []
  | 0, _ :: _ => none
  | bound + 1, c :: rest =>
      if Text.isBlankChar c then lexFrom holes (offset + c.utf8Size) bound rest
      else do
        let (token, length) ← readToken? holes (c :: rest)
        let width := byteWidth ((c :: rest).take length)
        let holes := match token with
          | .placeholder _ => holes + 1
          | _ => holes
        let others ← lexFrom holes (offset + width) bound ((c :: rest).drop length)
        return ⟨token, offset, width⟩ :: others

/-- Cut a statement into lexemes. -/
def lex? (sql : String) : Option (List Lexeme) :=
  let cs := sql.toList
  lexFrom 0 0 cs.length cs

/-- Whether a token is a placeholder. -/
def Token.isPlaceholder : Token → Bool
  | .placeholder _ => true
  | _ => false

/-- The byte positions of the placeholders. -/
def placeholderOffsets (ls : List Lexeme) : List Nat :=
  (ls.filter fun l => l.token.isPlaceholder).map Lexeme.offset

/-- A reader consumes lexemes at the front and returns the others. -/
abbrev Grammar (α : Type) := List Lexeme → Option (α × List Lexeme)

def keyword (name : String) : List Lexeme → Option (List Lexeme)
  | ⟨.word text, _, _⟩ :: rest => if Text.lower text = name then some rest else none
  | _ => none

/-- Read several keywords. -/
def keywords : List String → List Lexeme → Option (List Lexeme)
  | [], ls => some ls
  | name :: names, ls => do keywords names (← keyword name ls)

def sign (text : String) : List Lexeme → Option (List Lexeme)
  | ⟨.sign s, _, _⟩ :: rest => if s = text then some rest else none
  | _ => none

/-- Read one segment of a name. -/
def segment : Grammar String
  | ⟨.word text, _, _⟩ :: rest => some (text, rest)
  | ⟨.quoted name, _, _⟩ :: rest => some (name, rest)
  | _ => none

/-- Read the segments of a name; at most `bound` follow the first. -/
def path : Nat → Grammar (List String)
  | 0, ls => do
      let (s, rest) ← segment ls
      return ([s], rest)
  | bound + 1, ls => do
      let (s, rest) ← segment ls
      match sign "." rest with
      | some rest => do
          let (others, rest) ← path bound rest
          return (s :: others, rest)
      | none => return ([s], rest)

/-- Read a name with its position. -/
def ref (ls : List Lexeme) : Option (Ref × List Lexeme) := do
  let first ← ls.head?
  let (p, rest) ← path ls.length ls
  return (⟨p, first.offset⟩, rest)

/-- Read items separated by commas; every item takes at least one lexeme. -/
def commaList {α : Type} (item : Grammar α) : Nat → Grammar (List α)
  | 0, _ => none
  | bound + 1, ls => do
      let (first, rest) ← item ls
      match sign "," rest with
      | some rest => do
          let (others, rest) ← commaList item bound rest
          return (first :: others, rest)
      | none => return ([first], rest)

/-- Read items separated by commas. -/
def list {α : Type} (item : Grammar α) (ls : List Lexeme) : Option (List α × List Lexeme) :=
  commaList item ls.length ls

/-- Read something between parentheses. -/
def inParens {α : Type} (item : Grammar α) (ls : List Lexeme) : Option (α × List Lexeme) := do
  let rest ← sign "(" ls
  let (a, rest) ← item rest
  return (a, ← sign ")" rest)

def operand : Grammar Operand
  | ⟨.placeholder index, _, _⟩ :: rest => some (.param index, rest)
  | ⟨.number n, _, _⟩ :: rest => some (.integer n, rest)
  | ls => (keyword "null" ls).map fun rest => (.null, rest)

/-- The comparison written by a sign. -/
def comparison? : String → Option Comparison
  | "=" => some .equal
  | "<>" => some .notEqual
  | "<" => some .less
  | "<=" => some .lessOrEqual
  | ">" => some .greater
  | ">=" => some .greaterOrEqual
  | _ => none

def negatable (negated : Bool) (ls : List Lexeme) : Option (Test × List Lexeme) :=
  match keyword "like" ls with
  | some rest => (operand rest).map fun r => (.like negated r.1, r.2)
  | none => do
      let rest ← keyword "in" ls
      let (xs, rest) ← inParens (list operand) rest
      return (.member negated xs, rest)

/-- Read the test of a column. -/
def test (ls : List Lexeme) : Option (Test × List Lexeme) :=
  match ls with
  | ⟨.sign s, _, _⟩ :: rest => do
      let c ← comparison? s
      let (x, rest) ← operand rest
      return (.compare c x, rest)
  | _ =>
      match keyword "is" ls with
      | some rest =>
          match keywords ["not", "null"] rest with
          | some rest => some (.isNull true, rest)
          | none => (keyword "null" rest).map fun rest => (.isNull false, rest)
      | none =>
          match keyword "not" ls with
          | some rest => negatable true rest
          | none => negatable false ls

def conditionOf (ls : List Lexeme) : Option ((Ref × Test) × List Lexeme) := do
  let (r, rest) ← ref ls
  let (t, rest) ← test rest
  return ((r, t), rest)

def conjunction : Nat → Grammar Conditions
  | 0, _ => none
  | bound + 1, ls => do
      let (first, rest) ← conditionOf ls
      match keyword "and" rest with
      | some rest => do
          let (others, rest) ← conjunction bound rest
          return (first :: others, rest)
      | none => return ([first], rest)

def restriction (ls : List Lexeme) : Option (Conditions × List Lexeme) :=
  match keyword "where" ls with
  | some rest => conjunction rest.length rest
  | none => some ([], ls)

def orderTerm (ls : List Lexeme) : Option (OrderTerm × List Lexeme) := do
  let (r, rest) ← ref ls
  match keyword "desc" rest with
  | some rest => return ((r, true), rest)
  | none => return ((r, false), (keyword "asc" rest).getD rest)

def ordering (ls : List Lexeme) : Option (List OrderTerm × List Lexeme) :=
  match keywords ["order", "by"] ls with
  | some rest => list orderTerm rest
  | none => some ([], ls)

/-- Read a number. -/
def numeral : Grammar Nat
  | ⟨.number n, _, _⟩ :: rest => some (n, rest)
  | _ => none

/-- Read an optional window: how many rows, after how many skipped. -/
def window (ls : List Lexeme) : Option (Option (Nat × Nat) × List Lexeme) :=
  match keyword "limit" ls with
  | none => some (none, ls)
  | some rest => do
      let (limit, rest) ← numeral rest
      match keyword "offset" rest with
      | none => return (some (limit, 0), rest)
      | some rest => do
          let (offset, rest) ← numeral rest
          return (some (limit, offset), rest)

/-- Read the count of rows; without an alias its title is the text as written. -/
def counted (sql : List Char) (ls : List Lexeme) : Option (Selection × List Lexeme) := do
  let first ← ls.head?
  let rest ← keyword "count" ls
  let rest ← sign "(" rest
  let rest ← sign "*" rest
  let close ← rest.head?
  let rest ← sign ")" rest
  match keyword "as" rest with
  | some rest => do
      let (title, rest) ← segment rest
      return (.count title, rest)
  | none =>
      let title := takeBytes (close.offset + close.width - first.offset)
        (dropBytes first.offset sql)
      return (.count (String.ofList title), rest)

/-- Read what a selection returns. -/
def selection (sql : List Char) (ls : List Lexeme) : Option (Selection × List Lexeme) :=
  match sign "*" ls with
  | some rest => some (.all, rest)
  | none =>
      match counted sql ls with
      | some found => some found
      | none => (list ref ls).map fun r => (.columns r.1, r.2)

/-- Read a selection after its keyword. -/
def selectStatement (sql : List Char) (ls : List Lexeme) : Option (Statement × List Lexeme) := do
  let (what, rest) ← selection sql ls
  let rest ← keyword "from" rest
  let (table, rest) ← path rest.length rest
  let (conditions, rest) ← restriction rest
  let (order, rest) ← ordering rest
  let (w, rest) ← window rest
  return (.select what table conditions order w, rest)

/-- Read an insert after its keyword. -/
def insertStatement (ls : List Lexeme) : Option (Statement × List Lexeme) := do
  let rest ← keyword "into" ls
  let (table, rest) ← path rest.length rest
  let (columns, rest) ← match inParens (list ref) rest with
    | some found => some found
    | none => some ([], rest)
  let rest ← keyword "values" rest
  let (rows, rest) ← list (inParens (list operand)) rest
  let (returning, rest) ← match keyword "returning" rest with
    | some rest => list ref rest
    | none => some ([], rest)
  return (.insert table columns rows returning, rest)

def assignment (ls : List Lexeme) : Option ((Ref × Operand) × List Lexeme) := do
  let (r, rest) ← ref ls
  let rest ← sign "=" rest
  let (x, rest) ← operand rest
  return ((r, x), rest)

/-- Read an update after its keyword. -/
def updateStatement (ls : List Lexeme) : Option (Statement × List Lexeme) := do
  let (table, rest) ← path ls.length ls
  let rest ← keyword "set" rest
  let (assignments, rest) ← list assignment rest
  let (conditions, rest) ← restriction rest
  return (.update table assignments conditions, rest)

/-- Read a deletion after its keyword. -/
def deleteStatement (ls : List Lexeme) : Option (Statement × List Lexeme) := do
  let rest ← keyword "from" ls
  let (table, rest) ← path rest.length rest
  let (conditions, rest) ← restriction rest
  return (.delete table conditions, rest)

def statement (sql : List Char) (ls : List Lexeme) : Option (Statement × List Lexeme) :=
  match keyword "select" ls with
  | some rest => selectStatement sql rest
  | none =>
      match keyword "insert" ls with
      | some rest => insertStatement rest
      | none =>
          match keyword "update" ls with
          | some rest => updateStatement rest
          | none => do deleteStatement (← keyword "delete" ls)

/-- A statement with the byte positions of its placeholders. -/
structure Prepared where
  statement : Statement
  placeholders : List Nat

/-- Read a whole statement; a final semicolon is allowed. -/
def prepare? (sql : String) : Option Prepared := do
  let ls ← lex? sql
  let (s, rest) ← statement sql.toList ls
  if ((sign ";" rest).getD rest).isEmpty then some ⟨s, placeholderOffsets ls⟩ else none

end BoundSql.Store
