import BoundSql.Toml.Reader

/-!
# Configuration documents

A document is a list of statements, each with the blank and comment lines in front
of it.  Its text is what was read, line for line, with the assignments in braces
gathered; its tree is what the statements say together, if no two of them contradict
each other.
-/

namespace BoundSql.Toml

/-- Statements, and the characters after the last of them. -/
structure Document where
  statements : List Statement
  trailer : List Char

/-! ## Text -/

def Document.chars (d : Document) : List Char :=
  d.statements.flatMap (fun s => s.chars ++ ['\n']) ++ d.trailer

def Document.text (d : Document) : String := String.ofList d.chars

/-! ## Tree -/

/-- Add what a clause says to the tree. -/
def Clause.apply (current : List Key) (members : Members) (c : Clause) : Option Members :=
  let (path, key) := splitLast (names c.path.keys)
  match c with
  | .assignment _ v => within false (fun _ m => assign path key v m) (names current) .header members
  | .header _ => within false (fun _ m => alter key openTable m) path .header members
  | .implied _ => within false (fun _ m => alter key openTable m) path .header members
  | .element _ => within false (fun _ m => alter key openElement m) path .header members

/-- Add what clauses say to the tree, one after the other. -/
def build (current : List Key) (members : Members) : List Clause → Option Members
  | [] => some members
  | c :: rest => do build (c.scope current) (← c.apply current members) rest

/-- The tree of a document, unless it gives a key two values. -/
def Document.members? (d : Document) : Option Members :=
  build [] [] (d.statements.map Statement.clause)

/-- Whether all integers of a document fit sixty-four bits with a sign. -/
def Document.isNarrow (d : Document) : Bool :=
  d.statements.all fun s =>
    match s.clause with
    | .assignment _ v => v.isNarrow
    | _ => true

/-! ## Reading -/

/-- Join carriage returns to the line feeds after them; elsewhere they are not allowed. -/
def joinReturns : List Char → Option (List Char)
  | [] => some []
  | '\r' :: '\n' :: rest => (joinReturns rest).map ('\n' :: ·)
  | c :: rest => if c = '\r' then none else (joinReturns rest).map (c :: ·)

/-- Drop the mark that may stand at the start of a file. -/
def dropMark : List Char → List Char
  | '\uFEFF' :: rest => rest
  | cs => cs

/-- Drop the end of a line: space, a comment and the line break. -/
def lineEnd (cs : List Char) : Option (List Char) :=
  let rest := skipSpace cs
  let rest := if rest.head? = some '#' then rest.dropWhile fun c => !isControl c && c ≠ '\n'
    else rest
  match rest with
  | [] => some []
  | '\n' :: rest => some rest
  | _ => none

def readClause : Reader Statement
  | '[' :: '[' :: rest => do
      match ← readPath maxDepth rest with
      | (path, ']' :: ']' :: rest) => return (⟨[], .element path, []⟩, rest)
      | _ => none
  | '[' :: rest => do
      match ← readPath maxDepth rest with
      | (path, ']' :: rest) => return (⟨[], .header path, []⟩, rest)
      | _ => none
  | cs => readAssignment (readValue maxDepth) cs

/-- Read a statement after the characters in front of it, up to the start of the next line. -/
def readStatement (lead : List Char) (cs : List Char) : Option (Statement × List Char) := do
  let (s, stop) ← readClause cs
  let next ← lineEnd stop
  let line := consumed next stop
  let tail := if line.getLast? = some '\n' then line.dropLast else line
  return (s.between lead tail, next)

/-- Read statements to the end of the input.  Every statement consumes input, so the length of
the input bounds their number. -/
def readStatements : Nat → List Char → Option Document
  | bound, cs => do
      let rest ← skipTrivia false cs
      match rest with
      | [] => return ⟨[], cs⟩
      | _ =>
          match bound with
          | 0 => none
          | bound + 1 => do
              let (s, next) ← readStatement (consumed rest cs) rest
              let d ← readStatements bound next
              return ⟨s :: d.statements, d.trailer⟩
termination_by structural bound => bound

def Document.parse? (text : String) : Option Document := do
  let cs ← joinReturns (dropMark text.toList)
  readStatements cs.length cs

end BoundSql.Toml
