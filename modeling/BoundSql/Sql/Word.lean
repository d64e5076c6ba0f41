/-!
# The vocabulary of statements

Outside quoted names, numbers and placeholders a statement consists of these words
only.  None of their texts holds a quote, a bracket or a placeholder.
-/

namespace BoundSql

/-- A word or a sign of the statement language. -/
inductive Word where
  | space
  | comma
  | dot
  | leftParen
  | rightParen
  | star
  | select
  | count
  | «from»
  | «where»
  | and
  | orderBy
  | asc
  | desc
  | limit
  | offset
  | rows
  | fetchNext
  | rowsOnly
  | insertInto
  | output
  | inserted
  | values
  | returning
  | update
  | set
  | deleteFrom
  | equal
  | notEqual
  | less
  | lessOrEqual
  | greater
  | greaterOrEqual
  | like
  | notLike
  | «in»
  | notIn
  | isNull
  | isNotNull
deriving DecidableEq

namespace Word

def text : Word → String
  | space => " "
  | comma => ","
  | dot => "."
  | leftParen => "("
  | rightParen => ")"
  | star => "*"
  | select => "SELECT"
  | count => "COUNT"
  | «from» => "FROM"
  | «where» => "WHERE"
  | and => "AND"
  | orderBy => "ORDER BY"
  | asc => "ASC"
  | desc => "DESC"
  | limit => "LIMIT"
  | offset => "OFFSET"
  | rows => "ROWS"
  | fetchNext => "FETCH NEXT"
  | rowsOnly => "ROWS ONLY"
  | insertInto => "INSERT INTO"
  | output => "OUTPUT"
  | inserted => "inserted"
  | values => "VALUES"
  | returning => "RETURNING"
  | update => "UPDATE"
  | set => "SET"
  | deleteFrom => "DELETE FROM"
  | equal => "="
  | notEqual => "<>"
  | less => "<"
  | lessOrEqual => "<="
  | greater => ">"
  | greaterOrEqual => ">="
  | like => "LIKE"
  | notLike => "NOT LIKE"
  | «in» => "IN"
  | notIn => "NOT IN"
  | isNull => "IS NULL"
  | isNotNull => "IS NOT NULL"

def chars (w : Word) : List Char := w.text.toList

theorem text_ne_empty (w : Word) : w.text ≠ "" := by
  cases w <;> decide

end Word

end BoundSql
