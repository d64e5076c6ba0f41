import BoundSql.Options.Basic
import BoundSql.Sql.Fragment

/-!
# Whitelisted names

Every name in a statement comes through here: the table and the identifier column
as configured, and any other column only if the whitelist has it.
-/

namespace BoundSql.Options

def quote (o : Options) (name : String) : Except QueryError Identifier :=
  Identifier.ofString o.dialect name

def tableName (o : Options) : Except QueryError Name := (o.quote o.table).map .quoted

def columnName (o : Options) (column : String) : Except QueryError Name :=
  if o.hasColumn column then (o.quote column).map .quoted
  else .error (.unknownColumn o.table column)

/-- The quoted names of columns, up to the first that is refused. -/
def columnNames (o : Options) : List String → Except QueryError (List Name)
  | [] => .ok []
  | column :: rest => do
      let name ← o.columnName column
      let names ← o.columnNames rest
      return name :: names

/-- The quoted name of the identifier column, if one is configured. -/
def idColumnName (o : Options) : Except QueryError (Option Name) :=
  match o.idColumn with
  | none => .ok none
  | some column => (o.quote column).map fun i => some (.quoted i)

end BoundSql.Options
