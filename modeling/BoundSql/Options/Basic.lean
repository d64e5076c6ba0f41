import BoundSql.Config.Error
import BoundSql.Dialect
import BoundSql.Text.Blank

/-!
# Table options

The options of a table are the whitelist that every statement is checked against,
together with the limits of its dialect.  Valid options have a visible table name,
visible column names and positive limits.
-/

namespace BoundSql

/-- What statements over one table may mention and how large they may grow. -/
structure Options where
  dialect : Dialect
  table : String
  columns : List String
  idColumn : Option String
  maxParams : Nat
  maxInsertRows : Option Nat
  maxPageSize : Nat
deriving DecidableEq, Inhabited

namespace Options

/-- The page size allowed where nothing else is configured. -/
def defaultMaxPageSize : Nat := 1000

/-- Options of a table with the limits of its dialect, not yet checked. -/
def defaults (dialect : Dialect) (table : String) (columns : List String) : Options where
  dialect := dialect
  table := table
  columns := columns
  idColumn := none
  maxParams := dialect.defaultMaxParams
  maxInsertRows := dialect.defaultMaxInsertRows
  maxPageSize := defaultMaxPageSize

/-- Check the options in a fixed order and name the first defect. -/
def validate (o : Options) : Except ConfigError Unit :=
  if Text.isBlank o.table then
    .error (.invalidTable o.table)
  else match o.columns.find? Text.isBlank with
  | some column => .error (.invalidOption .columns (.blankColumn column))
  | none =>
    if o.idColumn.any Text.isBlank then .error (.invalidOption .idColumn .blank)
    else if o.maxParams = 0 then .error (.invalidOption .maxParams .belowOne)
    else if o.maxInsertRows = some 0 then .error (.invalidOption .maxInsertRows .belowOne)
    else if o.maxPageSize = 0 then .error (.invalidOption .maxPageSize .belowOne)
    else .ok ()

def validated (o : Options) : Except ConfigError Options :=
  match o.validate with
  | .ok () => .ok o
  | .error e => .error e

/-- Checked options of a table with the limits of its dialect. -/
def new (dialect : Dialect) (table : String) (columns : List String) :
    Except ConfigError Options :=
  (defaults dialect table columns).validated

/-- Name the column whose generated values inserts report; the name is not checked. -/
def withIdColumn (o : Options) (column : String) : Options :=
  { o with idColumn := some column }

def hasColumn (o : Options) (column : String) : Bool := o.columns.contains column

/-- Change the dialect.  Another dialect brings its own limits. -/
def withDialect (o : Options) (dialect : Dialect) : Options :=
  if dialect = o.dialect then o
  else
    { o with
      dialect := dialect
      maxParams := dialect.defaultMaxParams
      maxInsertRows := dialect.defaultMaxInsertRows }

/-- The options as a document, one member for each option. -/
def toMembers (o : Options) : List (String × Json) :=
  [(OptionKey.dialect.name, .str o.dialect.name),
   (OptionKey.table.name, .str o.table),
   (OptionKey.columns.name, .arr (o.columns.map .str)),
   (OptionKey.idColumn.name, Json.ofOption .str o.idColumn),
   (OptionKey.maxParams.name, .int o.maxParams),
   (OptionKey.maxInsertRows.name, Json.ofOption (fun (n : Nat) => .int n) o.maxInsertRows),
   (OptionKey.maxPageSize.name, .int o.maxPageSize)]

def toJson (o : Options) : Json := .obj o.toMembers

end Options

end BoundSql
