import BoundSql.Config.Basic
import BoundSql.Toml.Annotation
import BoundSql.Toml.Writer

/-!
# Configuration files

A configuration is written with its keys in a fixed order, absent values left out,
and can be annotated with the documentation of its keys.  Reading accepts the keys
in any order and no others.
-/

namespace BoundSql

/-! ## Writing -/

namespace Config

def tablesKey : String := "tables"

/-- The documentation of the keys of a configuration. -/
def docs : Toml.Docs where
  container := "sqlward configuration"
  fields :=
    [(OptionKey.dialect.name,
      "SQL dialect shared by every table: sqlite, postgres, mysql or sqlserver."),
     (OptionKey.maxPageSize.name,
      "Largest page size accepted by paginated selects.\nDefault: 1000"),
     (tablesKey, "Whitelisted tables.")]

end Config

namespace TableConfig

def nameKey : String := "name"

/-- The documentation of the keys of a table. -/
def docs : Toml.Docs where
  container := "A whitelisted table."
  fields :=
    [(nameKey, "Table name. May be schema-qualified (\x60schema.table\x60)."),
     (OptionKey.columns.name, "Columns that filters, ordering and writes may reference."),
     (OptionKey.idColumn.name, "Column holding generated identifiers, reported by inserts."),
     (OptionKey.maxParams.name, "Override for the dialect's bound parameter ceiling."),
     (OptionKey.maxInsertRows.name,
      "Override for the dialect's per-statement INSERT row ceiling.")]

def statements (t : TableConfig) : List Toml.Statement :=
  [.element Config.tablesKey, .text nameKey t.name, .texts OptionKey.columns.name t.columns] ++
    (t.idColumn.map (.text OptionKey.idColumn.name)).toList ++
    (t.maxParams.map fun n => .count OptionKey.maxParams.name n.toNat).toList ++
    (t.maxInsertRows.map fun n => .count OptionKey.maxInsertRows.name n.toNat).toList

end TableConfig

namespace Config

def tableStatements : List TableConfig → List Toml.Statement
  | [] => [.texts tablesKey []]
  | ts => ts.flatMap TableConfig.statements

def document (c : Config) : Toml.Document where
  statements :=
    [.text OptionKey.dialect.name c.dialect.name] ++
      (c.maxPageSize.map fun n => .count OptionKey.maxPageSize.name n.toNat).toList ++
      tableStatements c.tables
  trailer := []

def text (c : Config) : String := c.document.text

/-- The text of a configuration as a document to be edited, with comments on its keys and on
those of its first table. -/
def annotated (c : Config) : Except ConfigError Toml.Document :=
  match Toml.Document.parseEditable? c.text with
  | some d => .ok ((d.annotateFields docs []).annotateFields TableConfig.docs [tablesKey])
  | none => .error .unannotatable

end Config

/-! ## Reading -/

namespace Toml

def readText : Toml → Option String
  | .str s => some s
  | _ => none

def readTexts : Toml → Option (List String)
  | .arr _ items => items.mapM readText
  | _ => none

/-- Read a number of sixty-four bits. -/
def readCount : Toml → Option UInt64
  | .int n => if 0 ≤ n ∧ n < UInt64.size then some (UInt64.ofNat n.toNat) else none
  | _ => none

/-- Whether a value is an empty array or table. -/
def isEmpty : Toml → Bool
  | .arr _ items => items.isEmpty
  | .table _ members => members.isEmpty
  | _ => false

/-- Read a dialect: its name, or a table with the name as its only key and nothing in it. -/
def readDialect : Toml → Option Dialect
  | .str s => Dialect.ofName? s
  | .table _ [(name, v)] => if v.isEmpty then Dialect.ofName? name else none
  | _ => none

def Members.get? (members : Members) (key : String) : Option Toml := members.lookup key

/-- Read the value of a key that has to be there. -/
def Members.read {α : Type} (members : Members) (key : String) (read : Toml → Option α) :
    Option α :=
  (members.get? key).bind read

/-- Read the value of a key that may be absent. -/
def Members.readOptional {α : Type} (members : Members) (key : String)
    (read : Toml → Option α) : Option (Option α) :=
  match members.get? key with
  | some v => (read v).map some
  | none => some none

/-- Whether a table has no other keys than those of a list. -/
def Members.onlyKeys (members : Members) (keys : List String) : Bool :=
  members.all fun m => keys.contains m.1

end Toml

namespace TableConfig

def keys : List String := docs.fields.map Prod.fst

/-- Read a table from its keys. -/
def ofMembers? (m : Toml.Members) : Option TableConfig := do
  if !m.onlyKeys keys then none
  return {
    name := ← m.read nameKey Toml.readText
    columns := ← m.read OptionKey.columns.name Toml.readTexts
    idColumn := ← m.readOptional OptionKey.idColumn.name Toml.readText
    maxParams := ← m.readOptional OptionKey.maxParams.name Toml.readCount
    maxInsertRows := ← m.readOptional OptionKey.maxInsertRows.name Toml.readCount }

/-- Read a table, which may also be an array of at least its five values in order. -/
def ofToml? : Toml → Option TableConfig
  | .table _ members => ofMembers? members
  | .arr _ (name :: columns :: idColumn :: maxParams :: maxInsertRows :: _) => do
      return {
        name := ← name.readText
        columns := ← columns.readTexts
        idColumn := some (← idColumn.readText)
        maxParams := some (← maxParams.readCount)
        maxInsertRows := some (← maxInsertRows.readCount) }
  | _ => none

end TableConfig

namespace Config

def keys : List String := docs.fields.map Prod.fst

def readTables : Toml → Option (List TableConfig)
  | .arr _ items => items.mapM TableConfig.ofToml?
  | _ => none

/-- Read a configuration from its keys. -/
def ofMembers? (m : Toml.Members) : Option Config := do
  if !m.onlyKeys keys then none
  return {
    dialect := ← m.read OptionKey.dialect.name Toml.readDialect
    maxPageSize := ← m.readOptional OptionKey.maxPageSize.name Toml.readCount
    tables := ← m.read tablesKey readTables }

def parse (text : String) : Except ConfigError Config :=
  match (Toml.Document.parse? text).bind Toml.Document.members? |>.bind ofMembers? with
  | some c => .ok c
  | none => .error .malformed

/-- Read and resolve a configuration. -/
def load (text : String) : Traced ConfigError Config := do
  let c ← Traced.ofExcept (parse text)
  c.resolve

end Config

/-! ## Files -/

/-- What is found where a configuration file is looked for. -/
inductive Config.Source where
  | text (content : String)
  | missing
  | unreadable
deriving DecidableEq

namespace Config

/-- The configuration of a file, which has to exist. -/
def ofSource : Source → Traced ConfigError Config
  | .text content => load content
  | _ => .fail .inaccessible

/-- The configuration in force: that of the file at a path, or the default one. -/
def inForce (path : String) : Source → Traced ConfigError Config
  | .text content => load content
  | .missing => do
      Traced.log (.usingDefaults path)
      Config.default.resolve
  | .unreadable => .fail .inaccessible

/-- The text of a new configuration file, which must not replace anything. -/
def generate (occupied : Bool) : Except ConfigError String :=
  if occupied then .error .alreadyExists else Config.default.annotated.map Toml.Document.text

end Config

end BoundSql
