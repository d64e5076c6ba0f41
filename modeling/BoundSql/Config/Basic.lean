import BoundSql.Options.Logged
import BoundSql.Text.Repeat

/-!
# Configurations

A configuration lists the tables that may be used, with one dialect for all of
them.  It resolves if no table is listed twice and every table has valid options;
a resolved configuration serves each table as it is written.
-/

namespace BoundSql

/-- A table as a configuration lists it.  Absent limits are those of the dialect. -/
structure TableConfig where
  name : String
  columns : List String
  idColumn : Option String
  maxParams : Option UInt64
  maxInsertRows : Option UInt64
deriving DecidableEq

/-- A configuration. -/
structure Config where
  dialect : Dialect
  maxPageSize : Option UInt64
  tables : List TableConfig
deriving DecidableEq

/-- An override for a value that may be absent. -/
def Overrides.ofOption {α : Type} (key : OptionKey) (encode : α → Json) (v : Option α) :
    Overrides :=
  v.toList.map fun a => (key.name, encode a)

def Overrides.count (n : UInt64) : Json := .int n.toNat

def TableConfig.overrides (t : TableConfig) (maxPageSize : Option UInt64) : Overrides :=
  Overrides.ofOption .idColumn .str t.idColumn ++
    Overrides.ofOption .maxParams Overrides.count t.maxParams ++
    Overrides.ofOption .maxInsertRows Overrides.count t.maxInsertRows ++
    Overrides.ofOption .maxPageSize Overrides.count maxPageSize

namespace Config

/-- The page size allowed where a file says nothing. -/
def defaultMaxPageSize : UInt64 := 1000

def default : Config where
  dialect := .sqlite
  maxPageSize := some defaultMaxPageSize
  tables := [⟨"users", ["id", "name", "email", "created_at"], some "id", none, none⟩]

def table? (c : Config) (name : String) : Option TableConfig :=
  c.tables.find? fun t => t.name = name

def tableOptions (c : Config) (t : TableConfig) : Traced ConfigError Options := do
  let o ← Traced.ofExcept (Options.new c.dialect t.name t.columns)
  o.reconfigured (t.overrides c.maxPageSize)

def optionsFor (c : Config) (name : String) : Traced ConfigError Options :=
  match c.table? name with
  | some t => c.tableOptions t
  | none => .fail (.missingTable name)

/-- The configuration with a page size. -/
def withDefaults (c : Config) : Config :=
  { c with maxPageSize := some (c.maxPageSize.getD defaultMaxPageSize) }

def checkTables (c : Config) : List TableConfig → Traced ConfigError Unit
  | [] => pure ()
  | t :: rest => do
      let _ ← c.tableOptions t
      c.checkTables rest

/-- Check that no name is listed twice, then the options of every table. -/
def check (c : Config) : Traced ConfigError Unit :=
  match Text.firstRepeated? [] (c.tables.map TableConfig.name) with
  | some name => .fail (.duplicateTable name)
  | none => c.checkTables c.tables

/-- The configuration with a page size, if it is valid. -/
def resolve (c : Config) : Traced ConfigError Config := do
  c.withDefaults.check
  return c.withDefaults

end Config

end BoundSql
