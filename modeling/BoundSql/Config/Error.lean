import BoundSql.Report
import BoundSql.Json.Basic
import BoundSql.Text.Quoted

/-!
# Configuration errors

An error names what is wrong with an option, a table or a configuration file.  The
fault of an option value is either its kind or a rule of the option.
-/

namespace BoundSql

/-- The recognised options. -/
inductive OptionKey where
  | dialect
  | table
  | columns
  | idColumn
  | maxParams
  | maxInsertRows
  | maxPageSize
deriving DecidableEq

namespace OptionKey

/-- All options in declaration order. -/
def all : List OptionKey :=
  [dialect, table, columns, idColumn, maxParams, maxInsertRows, maxPageSize]

def name : OptionKey → String
  | dialect => "dialect"
  | table => "table"
  | columns => "columns"
  | idColumn => "id_column"
  | maxParams => "max_params"
  | maxInsertRows => "max_insert_rows"
  | maxPageSize => "max_page_size"

def ofName? (s : String) : Option OptionKey := all.find? fun k => k.name = s

theorem ofName?_name (k : OptionKey) : ofName? k.name = some k := by
  cases k <;> decide

end OptionKey

/-- What an option expects of its value. -/
inductive Expectation where
  | count
  | size
  | text
  | sequence
deriving DecidableEq

def Expectation.words : Expectation → String
  | .count => "usize"
  | .size => "u64"
  | .text => "a string"
  | .sequence => "a sequence"

/-- The words for a document found in place of an expected value. -/
def Json.kindWords : Json → String
  | .null => "null"
  | .bool b => "boolean \x60" ++ (if b then "true" else "false") ++ "\x60"
  | .int n => "integer \x60" ++ n.repr ++ "\x60"
  | .real x => "floating point \x60" ++ Binary64.documentLayout.text x ++ "\x60"
  | .str s => "string " ++ Text.quoted s
  | .arr _ => "sequence"
  | .obj _ => "map"

/-- What is wrong with the value of an option. -/
inductive OptionFault where
  /-- The value is of another kind than expected. -/
  | wrongKind (found : String) (expected : Expectation)
  /-- The value is of the right kind and out of range. -/
  | outOfRange (found : String) (expected : Expectation)
  | blankColumn (column : String)
  | blank
  | belowOne
deriving DecidableEq

def OptionFault.reason : OptionFault → String
  | .wrongKind found expected => "invalid type: " ++ found ++ ", expected " ++ expected.words
  | .outOfRange found expected => "invalid value: " ++ found ++ ", expected " ++ expected.words
  | .blankColumn column => "blank column name " ++ Text.quoted column
  | .blank => "must not be blank"
  | .belowOne => "must be at least 1"

/-- Why options or a configuration are refused. -/
inductive ConfigError where
  | unknownOption (key : String)
  | invalidOption (key : OptionKey) (fault : OptionFault)
  | unknownDialect (name : String)
  | invalidTable (name : String)
  | missingTable (name : String)
  | duplicateTable (name : String)
  | alreadyExists
  /-- A configuration file that is not a configuration. -/
  | malformed
  /-- A configuration that has no annotated form. -/
  | unannotatable
  /-- A configuration file that cannot be read or written. -/
  | inaccessible
deriving DecidableEq

def ConfigError.report : ConfigError → Report
  | .unknownOption key =>
      ⟨"sqlward_config::unknown_option", "Unknown option: " ++ key,
        some ("Recognized options: " ++ String.intercalate ", " (OptionKey.all.map OptionKey.name))⟩
  | .invalidOption key fault =>
      ⟨"sqlward_config::invalid_option_value",
        "Invalid value for option \x60" ++ key.name ++ "\x60: " ++ fault.reason, none⟩
  | .unknownDialect name =>
      ⟨"sqlward_config::unknown_dialect", "Unknown dialect: " ++ name,
        some "Supported dialects: sqlite, postgres, mysql, sqlserver"⟩
  | .invalidTable name =>
      ⟨"sqlward_config::invalid_table", "Invalid table name: " ++ Text.quoted name,
        some "Table names must be non-blank"⟩
  | .missingTable name =>
      ⟨"sqlward_config::missing_table", "Table not configured: " ++ name,
        some "Add a [[tables]] entry for it to your config file"⟩
  | .duplicateTable name =>
      ⟨"sqlward_config::duplicate_table", "Duplicate table: " ++ name,
        some "Each [[tables]] entry must have a unique name"⟩
  | .alreadyExists =>
      ⟨"sqlward_config::already_exists", "Configuration file already exists",
        some "Remove the existing config file or use a different location"⟩
  | .malformed =>
      ⟨"sqlward_config::toml_deserialize", "TOML deserialization error",
        some "Check your config file syntax and structure"⟩
  | .unannotatable => ⟨"sqlward_config::toml", "Failed to parse TOML", none⟩
  | .inaccessible => ⟨"sqlward_config::io", "IO error", none⟩

end BoundSql
