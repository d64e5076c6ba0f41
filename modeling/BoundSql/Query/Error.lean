import BoundSql.Report
import BoundSql.Filter.Operator
import BoundSql.Text.Quoted

/-!
# Statement errors

Each error is a reason why a statement cannot be built, or why the identifiers
that a driver reports do not fit the rows that were inserted.
-/

namespace BoundSql

/-- Why an operand does not fit its operator. -/
inductive Misfit where
  | takesNoValue
  | takesNoList
  | nested
  /-- The filter as a whole is not an object. -/
  | notAnObject (found : String)
deriving DecidableEq

def Misfit.reason : Misfit → String
  | .takesNoValue => "takes no comparison value, pass an empty string"
  | .takesNoList => "cannot compare against a list of values"
  | .nested => "expects scalar values, not nested arrays or objects"
  | .notAnObject found => "expects an object of column conditions, got " ++ found

/-- Why a page cannot be requested. -/
inductive PageFault where
  | numberTooSmall (number : Nat)
  | sizeOutOfRange (size maximum : Nat)
  | offsetOutOfRange (number size : Nat)
  | unordered (dialect : Dialect)
deriving DecidableEq

def PageFault.reason : PageFault → String
  | .numberTooSmall number => "page must be at least 1, got " ++ number.repr
  | .sizeOutOfRange size maximum =>
      "page size must be between 1 and " ++ maximum.repr ++ ", got " ++ size.repr
  | .offsetOutOfRange number size =>
      "page " ++ number.repr ++ " of size " ++ size.repr ++ " is out of range"
  | .unordered dialect => dialect.name ++ " requires an ORDER BY clause to paginate"

/-- Why a statement cannot be built or its result cannot be read. -/
inductive QueryError where
  | invalidIdentifier (identifier : String)
  | unknownColumn (table column : String)
  | invalidOperator (code : String)
  | operandMismatch (column operator : String) (misfit : Misfit)
  | nullOperand (column operator : String)
  | emptyFilterList (column : String)
  | emptyUpdateClause
  | missingInsertData
  | raggedInsertRows (row expected found : Nat)
  | duplicateColumn (column : String)
  | invalidPagination (fault : PageFault)
  | invalidSortDirection (text : String)
  | rowTooWide (width maxParams : Nat)
  | idCountMismatch (expected found : Nat)
deriving DecidableEq

/-- The presentation of a statement error. -/
def QueryError.report : QueryError → Report
  | .invalidIdentifier identifier =>
      ⟨"sqlward_query::invalid_identifier", "Invalid identifier: " ++ Text.quoted identifier,
        some ("Identifiers must be non-blank; qualified names need a non-empty segment on each " ++
          "side of every \x60.\x60")⟩
  | .unknownColumn table column =>
      ⟨"sqlward_query::unknown_column",
        "Unknown column \x60" ++ column ++ "\x60 for table \x60" ++ table ++ "\x60",
        some "Add the column to the table's whitelist in your configuration"⟩
  | .invalidOperator code =>
      ⟨"sqlward_query::invalid_operator", "\x60" ++ code ++ "\x60 is not a valid operator",
        some ("Valid operators: " ++
          String.intercalate ", " (Operator.all.map Operator.code))⟩
  | .operandMismatch column operator misfit =>
      ⟨"sqlward_query::operator_value_mismatch",
        "Operator \x60" ++ operator ++ "\x60 on column \x60" ++ column ++ "\x60 " ++
          misfit.reason, none⟩
  | .nullOperand column operator =>
      ⟨"sqlward_query::invalid_operator_for_null",
        "Operator \x60" ++ operator ++ "\x60 on column \x60" ++ column ++
          "\x60 cannot compare against null",
        some "Use \x60nu\x60 or \x60nn\x60 to check for null"⟩
  | .emptyFilterList column =>
      ⟨"sqlward_query::empty_filter_list",
        "Filter list for column \x60" ++ column ++ "\x60 is empty",
        some "Provide at least one value, or drop the condition"⟩
  | .emptyUpdateClause =>
      ⟨"sqlward_query::empty_update_clause",
        "Update requires a non-empty set clause and a non-empty where clause", none⟩
  | .missingInsertData =>
      ⟨"sqlward_query::missing_insert_data",
        "Insert requires at least one column and one row of values", none⟩
  | .raggedInsertRows row expected found =>
      ⟨"sqlward_query::ragged_insert_rows",
        "Insert row " ++ row.repr ++ " has " ++ found.repr ++ " values, expected " ++
          expected.repr,
        some "Every row must have one value per insert column"⟩
  | .duplicateColumn column =>
      ⟨"sqlward_query::duplicate_column",
        "Column \x60" ++ column ++ "\x60 is listed more than once", none⟩
  | .invalidPagination fault =>
      ⟨"sqlward_query::invalid_pagination", "Invalid pagination: " ++ fault.reason, none⟩
  | .invalidSortDirection text =>
      ⟨"sqlward_query::invalid_sort_direction",
        "Invalid sort direction: " ++ Text.quoted text,
        some "Use \x60asc\x60 or \x60desc\x60"⟩
  | .rowTooWide width maxParams =>
      ⟨"sqlward_query::row_too_wide",
        "A row of " ++ width.repr ++ " values exceeds the limit of " ++ maxParams.repr ++
          " bound parameters per statement",
        some "Insert fewer columns per row, or raise max_params if the driver allows it"⟩
  | .idCountMismatch expected found =>
      ⟨"sqlward_query::id_count_mismatch",
        "Expected " ++ expected.repr ++ " generated ids, the driver reported " ++ found.repr,
        none⟩

end BoundSql
