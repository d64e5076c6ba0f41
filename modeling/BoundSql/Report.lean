import BoundSql.Text.Lines

/-!
# Error reports

A report is the presentation of an error: a stable code, a message that names the
offending input, and a hint where one helps.
-/

namespace BoundSql

/-- How an error is presented. -/
structure Report where
  code : String
  message : String
  help : Option String := none
deriving DecidableEq

namespace Report

/-- A text with its lines set off by margins, one for the first line and one for the others. -/
def indented (first others : String) (text : String) : String :=
  String.intercalate "\n"
    ((Text.lines text).mapIdx fun i line => (if i = 0 then first else others) ++ line)

/-- A report as it is shown: the code, the message with a mark in front, and the hint. -/
def text (r : Report) : String :=
  r.code ++ "\n\n" ++ indented "  × " "  │ " r.message ++ "\n" ++
    match r.help with
    | some help => indented "  help: " "        " help ++ "\n"
    | none => ""

end Report

end BoundSql
