import BoundSql.Trace.Traced

/-!
# Lines of a log

Entries that are important enough become lines, in words or as documents.  Results
go to the output, everything else to the diagnostics; only words are coloured.
-/

namespace BoundSql

/-- The colours of a terminal. -/
inductive Colour where
  | red
  | green
  | yellow
  | blue
  | magenta
  | cyan
  | darkGray
deriving DecidableEq

/-- The number that selects a colour. -/
def Colour.code : Colour → Nat
  | red => 31
  | green => 32
  | yellow => 33
  | blue => 34
  | magenta => 35
  | cyan => 36
  | darkGray => 90

def Colour.paint (c : Colour) (text : String) : String :=
  "\x1b[" ++ c.code.repr ++ "m" ++ text ++ "\x1b[0m"

/-- The form of the lines. -/
inductive LineFormat where
  | words (coloured : Bool)
  | document
deriving DecidableEq

/-- What has been written to the two streams. -/
structure Printed where
  output : String
  diagnostics : String
deriving DecidableEq

namespace LogLevel

/-- The colour of the tag of a level; results have no tag. -/
def colour? : LogLevel → Option Colour
  | error => some .red
  | warn => some .yellow
  | info => none
  | debug => some .blue
  | trace => some .magenta

/-- The word for a level in documents. -/
def title : LogLevel → String
  | error => "ERROR"
  | warn => "WARN"
  | info => "INFO"
  | debug => "DEBUG"
  | trace => "TRACE"

end LogLevel

namespace LogEntry

def colour? : LogEntry → Option Colour
  | .statement _ => some .cyan
  | .heading .. => some .green
  | _ => none

/-- A text in a colour, if there is one. -/
def painted (coloured : Bool) (c : Option Colour) (text : String) : String :=
  match coloured, c with
  | true, some c => c.paint text
  | _, _ => text

/-- The tag of an entry, with a space after it; results have none. -/
def tag (coloured : Bool) (e : LogEntry) : String :=
  match e.level.colour? with
  | none => ""
  | some c =>
      painted coloured (some c) ("[" ++ e.level.word ++ " " ++ e.component.word ++ "]") ++ " "

/-- A field with a space before it. -/
def fieldWords (coloured : Bool) (field : String × String) : String :=
  " " ++ painted coloured (some .darkGray) (field.1 ++ "=" ++ field.2)

def words (coloured : Bool) (e : LogEntry) : String :=
  e.tag coloured ++ painted coloured e.colour? e.message ++
    String.join (e.fields.map (fieldWords coloured))

def document (e : LogEntry) : Json :=
  .obj ([("level", .str e.level.title), ("message", .str e.message)] ++
    e.fields.map fun f => (f.1, .str f.2))

def line (format : LineFormat) (e : LogEntry) : String :=
  (match format with
    | .words coloured => e.words coloured
    | .document => e.document.text) ++ "\n"

end LogEntry

namespace Printed

/-- The lines of the entries that are at least as important as a level. -/
def ofEntries (format : LineFormat) (limit : LogLevel) (entries : List LogEntry) : Printed :=
  let shown := entries.filter fun e => e.level.shownAt limit
  let lines (es : List LogEntry) : String := String.join (es.map (LogEntry.line format))
  ⟨lines (shown.filter fun e => e.level = .info),
    lines (shown.filter fun e => e.level ≠ .info)⟩

end Printed

end BoundSql
