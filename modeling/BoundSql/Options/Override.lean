import BoundSql.Options.Basic

/-!
# Overriding options

Overrides are checked as a whole before one is applied: unknown keys first, then
the dialect, then the other entries in order, then the result.  A new dialect
brings its own limits, which later entries of the same call may change again.
-/

namespace BoundSql

/-- Options to change, in order; a later entry for a key wins. -/
abbrev Overrides := List (String × Json)

namespace Json

def readCount (expected : Expectation) : Json → Except OptionFault Nat
  | .int (.ofNat n) => .ok n
  | .int n => .error (.outOfRange (Json.int n).kindWords expected)
  | other => .error (.wrongKind other.kindWords expected)

def readText : Json → Except OptionFault String
  | .str s => .ok s
  | other => .error (.wrongKind other.kindWords .text)

/-- Read a list of texts; the first item that is none is at fault. -/
def readTexts : Json → Except OptionFault (List String)
  | .arr items => items.mapM readText
  | other => .error (.wrongKind other.kindWords .sequence)

def readNullable {α : Type} (read : Json → Except OptionFault α) : Json →
    Except OptionFault (Option α)
  | .null => .ok none
  | other => (read other).map some

end Json

namespace Options

/-- Recognise every key or name the first unknown one. -/
def recognise (overrides : Overrides) : Except ConfigError (List (OptionKey × Json)) :=
  overrides.mapM fun entry =>
    match OptionKey.ofName? entry.1 with
    | some key => .ok (key, entry.2)
    | none => .error (.unknownOption entry.1)

def faultOf {α : Type} (key : OptionKey) : Except OptionFault α → Except ConfigError α
  | .ok a => .ok a
  | .error fault => .error (.invalidOption key fault)

def readDialect (value : Json) : Except ConfigError Dialect :=
  match faultOf .dialect value.readText with
  | .error e => .error e
  | .ok name =>
      match Dialect.ofAlias? name with
      | some dialect => .ok dialect
      | none => .error (.unknownDialect name)

/-- Apply the first dialect entry, if there is one. -/
def applyDialect (o : Options) (entries : List (OptionKey × Json)) : Except ConfigError Options :=
  match entries.find? fun entry => entry.1 = .dialect with
  | none => .ok o
  | some entry => (readDialect entry.2).map o.withDialect

/-- Apply one entry; the dialect has been applied before. -/
def applyEntry (o : Options) (entry : OptionKey × Json) : Except ConfigError Options :=
  match entry.1 with
  | .dialect => .ok o
  | .table => (faultOf .table entry.2.readText).map fun v => { o with table := v }
  | .columns => (faultOf .columns entry.2.readTexts).map fun v => { o with columns := v }
  | .idColumn =>
      (faultOf .idColumn (entry.2.readNullable Json.readText)).map fun v => { o with idColumn := v }
  | .maxParams =>
      (faultOf .maxParams (entry.2.readCount .count)).map fun v => { o with maxParams := v }
  | .maxInsertRows =>
      (faultOf .maxInsertRows (entry.2.readNullable (Json.readCount .count))).map fun v =>
        { o with maxInsertRows := v }
  | .maxPageSize =>
      (faultOf .maxPageSize (entry.2.readCount .size)).map fun v => { o with maxPageSize := v }

/-- Apply entries in order up to the first fault. -/
def applyEntries (o : Options) : List (OptionKey × Json) → Except ConfigError Options
  | [] => .ok o
  | entry :: rest =>
      match o.applyEntry entry with
      | .error e => .error e
      | .ok next => next.applyEntries rest

/-- The options with overrides applied, or the first error; the old options stay as they are. -/
def reconfigure (o : Options) (overrides : Overrides) : Except ConfigError Options := do
  let entries ← recognise overrides
  -- the dialect goes first, because it brings limits that other entries may change
  let o ← o.applyDialect entries
  let o ← o.applyEntries entries
  o.validated

end Options

end BoundSql
