import BoundSql.Trace.Event
import BoundSql.Trace.Log

/-!
# Command line arguments

Arguments are read from left to right and the first one that cannot be understood
decides.  The general options are understood before and after the name of the
command; where one is given in both places, the later place counts.
-/

namespace BoundSql

/-- What the program is asked to do. -/
inductive Command where
  | showConfig
  | writeConfig
  | build (kind : StatementKind) (table : String) (request : Option String)
  | execute (kind : StatementKind) (table database : String) (request : Option String)
deriving DecidableEq

/-- A command with the general options. -/
structure Invocation where
  verbosity : Nat
  quiet : Bool
  json : Bool
  noColour : Bool
  config : Option String
  command : Command
deriving DecidableEq

/-- Why no command is run. -/
inductive ArgumentStop where
  | help
  | version
  | misuse
deriving DecidableEq

namespace Arguments

/-- An option without a value. -/
inductive Flag where
  | verbose
  | quiet
  | json
  | noColour
  | help
  | version
deriving DecidableEq

/-- An option with a value. -/
inductive Setting where
  | config
  | table
  | database
deriving DecidableEq

/-- The commands by name. -/
inductive CommandName where
  | showConfig
  | writeConfig
  | build
  | execute
deriving DecidableEq

/-- What the arguments at one place have said so far. -/
structure Given where
  verbose : Nat := 0
  quiet : Bool := false
  json : Bool := false
  noColour : Bool := false
  config : Option String := none
  table : Option String := none
  database : Option String := none
  kind : Option StatementKind := none
  request : Option String := none
deriving DecidableEq

def CommandName.ofString? : String → Option CommandName
  | "config" => some .showConfig
  | "defconfig" => some .writeConfig
  | "build" => some .build
  | "exec" => some .execute
  | _ => none

def kindOfString? : String → Option StatementKind
  | "select" => some .select
  | "insert" => some .insert
  | "update" => some .update
  | "delete" => some .delete
  | _ => none

def CommandName.takesRequest : CommandName → Bool
  | .build | .execute => true
  | _ => false

/-- An option by a name that is valid at a place; no command is the place before its name. -/
def long? (place : Option CommandName) : String → Option (Flag ⊕ Setting)
  | "verbose" => some (.inl .verbose)
  | "quiet" => some (.inl .quiet)
  | "json" => some (.inl .json)
  | "no-color" => some (.inl .noColour)
  | "help" => some (.inl .help)
  | "version" => if place.isNone then some (.inl .version) else none
  | "config" => some (.inr .config)
  | "table" => if place.any CommandName.takesRequest then some (.inr .table) else none
  | "db" => if place = some .execute then some (.inr .database) else none
  | _ => none

/-- An option by a letter that is valid at a place. -/
def short? (place : Option CommandName) : Char → Option (Flag ⊕ Setting)
  | 'v' => some (.inl .verbose)
  | 'q' => some (.inl .quiet)
  | 'j' => some (.inl .json)
  | 'h' => some (.inl .help)
  | 'V' => if place.isNone then some (.inl .version) else none
  | 'c' => some (.inr .config)
  | 't' => if place.any CommandName.takesRequest then some (.inr .table) else none
  | _ => none

/-- Note a flag; only the verbose one may be repeated. -/
def Given.flag (g : Given) : Flag → Except ArgumentStop Given
  | .verbose => .ok { g with verbose := g.verbose + 1 }
  | .quiet => if g.quiet then .error .misuse else .ok { g with quiet := true }
  | .json => if g.json then .error .misuse else .ok { g with json := true }
  | .noColour => if g.noColour then .error .misuse else .ok { g with noColour := true }
  | .help => .error .help
  | .version => .error .version

/-- Note a value, which may not be given twice; a database needs a name. -/
def Given.setting (g : Given) (value : String) : Setting → Except ArgumentStop Given
  | .config => if g.config.isSome then .error .misuse else .ok { g with config := some value }
  | .table => if g.table.isSome then .error .misuse else .ok { g with table := some value }
  | .database =>
      if g.database.isSome || value.isEmpty then .error .misuse
      else .ok { g with database := some value }

/-- Note an argument that is no option: the kind of statement, then the request. -/
def Given.positional (place : Option CommandName) (g : Given) (value : String) :
    Except ArgumentStop Given :=
  if !place.any CommandName.takesRequest then .error .misuse
  else
    match g.kind, g.request with
    | none, _ =>
        match kindOfString? value with
        | some kind => .ok { g with kind := some kind }
        | none => .error .misuse
    | some _, none => .ok { g with request := some value }
    | some _, some _ => .error .misuse

/-- Whether an argument can be the value of the option before it. -/
def isValue (s : String) : Bool := s = "-" || s.toList.head? ≠ some '-'

/-- Note options bundled behind one dash.  The last one may take the rest as its value, or wait
for the next argument. -/
def Given.bundle (place : Option CommandName) (g : Given) :
    List Char → Except ArgumentStop (Given × Option Setting)
  | [] => .ok (g, none)
  | c :: rest =>
      match short? place c with
      | none => .error .misuse
      | some (.inl f) => do
          let g ← g.flag f
          g.bundle place rest
      | some (.inr s) =>
          match rest with
          | [] => .ok (g, some s)
          | '=' :: value => do return (← g.setting (String.ofList value) s, none)
          | value => do return (← g.setting (String.ofList value) s, none)

/-- Note an option with a long name, which may have a value behind an equals sign. -/
def Given.long (place : Option CommandName) (g : Given) (cs : List Char) :
    Except ArgumentStop (Given × Option Setting) :=
  let name := String.ofList (cs.takeWhile (· ≠ '='))
  match long? place name, cs.dropWhile (· ≠ '=') with
  | none, _ => .error .misuse
  | some (.inl f), [] => do return (← g.flag f, none)
  | some (.inl _), _ => .error .misuse
  | some (.inr s), [] => .ok (g, some s)
  | some (.inr s), _ :: value => do return (← g.setting (String.ofList value) s, none)

/-- What an argument is, before it is looked up. -/
inductive Form where
  | separator
  | long (name : List Char)
  | bundle (letters : List Char)
  | plain

def formOf (s : String) : Form :=
  match s.toList with
  | ['-', '-'] => .separator
  | '-' :: '-' :: name => .long name
  | '-' :: c :: rest => .bundle (c :: rest)
  | _ => .plain

/-- Note the arguments after a separator. -/
def readPositionals (place : Option CommandName) (g : Given) :
    List String → Except ArgumentStop Given
  | [] => .ok g
  | s :: rest => do readPositionals place (← g.positional place s) rest

/-- Note all arguments after the name of a command.  `waiting` is the option whose value comes
next. -/
def readCommand (place : CommandName) (waiting : Option Setting) (g : Given) :
    List String → Except ArgumentStop Given
  | [] => if waiting.isSome then .error .misuse else .ok g
  | s :: rest =>
      match waiting with
      | some setting =>
          if isValue s then do readCommand place none (← g.setting s setting) rest
          else .error .misuse
      | none =>
          match formOf s with
          | .separator => readPositionals (some place) g rest
          | .long name => do
              let (g, waiting) ← g.long (some place) name
              readCommand place waiting g rest
          | .bundle letters => do
              let (g, waiting) ← g.bundle (some place) letters
              readCommand place waiting g rest
          | .plain => do readCommand place none (← g.positional (some place) s) rest

/-- How a request for help on commands ends: only a command and help itself have one. -/
def helpOn : List String → ArgumentStop
  | [] => .help
  | [name] => if name = "help" ∨ (CommandName.ofString? name).isSome then .help else .misuse
  | _ => .misuse

/-- Note all arguments up to the name of the command; return it with the arguments after it. -/
def readGeneral (waiting : Option Setting) (g : Given) :
    List String → Except ArgumentStop (Given × CommandName × List String)
  | [] => .error .misuse
  | s :: rest =>
      match waiting with
      | some setting =>
          if isValue s then do readGeneral none (← g.setting s setting) rest
          else .error .misuse
      | none =>
          match formOf s with
          | .separator => .error .misuse
          | .long name => do
              let (g, waiting) ← g.long none name
              readGeneral waiting g rest
          | .bundle letters => do
              let (g, waiting) ← g.bundle none letters
              readGeneral waiting g rest
          | .plain =>
              match CommandName.ofString? s with
              | some name => .ok (g, name, rest)
              | none => .error (if s = "help" then helpOn rest else .misuse)

/-- The command that the arguments after its name describe, if none is missing. -/
def Given.command? (g : Given) : CommandName → Option Command
  | .showConfig => some .showConfig
  | .writeConfig => some .writeConfig
  | .build => do return .build (← g.kind) (← g.table) g.request
  | .execute => do return .execute (← g.kind) (← g.table) (← g.database) g.request

def parse (arguments : List String) : Except ArgumentStop Invocation := do
  let (general, name, rest) ← readGeneral none {} arguments
  let given ← readCommand name none {} rest
  match given.command? name with
  | none => .error .misuse
  | some command =>
      return {
        verbosity := if given.verbose = 0 then general.verbose else given.verbose
        quiet := given.quiet || general.quiet
        json := given.json || general.json
        noColour := given.noColour || general.noColour
        config := given.config <|> general.config
        command := command }

end Arguments

namespace Invocation

def readsInput (i : Invocation) : Bool :=
  match i.command with
  | .build _ _ request | .execute _ _ _ request => request.all fun text => text = "-"
  | _ => false

/-- The least important level that is shown. -/
def level (i : Invocation) : LogLevel :=
  if i.quiet then .error
  else if 2 ≤ i.verbosity then .trace
  else if i.verbosity = 1 then .debug
  else .info

end Invocation

end BoundSql
