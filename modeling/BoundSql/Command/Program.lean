import BoundSql.Command.Arguments
import BoundSql.Command.Files
import BoundSql.Command.Operation
import BoundSql.Trace.Line

/-!
# The program

A run reads its arguments, finds its configuration file, carries out one command
and prints what the command reported.  It is a function from the files, the
environment and the arguments to what is printed and the files it leaves.
-/

namespace BoundSql

/-- What a run finds besides files and arguments. -/
structure Surroundings where
  directory : Path
  environment : List (String × String)
  input : String

/-- How a run ends. -/
inductive Ending where
  | help
  | version (text : String)
  | misuse
  | success (printed : Printed)
  | failure (printed : Printed) (report : Report)

namespace Ending

/-- The exit status of a run. -/
def status : Ending → Nat
  | .help | .version _ | .success _ => 0
  | .failure .. => 1
  | .misuse => 2

end Ending

namespace Surroundings

/-- The value of a variable. -/
def get? (s : Surroundings) (name : String) : Option String := s.environment.lookup name

def directoryText (s : Surroundings) : String := Files.pathText s.directory

/-- A path below a directory; a path from the root stands for itself. -/
def below (directory path : String) : String :=
  if Files.isAbsolute path ∨ directory.isEmpty then path
  else if directory.toList.getLast? = some '/' then directory ++ path
  else directory ++ "/" ++ path

/-- The directory for configuration files. -/
def configHome (s : Surroundings) : String :=
  match s.get? "XDG_CONFIG_HOME" with
  | some home => home
  | none => below ((s.get? "HOME").getD ".") ".config"

/-- The path of the configuration file: the one given, or that of the environment. -/
def configPath (s : Surroundings) : Option String → String
  | some path => below s.directoryText path
  | none =>
      match s.get? "SQLWARD_CONFIG" with
      | some path => path
      | none => below (below s.configHome "sqlward") "config.toml"

def paths (s : Surroundings) (i : Invocation) : List String :=
  s.configPath i.config ::
    match i.command with
    | .execute _ _ database _ => [database]
    | _ => []

/-- The text of a request: the argument, or the input if there is none or only a dash. -/
def requestText (s : Surroundings) : Option String → String
  | none => s.input
  | some text => if text = "-" then s.input else text

end Surroundings

/-- A computation that may change files. -/
abbrev FileStep (α : Type) := Step Files CommandError α

namespace Command

/-- Find what a path leads to. -/
def place (s : Surroundings) (path : String) : FileStep Place := do
  let fs ← Step.get
  return fs.find s.directory path

/-- Show the configuration file, or the default one with its documentation. -/
def runShowConfig (s : Surroundings) (path : String) : FileStep Unit := do
  let p ← place s path
  match p.source with
  | .text content => Step.log (.output content)
  | .missing => do
      Step.log (.configMissing path)
      let d ← Step.lift ((Traced.ofExcept Config.default.annotated).mapError .config)
      Step.log (.output d.text)
  | .unreadable => Step.fail .inaccessible

def runWriteConfig (s : Surroundings) (path : String) : FileStep Unit := do
  let p ← place s path
  let text ← Step.lift ((Traced.ofExcept (Config.generate p.isOccupied)).mapError .config)
  let fs ← Step.get
  match fs.writeNew s.directory path text with
  | some fs => do
      Step.set fs
      Step.log (.defaultsWritten path)
  | none => Step.fail (.config .inaccessible)

def tableOptions (s : Surroundings) (path table : String) : FileStep Options := do
  let p ← place s path
  let c ← Step.lift ((Config.inForce path p.source).mapError .config)
  Step.lift ((c.optionsFor table).mapError .config)

def runRequest (s : Surroundings) (o : Options) (kind : StatementKind) (name text : String) :
    FileStep Unit := fun fs =>
  match OpenDatabase.ofName? fs s.directory name with
  | none => (.fail (.db (.connection "unable to open database file")), fs)
  | some db =>
      let (t, session) := executeRequest db.executor kind text ⟨o, db.store⟩
      (t, db.close session.driver fs)

/-- Carry out a command with the configuration file at a path. -/
def run (s : Surroundings) (path : String) : Command → FileStep Unit
  | .showConfig => runShowConfig s path
  | .writeConfig => runWriteConfig s path
  | .build kind table request => do
      let o ← tableOptions s path table
      Step.lift (buildRequest kind o (s.requestText request))
  | .execute kind table database request => do
      let o ← tableOptions s path table
      runRequest s o kind database (s.requestText request)

end Command

namespace Program

def version : String := "sqlward-cli 0.1.0"

/-- How the program is used. -/
def usage : String :=
  version ++ "\n\n" ++
    "Usage: sqlward [OPTIONS] <COMMAND>\n\n" ++
    "Commands:\n" ++
    "  config     Print the configuration file to stdout\n" ++
    "  defconfig  Generate default config\n" ++
    "  build      Print the SQL and parameters for a JSON request without running it\n" ++
    "             <KIND> --table <TABLE> [REQUEST]\n" ++
    "  exec       Run a JSON request against a database\n" ++
    "             <KIND> --table <TABLE> --db <DB> [REQUEST]\n\n" ++
    "Kinds: select, insert, update, delete\n\n" ++
    "Options:\n" ++
    "  -v, --verbose          Set output verbosity\n" ++
    "  -q, --quiet            Suppress outputs\n" ++
    "  -j, --json             Output as json\n" ++
    "      --no-color         Disable colors in output\n" ++
    "  -c, --config <CONFIG>  Provide custom config file\n" ++
    "  -h, --help             Print help\n" ++
    "  -V, --version          Print version\n"

def format (i : Invocation) : LineFormat :=
  if i.json then .document else .words (!i.noColour)

/-- Carry out an invocation. -/
def runInvocation (s : Surroundings) (i : Invocation) (fs : Files) : Ending × Files :=
  let (t, fs) := i.command.run s (s.configPath i.config) fs
  let printed := Printed.ofEntries (format i) i.level (Note.logs t.notes)
  match t.result with
  | .ok () => (.success printed, fs)
  | .error e => (.failure printed e.report, fs)

def run (s : Surroundings) (arguments : List String) (fs : Files) : Ending × Files :=
  match Arguments.parse arguments with
  | .ok i => runInvocation s i fs
  | .error .help => (.help, fs)
  | .error .version => (.version version, fs)
  | .error .misuse => (.misuse, fs)

end Program

end BoundSql
