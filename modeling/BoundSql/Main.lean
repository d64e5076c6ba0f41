import BoundSql.Command.Program

/-!
# The command line

Everything is decided by `Program.run`.  This module looks at the files that an
invocation names, hands them over together with the environment, prints what comes
back and writes the files that have changed.
-/

namespace BoundSql.CommandLine

/-- Look at what stands under a path; what is there and cannot be read as a file is a directory. -/
def look (fs : Files) (p : Path) : IO Files := do
  match ← (IO.FS.readBinFile (Files.pathText p)).toBaseIO with
  | .ok bytes => return fs.put p (.ofBytes bytes)
  | .error (.noFileOrDirectory ..) => return fs
  | .error _ => return { fs with directories := p :: fs.directories }

/-- Look at everything that is passed on the way along a path. -/
def lookAlong (current : Path) (fs : Files) (path : String) : IO Files :=
  (Files.visited (Files.origin current path) (Files.components path)).foldlM look fs

/-- Read the rest of the input. -/
partial def readInput (input : IO.FS.Stream) (read : String) : IO String := do
  let line ← input.getLine
  if line.isEmpty then return read else readInput input (read ++ line)

def setVariables (names : List String) : IO (List (String × String)) :=
  names.filterMapM fun name => do return (← IO.getEnv name).map fun text => (name, text)

/-- Find the surroundings of an invocation and the files that it may use. -/
def surroundings (i : Invocation) : IO (Surroundings × Files) := do
  let directory := Files.pathOf (toString (← IO.currentDir))
  let environment ← setVariables ["SQLWARD_CONFIG", "XDG_CONFIG_HOME", "HOME"]
  let input ← if i.readsInput then readInput (← IO.getStdin) "" else pure ""
  let s : Surroundings := ⟨directory, environment, input⟩
  return (s, ← (s.paths i).foldlM (lookAlong directory) ⟨[], []⟩)

/-- Write the files that have changed. -/
def keep (before after : Files) : IO Unit :=
  (before.changes after).forM fun (p, text) => do
    IO.FS.createDirAll (Files.pathText p.dropLast)
    IO.FS.writeFile (Files.pathText p) text

/-- Print what a run reported. -/
def print (e : Ending) : IO Unit := do
  let output ← IO.getStdout
  let diagnostics ← IO.getStderr
  match e with
  | .help => output.putStr Program.usage
  | .version text => output.putStrLn text
  | .misuse => diagnostics.putStr Program.usage
  | .success printed => do
      output.putStr printed.output
      diagnostics.putStr printed.diagnostics
  | .failure printed report => do
      output.putStr printed.output
      diagnostics.putStr (printed.diagnostics ++ report.text)

end BoundSql.CommandLine

open BoundSql in
/-- Run the program on the arguments of the process. -/
def main (arguments : List String) : IO UInt32 := do
  let (s, before) ← match Arguments.parse arguments with
    | .ok i => CommandLine.surroundings i
    | .error _ => pure (⟨[], [], ""⟩, ⟨[], []⟩)
  let (ending, after) := Program.run s arguments before
  CommandLine.print ending
  CommandLine.keep before after
  return UInt32.ofNat ending.status
