import BoundSql.Config.File
import BoundSql.Store.Snapshot
import BoundSql.Text.Lines

/-!
# Files

Files stand in directories and are found by paths, from the root or from the
directory in which the program runs.  A database is a file that holds a store; a new
one is empty until a table is made.
-/

namespace BoundSql

/-- What a file holds. -/
inductive FileContent where
  | text (content : String)
  | database (store : Store)
  /-- Bytes that are no text. -/
  | other

namespace FileContent

def ofBytes (bytes : ByteArray) : FileContent :=
  match String.fromUTF8? bytes with
  | none => .other
  | some s =>
      match Store.Snapshot.parse? s with
      | some tables => .database ⟨tables, none⟩
      | none => .text s

def kept? : FileContent → Option String
  | .text content => some content
  | .database store => some (Store.Snapshot.text store.tables)
  | .other => none

end FileContent

abbrev Path := List String

/-- Directories and files by their paths. -/
structure Files where
  directories : List Path
  files : List (Path × FileContent)

/-- What a path leads to. -/
inductive Place where
  | file (path : Path) (content : FileContent)
  | directory (path : Path)
  /-- Nothing, in a directory. -/
  | free (path : Path)
  /-- Nothing, and no directory either. -/
  | nowhere
  /-- A file where a directory is needed. -/
  | blocked

namespace Files

def isDirectory (fs : Files) (p : Path) : Bool := p.isEmpty || fs.directories.contains p

/-- What is found under a name in a directory. -/
def entry (fs : Files) (p : Path) : Place :=
  if fs.isDirectory p then .directory p
  else
    match fs.files.lookup p with
    | some content => .file p content
    | none => .free p

/-- Follow one component of a path. -/
def step (fs : Files) (at_ : Place) (component : String) : Place :=
  match at_ with
  | .directory p =>
      if component = "" ∨ component = "." then .directory p
      else if component = ".." then .directory p.dropLast
      else fs.entry (p ++ [component])
  | .file .. => .blocked
  | .free _ => .nowhere
  | other => other

def components (path : String) : List String :=
  (path.toList.splitOn '/').map String.ofList

/-- Whether a path starts at the root. -/
def isAbsolute (path : String) : Bool := path.toList.head? = some '/'

def pathOf (text : String) : Path := (components text).filter fun c => c ≠ ""

def pathText (p : Path) : String := "/" ++ String.intercalate "/" p

/-- The directory at which a path starts. -/
def origin (current : Path) (path : String) : Path := if isAbsolute path then [] else current

def find (fs : Files) (current : Path) (path : String) : Place :=
  if path.isEmpty then .nowhere
  else (components path).foldl fs.step (.directory (origin current path))

/-- The places that are looked at while components are followed. -/
def visited (p : Path) : List String → List Path
  | [] => []
  | component :: rest =>
      if component = "" ∨ component = "." then visited p rest
      else if component = ".." then visited p.dropLast rest
      else (p ++ [component]) :: visited (p ++ [component]) rest

def put (fs : Files) (p : Path) (content : FileContent) : Files :=
  { fs with files := (p, content) :: fs.files.filter fun f => f.1 ≠ p }

/-- Make a directory under a name, unless a file is in the way. -/
def makeDirectory (fs : Files) (p : Path) : Option Files :=
  match fs.entry p with
  | .directory _ => some fs
  | .free _ => some { fs with directories := p :: fs.directories }
  | _ => none

def makeDirectories (fs : Files) (p : Path) : List String → Option Files
  | [] => some fs
  | component :: rest =>
      if component = ".." then makeDirectories fs p.dropLast rest
      else do
        let fs ← fs.makeDirectory (p ++ [component])
        makeDirectories fs (p ++ [component]) rest

/-- Write a new text file and the directories in front of it. -/
def writeNew (fs : Files) (current : Path) (path content : String) : Option Files := do
  let named := (components path).filter fun c => c ≠ "" && c ≠ "."
  let fs ← fs.makeDirectories (origin current path) named.dropLast
  match fs.find current path with
  | .free p => return fs.put p (.text content)
  | _ => none

def changes (before after : Files) : List (Path × String) :=
  after.files.filterMap fun f =>
    match f.2.kept? with
    | none => none
    | some text =>
        if (before.files.lookup f.1).bind FileContent.kept? = some text then none
        else some (f.1, text)

end Files

namespace Place

/-- Whether there is something. -/
def isOccupied : Place → Bool
  | .file .. | .directory _ => true
  | _ => false

def source : Place → Config.Source
  | .file _ (.text content) => .text content
  | .free _ | .nowhere => .missing
  | _ => .unreadable

end Place

/-- A database in use: its driver, its state and the file that keeps it, if any. -/
structure OpenDatabase where
  executor : Executor Store
  store : Store
  path : Option Path

namespace OpenDatabase

/-- Open the database at a place.  A file that holds something else only shows it when a
statement is executed. -/
def ofPlace? : Place → Option OpenDatabase
  | .file p (.database store) => some ⟨Store.executor, store, some p⟩
  | .file p (.text content) =>
      if content.isEmpty then some ⟨Store.executor, Store.empty, some p⟩
      else some ⟨Store.foreignExecutor, Store.empty, none⟩
  | .file _ .other => some ⟨Store.foreignExecutor, Store.empty, none⟩
  | .free p => some ⟨Store.executor, Store.empty, some p⟩
  | _ => none

/-- Open a database by its name, which may ask for one that no file keeps. -/
def ofName? (fs : Files) (current : Path) (name : String) : Option OpenDatabase :=
  if name = ":memory:" then some ⟨Store.executor, Store.empty, none⟩
  else ofPlace? (fs.find current name)

/-- Keep a store in the file of a database.  A transaction that is still open is lost. -/
def close (db : OpenDatabase) (store : Store) (fs : Files) : Files :=
  match db.path with
  | none => fs
  | some p =>
      let tables := store.saved.getD store.tables
      fs.put p (if tables.isEmpty then .text "" else .database ⟨tables, none⟩)

end OpenDatabase

end BoundSql
