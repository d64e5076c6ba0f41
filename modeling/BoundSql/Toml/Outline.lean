import BoundSql.Toml.Statement

/-!
# Outlines of configuration files

An outline shows the statements of a file as a tree.  A key stands in it once, where
it is first mentioned and as it is spelled there, and all statements below share it.
Reading an outline from the top gives the statements back in an order of their own:
assignments under one dotted key stand together, and headers keep their order.
-/

namespace BoundSql.Toml

/-- What stands under a key. -/
inductive Outline where
  /-- A value, with the statement that assigns it. -/
  | value (s : Statement)
  /-- A table, with its header and the number of its header if it has one. -/
  | table (origin : Origin) (header : Option (Nat × Statement)) (members : List (Key × Outline))
  /-- An array of tables, with the path in the header of its first entry. -/
  | array (first : Path) (tables : List Outline)

namespace Outline

abbrev Members := List (Key × Outline)

/-! ## From statements -/

/-- Change what stands under a key; a new key is the last one. -/
def change (key : Key) (f : Option Outline → Outline) : Members → Members
  | [] => [(key, f none)]
  | (k, o) :: rest =>
      if k.name = key.name then (k, f (some o)) :: rest else (k, o) :: change key f rest

/-- Change the members of a table that a path leads through.  An absent table is made with the
given origin; a path enters the last table of an array. -/
def enter (origin : Origin) (f : Members → Members) : Option Outline → Outline
  | none => .table origin none (f [])
  | some (.table o header members) => .table o header (f members)
  | some (.array first tables) =>
      match tables.getLast? with
      | some (.table o header members) =>
          .array first (tables.dropLast ++ [.table o header (f members)])
      | _ => .array first tables
  | some (.value s) => .value s

/-- Change the members of the table at the end of a path. -/
def within (origin : Origin) (f : Members → Members) : List Key → Members → Members
  | [], members => f members
  | key :: path, members => change key (enter origin (within origin f path)) members

/-- Make a change at the last key of a path. -/
def atLast (origin : Origin) (f : Key → Members → Members) (keys : List Key)
    (members : Members) : Members :=
  match keys.getLast? with
  | some key => within origin (f key) keys.dropLast members
  | none => members

def membersAt (key : Key) (members : Members) : Members :=
  match members.find? fun m => m.1.name = key.name with
  | some (_, .table _ _ below) => below
  | _ => []

/-- Open the table with a header.  It takes its key from the header and becomes the last member
of its table. -/
def openTable (number : Nat) (s : Statement) (key : Key) (members : Members) : Members :=
  (members.filter fun m => m.1.name ≠ key.name) ++
    [(key, .table .header (some (number, s)) (membersAt key members))]

/-- Open the next table of an array of tables.  All headers of an array are spaced like the
first. -/
def openElement (number : Nat) (s : Statement) : Option Outline → Outline
  | some (.array first tables) =>
      let s := s.mapPath fun p => { first with keys := p.keys }
      .array first (tables ++ [.table .header (some (number, s)) []])
  | _ => .array s.clause.path [.table .header (some (number, s)) []]

def assign (s : Statement) (members : Members) : Members :=
  atLast .dotted (fun key below => below ++ [(key, .value s)]) s.clause.path.keys members

def add (current : List Key) (number : Nat) (s : Statement) (members : Members) : Members :=
  match s.clause with
  | .assignment .. => within .path (assign s) current members
  | .header path => atLast .path (openTable number s) path.keys members
  | .implied path => atLast .path (openTable number s) path.keys members
  | .element path =>
      atLast .path (fun key below => change key (openElement number s) below) path.keys members

/-- Add statements, the first of which has a number. -/
def build (current : List Key) (number : Nat) (members : Members) : List Statement → Members
  | [] => members
  | s :: rest => build (s.clause.scope current) (number + 1) (add current number s members) rest

/-! ## Back to statements -/

mutual

/-- The assignments of a value, or of a table that dotted keys have made, at the end of some
keys. -/
def assignments (keys : List Key) : Outline → List Statement
  | .value s => [s.respell keys]
  | .table .dotted _ members => memberAssignments keys members
  | _ => []

def memberAssignments (keys : List Key) : List (Key × Outline) → List Statement
  | [] => []
  | (k, o) :: rest => assignments (keys ++ [k]) o ++ memberAssignments keys rest

end

/-- A header with the assignments under it, and the number that decides where it stands. -/
structure Part where
  number : Nat
  statements : List Statement

mutual

/-- The parts of what stands at the end of some keys, and the number of the last header.  A
table without a header stands behind the header in front of it, whose number is `last`. -/
def parts (keys : List Key) (last : Nat) : Outline → List Part × Nat
  | .value _ => ([], last)
  | .array _ tables => tableParts keys last tables
  | .table .dotted _ members => memberParts keys last members
  | .table _ (some (number, s)) members =>
      let below := memberParts keys number members
      (⟨number, s.respell keys :: memberAssignments [] members⟩ :: below.1, below.2)
  | .table _ none members =>
      let below := memberParts keys last members
      match memberAssignments [] members with
      | [] => below
      | own => (⟨last, ⟨[], .implied ⟨[], keys, []⟩, []⟩ :: own⟩ :: below.1, below.2)

def memberParts (keys : List Key) (last : Nat) : List (Key × Outline) → List Part × Nat
  | [] => ([], last)
  | (k, o) :: rest =>
      let here := parts (keys ++ [k]) last o
      let others := memberParts keys here.2 rest
      (here.1 ++ others.1, others.2)

def tableParts (keys : List Key) (last : Nat) : List Outline → List Part × Nat
  | [] => ([], last)
  | o :: rest =>
      let here := parts keys last o
      let others := tableParts keys here.2 rest
      (here.1 ++ others.1, others.2)

end

def toStatements (members : Members) : List Statement :=
  let all := ⟨0, memberAssignments [] members⟩ :: (memberParts [] 0 members).1
  (all.mergeSort fun a b => a.number ≤ b.number).flatMap Part.statements

end Outline

/-- Assignments with those under one dotted key together and its first spelling in each. -/
def gathered (statements : List Statement) : List Statement :=
  Outline.memberAssignments [] (statements.foldl (fun members s => Outline.assign s members) [])

/-- The statements of a file with those under one key together, as far as its headers allow, and
the first spelling of the key in each. -/
def arranged (statements : List Statement) : List Statement :=
  Outline.toStatements (Outline.build [] 1 [] statements)

end BoundSql.Toml
