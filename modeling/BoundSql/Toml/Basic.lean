import BoundSql.Binary64.Nearest

/-!
# Configuration trees

A configuration file is a tree of tables.  Each table remembers how it came to be,
because that decides which later lines may still add to it; a key is never given
two values.
-/

namespace BoundSql

/-- How a table came to be. -/
inductive Toml.Origin where
  /-- A header of its own, or an entry of an array of tables. -/
  | header
  /-- The path in front of the last key of a header. -/
  | path
  /-- The path in front of the last key of an assignment. -/
  | dotted
  /-- A value in braces. -/
  | inline
deriving DecidableEq

/-- A value of a configuration file. -/
inductive Toml where
  | str (s : String)
  | int (n : Int)
  | bool (b : Bool)
  | real (x : Binary64)
  /-- A date, a time or both, as spelled in the file. -/
  | moment (spelling : List Char)
  /-- An array; headers may add to it if it is extensible. -/
  | arr (extensible : Bool) (items : List Toml)
  | table (origin : Toml.Origin) (members : List (String × Toml))
deriving Inhabited

namespace Toml

/-- The members of a table, in the order of their first mention. -/
abbrev Members := List (String × Toml)

/-- Change the member with a given key, which may be absent. -/
def alter (key : String) (f : Option Toml → Option Toml) : Members → Option Members
  | [] => (f none).map fun v => [(key, v)]
  | (k, v) :: rest =>
      if k = key then (f (some v)).map fun v => (k, v) :: rest
      else (alter key f rest).map ((k, v) :: ·)

/-- Change a table that a path leads through.  Absent tables are made; a path enters the last
table of an extensible array.  A value in braces is closed, and dotted keys do not enter a
table that has a header. -/
def enter (dotted : Bool) (change : Origin → Members → Option Members) :
    Option Toml → Option Toml
  | none =>
      let origin := if dotted then Origin.dotted else .path
      (change origin []).map (.table origin)
  | some (.table origin members) =>
      if origin = .inline ∨ (dotted ∧ origin = .header) then none
      else (change origin members).map (.table origin)
  | some (.arr true items) =>
      match items.getLast? with
      | some (.table origin members) =>
          (change origin members).map fun m => .arr true (items.dropLast ++ [.table origin m])
      | _ => none
  | _ => none

/-- Change the table at the end of a path. -/
def within (dotted : Bool) (change : Origin → Members → Option Members) :
    List String → Origin → Members → Option Members
  | [], origin, members => change origin members
  | key :: path, _, members => alter key (enter dotted (within dotted change path)) members

/-- Make a value out of nothing, and nothing out of a value. -/
def fresh (v : Toml) : Option Toml → Option Toml
  | none => some v
  | some _ => none

/-- Give the key at the end of a dotted path its value.  Only dotted keys add to a table that
dotted keys have made. -/
def assign (path : List String) (key : String) (v : Toml) (members : Members) : Option Members :=
  within true
    (fun origin members =>
      if !path.isEmpty && origin ≠ .dotted then none else alter key (fresh v) members)
    path .header members

def openTable : Option Toml → Option Toml
  | none => some (.table .header [])
  | some (.table .path members) => some (.table .header members)
  | _ => none

/-- Open the next table of an array of tables. -/
def openElement : Option Toml → Option Toml
  | none => some (.arr true [.table .header []])
  | some (.arr true items) => some (.arr true (items ++ [.table .header []]))
  | _ => none

/-- The path and the last key of a list of keys. -/
def splitLast (keys : List String) : List String × String :=
  (keys.dropLast, keys.getLast?.getD "")

mutual

/-- Whether every integer of a value fits sixty-four bits with a sign. -/
def isNarrow : Toml → Bool
  | .int n => Int64.minValue.toInt ≤ n ∧ n ≤ Int64.maxValue.toInt
  | .arr _ items => allNarrow items
  | .table _ members => membersNarrow members
  | _ => true

/-- Whether every integer of a list of values fits sixty-four bits with a sign. -/
def allNarrow : List Toml → Bool
  | [] => true
  | v :: rest => v.isNarrow && allNarrow rest

/-- Whether every integer of a table fits sixty-four bits with a sign. -/
def membersNarrow : List (String × Toml) → Bool
  | [] => true
  | (_, v) :: rest => v.isNarrow && membersNarrow rest

end

end Toml

end BoundSql
