import BoundSql.Binary64.Nearest
import BoundSql.Binary64.Layout

/-!
# Documents

A document is a tree of scalars, arrays and objects.  An object lists its members
in document order; a tree as it was read may repeat a key, a merged tree never does.
-/

namespace BoundSql

/-- A document.  Integers and reals are separate kinds of number. -/
inductive Json where
  | null
  | bool (b : Bool)
  | int (n : Int)
  | real (x : Binary64)
  | str (s : String)
  | arr (items : List Json)
  | obj (members : List (String × Json))
deriving Inhabited

namespace Json

/-- Give a key a value: in place if the key is present, otherwise at the end. -/
def putMember (key : String) (value : Json) :
    List (String × Json) → List (String × Json)
  | [] => [(key, value)]
  | (k, v) :: rest =>
      if k = key then (k, value) :: rest else (k, v) :: putMember key value rest

/-- Keep every key at its first position with its last value. -/
def mergeKeys (members : List (String × Json)) : List (String × Json) :=
  members.foldl (fun kept m => putMember m.1 m.2 kept) []

mutual

/-- Resolve repeated keys in every object of the tree. -/
def merged : Json → Json
  | .arr items => .arr (mergedItems items)
  | .obj members => .obj (mergeKeys (mergedMembers members))
  | other => other

/-- Resolve repeated keys in every tree of a list. -/
def mergedItems : List Json → List Json
  | [] => []
  | item :: rest => item.merged :: mergedItems rest

/-- Resolve repeated keys in every member's tree. -/
def mergedMembers : List (String × Json) → List (String × Json)
  | [] => []
  | (key, value) :: rest => (key, value.merged) :: mergedMembers rest

end

/-- An absent value is null. -/
def ofOption {α : Type} (encode : α → Json) : Option α → Json
  | none => .null
  | some a => encode a

end Json

end BoundSql
