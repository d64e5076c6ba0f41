import BoundSql.Toml.Outline
import BoundSql.Toml.Scalar

/-!
# Reading values and keys of configuration files

Keys are bare or quoted and joined by points.  Arrays and values in braces may
spread over several lines, hold comments and end with a comma; they nest at most
eighty deep, and at most eighty keys are joined.  A value is read with its
characters; of those in braces the assignments under one dotted key are gathered.
-/

namespace BoundSql.Toml

/-- A reader consumes the front of its input and returns the rest. -/
abbrev Reader (α : Type) := List Char → Option (α × List Char)

/-- The characters of the input that have been consumed when the rest is left. -/
def consumed (rest cs : List Char) : List Char := cs.take (cs.length - rest.length)

/-- Drop space, line breaks and comments.  `comment` tells that a comment has begun. -/
def skipTrivia (comment : Bool) : List Char → Option (List Char)
  | [] => some []
  | c :: rest =>
      if c = '\n' then skipTrivia false rest
      else if isControl c then none
      else if comment then skipTrivia true rest
      else if isSpace c then skipTrivia false rest
      else if c = '#' then skipTrivia true rest
      else some (c :: rest)

/-! ## Keys -/

def isBareChar (c : Char) : Bool := c.isAlphanum || c == '_' || c == '-'

def quotedKey (cs : List Char) (p : List Char × List Char) : Key × List Char :=
  (⟨String.ofList p.1, consumed p.2 cs, [], []⟩, p.2)

def readKey : Reader Key := fun cs =>
  match cs with
  | '"' :: rest => (readBasic rest).map (quotedKey cs)
  | '\'' :: rest => (readLiteral rest).map (quotedKey cs)
  | cs =>
      match cs.takeWhile isBareChar with
      | [] => none
      | key => some (⟨String.ofList key, key, [], []⟩, cs.dropWhile isBareChar)

/-- The deepest nesting of a value and the length of the longest path. -/
def maxDepth : Nat := 80

/-- Read a path of at most `bound` keys and the space around it. -/
def readPath : Nat → Reader Path
  | 0, _ => none
  | bound + 1, cs => do
      let lead := cs.takeWhile isSpace
      let (key, rest) ← readKey (skipSpace cs)
      let gap := rest.takeWhile isSpace
      match skipSpace rest with
      | '.' :: rest => do
          let (path, rest) ← readPath bound rest
          return (path.under lead key gap, rest)
      | rest => return (⟨lead, [key], gap⟩, rest)

/-! ## Lists of items -/

/-- An item of a list with the space and the comments around it. -/
structure Item (α : Type) where
  lead : List Char
  item : α
  tail : List Char

/-- Items separated by commas, and the characters from the last comma, if it ends the list, to
the closing character. -/
structure Items (α : Type) where
  items : List (Item α)
  closing : List Char

/-- The items that begin with one item and the comma behind it. -/
def Items.under {α : Type} (first : Item α) (rest : Items α) : Items α :=
  match rest.items with
  | [] => ⟨[first], ',' :: rest.closing⟩
  | items => ⟨first :: items, rest.closing⟩

/-- Read items separated by commas up to and including the closing character; a comma may
follow the last one.  Every item consumes input, so the length of the input bounds their
number. -/
def readItems {α : Type} (item : Reader α) (close : Char) : Nat → Reader (Items α)
  | 0, _ => none
  | bound + 1, cs => do
      let start ← skipTrivia false cs
      let lead := consumed start cs
      match start with
      | [] => none
      | c :: rest =>
          if c = close then return (⟨[], lead⟩, rest)
          else do
            let (first, stop) ← item start
            let next ← skipTrivia false stop
            let entry : Item α := ⟨lead, first, consumed next stop⟩
            match next with
            | ',' :: rest => do
                let (others, rest) ← readItems item close bound rest
                return (others.under entry, rest)
            | d :: rest => if d = close then return (⟨[entry], []⟩, rest) else none
            | [] => none

/-! ## Values -/

/-- A value with the characters that it is written with. -/
structure Spelled where
  value : Toml
  chars : List Char

def listChars (items : List (List Char)) (closing : List Char) : List Char :=
  [','].intercalate items ++ closing

def Spelled.array (items : Items Spelled) : Spelled where
  value := .arr false (items.items.map fun i => i.item.value)
  chars :=
    '[' :: listChars (items.items.map fun i => i.lead ++ i.item.chars ++ i.tail) items.closing ++
      [']']

/-- The table that assignments build. -/
def membersOf? (statements : List Statement) : Option Members :=
  statements.foldlM
    (fun members s =>
      let (path, key) := splitLast (names s.clause.path.keys)
      match s.clause with
      | .assignment _ v => assign path key v members
      | _ => none)
    []

/-- A table of the assignments that stand in braces. -/
def Spelled.table? (items : Items Statement) : Option Spelled := do
  let statements := items.items.map fun i => i.item.between i.lead i.tail
  let chars := listChars ((gathered statements).map Statement.chars) items.closing
  return ⟨.table .inline (← membersOf? statements), '\x7b' :: chars ++ ['\x7d']⟩

/-- Read a path, the equals sign and the value after it. -/
def readAssignment (value : Reader Spelled) : Reader Statement := fun cs => do
  let (path, rest) ← readPath maxDepth cs
  match rest with
  | '=' :: rest => do
      let (v, stop) ← value (skipSpace rest)
      return (⟨[], .assignment path v.value, rest.takeWhile isSpace ++ v.chars⟩, stop)
  | _ => none

/-- A read value with the characters that it has consumed. -/
def spelled (cs : List Char) (p : Toml × List Char) : Spelled × List Char :=
  (⟨p.1, consumed p.2 cs⟩, p.2)

/-- Read one value that nests at most `depth` arrays and values in braces. -/
def readValue (depth : Nat) (cs : List Char) : Option (Spelled × List Char) :=
  match cs with
  | '[' :: rest =>
      match depth with
      | 0 => none
      | depth + 1 => do
          let (items, rest) ← readItems (readValue depth) ']' (rest.length + 1) rest
          return (.array items, rest)
  | '\x7b' :: rest =>
      match depth with
      | 0 => none
      | depth + 1 => do
          let (items, rest) ←
            readItems (readAssignment (readValue depth)) '\x7d' (rest.length + 1) rest
          return (← Spelled.table? items, rest)
  | '"' :: _ | '\'' :: _ =>
      (readQuoted cs).map fun p => spelled cs (.str (String.ofList p.1), p.2)
  | cs => (readScalar cs).map (spelled cs)
termination_by structural depth

end BoundSql.Toml
