import BoundSql.Text.Lines
import BoundSql.Toml.Document

/-!
# Comments on configuration documents

Annotating a document puts the documentation of a key, as comment lines, between
what already stands in front of the key and the key itself.  Values, keys and their
order stay as they are.
-/

namespace BoundSql.Toml

/-- The documentation of a kind of table and of its keys. -/
structure Docs where
  container : String
  fields : List (String × String)

def commentLine (line : String) : List Char :=
  if line.isEmpty then ['#', '\n'] else '#' :: ' ' :: line.toList ++ ['\n']

def commentLines (docs : String) : List Char := (Text.lines docs).flatMap commentLine

/-- Append comment lines to the characters in front of something; the comments start on a line
of their own. -/
def appendComments (lead : List Char) (docs : String) : List Char :=
  match lead.getLast? with
  | none | some '\n' => lead ++ commentLines docs
  | some _ => lead ++ '\n' :: commentLines docs

/-- Append comment lines to the characters in front of a statement. -/
def Statement.comment (docs : String) (s : Statement) : Statement :=
  { s with lead := appendComments s.lead docs }

/-- Put comment lines in front of the whole document. -/
def Document.commentStart (docs : String) (d : Document) : Document :=
  match d.statements with
  | s :: rest => { d with statements := { s with lead := commentLines docs ++ s.lead } :: rest }
  | [] => { d with trailer := commentLines docs ++ d.trailer }

/-- The documentation of a key of the table with a path. -/
def Docs.field? (docs : Docs) (base path : List String) : Option (String × String) :=
  docs.fields.find? fun f => base ++ [f.1] = path

/-- The documentation that is left when a key has got its own. -/
def Docs.drop (docs : Docs) (field : String) : Docs :=
  { docs with fields := docs.fields.filter fun f => f.1 ≠ field }

/-- Whether a clause starts an entry of the array of tables with a path. -/
def Clause.isElement (base : List String) : Clause → Bool
  | .element path => names path.keys = base
  | _ => false

/-- Comment on the keys of the table with a path, each where it is first introduced.  Of an
array of tables only the first entry gets comments: `inElement` tells that it has begun, and the
next one ends the work. -/
def commentFields (docs : Docs) (base : List String) (current : List Key) (inElement : Bool) :
    List Statement → List Statement
  | [] => []
  | s :: rest =>
      let starts := s.clause.isElement base
      if starts && inElement then s :: rest
      else
        let next := s.clause.scope current
        match docs.field? base (s.clause.target current) with
        | some (field, words) =>
            s.comment words ::
              commentFields (docs.drop field) base next (starts || inElement) rest
        | none => s :: commentFields docs base next (starts || inElement) rest

def commentHeader (docs : Docs) (base : List String) (s : Statement) : Statement :=
  match s.clause with
  | .header path => if names path.keys = base then s.comment docs.container else s
  | .implied path => if names path.keys = base then s.comment docs.container else s
  | _ => s

/-- Comment on the keys of the table with a path. -/
def Document.annotateFields (docs : Docs) (base : List String) (d : Document) : Document :=
  { d with statements := commentFields docs base [] false d.statements }

/-- Comment on the table with a path; the whole document has the empty path. -/
def Document.annotateContainer (docs : Docs) (base : List String) (d : Document) : Document :=
  if base.isEmpty then d.commentStart docs.container
  else { d with statements := d.statements.map (commentHeader docs base) }

/-! ## Reading -/

/-- Read a document to be edited: it has a tree, its integers fit sixty-four bits with a sign,
and its statements are arranged by their keys. -/
def Document.parseEditable? (text : String) : Option Document := do
  let d ← Document.parse? text
  let _ ← d.members?
  if d.isNarrow then return { d with statements := arranged d.statements } else none

end BoundSql.Toml
