import BoundSql.Filter.Basic
import BoundSql.Sql.Fragment
import BoundSql.Trace.Traced

/-!
# Compiling conditions

Each admissible operator of a condition becomes one predicate, and a pattern list
one for each of its patterns.  Comparing with null is turned into the null check
that was meant, and reported.
-/

namespace BoundSql

/-- A test of one column. -/
inductive Predicate where
  | compare (name : Name) (op : Operator) (v : Value)
  | member (name : Name) (negated : Bool) (vs : List Value)
  | nullCheck (name : Name) (isNull : Bool)
deriving DecidableEq

namespace Predicate

def pieces : Predicate → List Piece
  | .compare name op _ => [.name name, .word .space, .word op.word, .word .space, .placeholder]
  | .member name negated vs =>
      .name name :: .word .space :: .word (if negated then .notIn else .in) ::
        Piece.parenthesised (Piece.placeholders vs.length)
  | .nullCheck name isNull =>
      [.name name, .word .space, .word (if isNull then .isNull else .isNotNull)]

/-- The values bound by a predicate, in the order of its placeholders. -/
def params : Predicate → List Value
  | .compare _ _ v => [v]
  | .member _ _ vs => vs
  | .nullCheck .. => []

/-- The text and the values of a predicate. -/
def fragment (p : Predicate) : Fragment := ⟨p.pieces, p.params⟩

end Predicate

namespace Condition

def compileOp (column : String) (name : Name) (op : Operator) :
    Operand → Traced QueryError (List Predicate)
  | .value .null =>
      match op.nullCounterpart? with
      | none => .fail (.nullOperand column op.code)
      -- the comparison is never true of null, so the check that was meant takes its place
      | some counterpart => do
          Traced.log (.nullCompared column op.code counterpart.code)
          Traced.emit (.nullComparison column op.code counterpart.code)
          return [.nullCheck name (counterpart = .nu)]
  | .value v =>
      match op.arity with
      | .blank =>
          if v.isBlank then pure [.nullCheck name (op = .nu)]
          else .fail (.operandMismatch column op.code .takesNoValue)
      | .scalar | .scalarOrList => pure [.compare name op v]
  | .list vs =>
      match op.arity with
      | .blank => .fail (.operandMismatch column op.code .takesNoValue)
      | .scalar => .fail (.operandMismatch column op.code .takesNoList)
      | .scalarOrList =>
          if vs.isEmpty then .fail (.emptyFilterList column)
          else if vs.any Value.isNull then .fail (.nullOperand column op.code)
          -- a list is one test of membership, but patterns are tested one by one
          else if op = .eq ∨ op = .ne then pure [.member name (op = .ne) vs]
          else pure (vs.map (.compare name op))

/-- Compile operators in order up to the first that is not admissible. -/
def compileOps (column : String) (name : Name) :
    List (Operator × Operand) → Traced QueryError (List Predicate)
  | [] => pure []
  | (op, operand) :: rest => do
      let first ← compileOp column name op operand
      let others ← compileOps column name rest
      return first ++ others

/-- Compile the condition on a column; it has to name at least one operator. -/
def compile (column : String) (name : Name) (c : Condition) :
    Traced QueryError (List Predicate) :=
  if c.toOps.isEmpty then .fail (.emptyFilterList column)
  else compileOps column name c.toOps

end Condition

end BoundSql
