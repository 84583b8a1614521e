import Templating.Expr

/-!
How tightly operators bind. A full expression is read at level 0, where the conditional operator is
allowed; the operand of a prefix operator is read above every binary operator.
-/
namespace Templating

def BinaryOp.level : BinaryOp → Nat
  | .coalesce => 1
  | .or => 2
  | .and => 3
  | .eq | .notEq | .same | .notSame => 4
  | .less | .atMost | .greater | .atLeast | .isKey => 5
  | .add | .sub => 6
  | .mul | .div | .mod => 7
  | .pow => 8

/-- Only powers group from the right. -/
def BinaryOp.groupsRight (op : BinaryOp) : Bool := op == .pow

/-- The lowest level of an operator inside the right operand. -/
def BinaryOp.rightLevel (op : BinaryOp) : Nat := if op.groupsRight then op.level else op.level + 1

def operandLevel : Nat := 9

theorem BinaryOp.level_lt_operandLevel (op : BinaryOp) : op.level < operandLevel := by
  cases op <;> decide

end Templating
