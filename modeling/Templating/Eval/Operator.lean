import Templating.Eval.Property
import Templating.Value.Equality

/-!
Operators on values that are already known. The three operators that may leave their right operand
unevaluated choose one of the two.
-/
namespace Templating

/-- The order of two values: of texts by their characters, of others as numbers. -/
def Value.compare? (a b : Value) : Option Ordering :=
  match a, b with
  | .string s, .string t => some (compare s t)
  | _, _ =>
    let x := a.toNumber
    let y := b.toNumber
    if x < y then some .lt else if x == y then some .eq else if x > y then some .gt else none

def Value.joinsAsText : Value → Bool
  | .string _ | .array _ _ | .object _ _ | .function _ => true
  | _ => false

def UnaryOp.apply (op : UnaryOp) (v : Value) : Value :=
  match op with
  | .not => .bool !v.isTruthy
  | .minus => .number (-v.toNumber)
  | .plus => .number v.toNumber
  | .typeOf => .string v.kind

/-- Whether the left operand decides the result, for the operators where it can. -/
def BinaryOp.keepsLeft? (op : BinaryOp) (left : Value) : Option Bool :=
  match op with
  | .and => some !left.isTruthy
  | .or => some left.isTruthy
  | .coalesce => some !left.isNullish
  | _ => none

def BinaryOp.apply (op : BinaryOp) (a b : Value) : Except EvalError Value :=
  let number (f : Float → Float → Float) : Except EvalError Value :=
    .ok (.number (f a.toNumber b.toNumber))
  match op with
  | .add =>
    if a.joinsAsText || b.joinsAsText then .ok (.string (a.toText ++ b.toText)) else number (· + ·)
  | .sub => number (· - ·)
  | .mul => number (· * ·)
  | .div => number (· / ·)
  | .mod => number Decimal.remainder
  | .pow => number Float.pow
  | .eq => .ok (.bool (a.looseEq b))
  | .notEq => .ok (.bool !a.looseEq b)
  | .same => .ok (.bool (a.strictEq b))
  | .notSame => .ok (.bool !a.strictEq b)
  | .less => .ok (.bool (a.compare? b == some .lt))
  | .atMost => .ok (.bool (a.compare? b == some .lt || a.compare? b == some .eq))
  | .greater => .ok (.bool (a.compare? b == some .gt))
  | .atLeast => .ok (.bool (a.compare? b == some .gt || a.compare? b == some .eq))
  | .and => .ok (if a.isTruthy then b else a)
  | .or => .ok (if a.isTruthy then a else b)
  | .coalesce => .ok (if a.isNullish then b else a)
  | .isKey => (a.hasKey b).map .bool

end Templating
