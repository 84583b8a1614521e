import Templating.Eval.StringMethod
import Templating.Eval.ArrayMethod
import Templating.Eval.NumberMethod

/-!
The methods that values have by their kind.
-/
namespace Templating

namespace ObjectMethod

def run (members : Members) (name : String) (args : List Value) : Option Value :=
  match name with
  | "hasOwnProperty" => some (.bool (members.lookup (argument args 0).toText).isSome)
  | "toString" => some (.string "[object Object]")
  | _ => none

end ObjectMethod

/-- Calls a method of the receiver's kind. There is none when its kind has no such method. -/
def callMethod {σ : Type} (call : Caller σ) (receiver : Value) (name : String)
    (args : List Value) : EvalM σ (Option Value) :=
  match receiver with
  | .string s => StringMethod.run call s name args
  | .array _ items => ArrayMethod.run call receiver items name args
  | .number x => NumberMethod.run x name args
  | .object _ members => pure (ObjectMethod.run members name args)
  | .bool _ | .function _ =>
    pure (if name = "toString" then some (.string receiver.toText) else none)
  | .undefined | .null => pure none

end Templating
