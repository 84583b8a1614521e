import Templating.Eval.Monad
import Templating.Eval.Argument
import Templating.Value.Equality

/-!
Methods of arrays. Callbacks get an item, its index and the array.
-/
namespace Templating

namespace ArrayMethod

variable {σ : Type}

section Callbacks

variable (visit : Nat → Value → EvalM σ Value)

def mapFrom : Nat → List Value → EvalM σ (List Value)
  | _, [] => pure []
  | i, item :: items => do
    let result ← visit i item
    let results ← mapFrom (i + 1) items
    return result :: results

def filterFrom : Nat → List Value → EvalM σ (List Value)
  | _, [] => pure []
  | i, item :: items => do
    let result ← visit i item
    let kept ← filterFrom (i + 1) items
    return if result.isTruthy then item :: kept else kept

/-- The first item whose truth is the one looked for, and its index. Items after it are not visited.
-/
def findFrom (truth : Bool) : Nat → List Value → EvalM σ (Option (Nat × Value))
  | _, [] => pure none
  | i, item :: items => do
    let result ← visit i item
    if result.isTruthy == truth then return some (i, item) else findFrom truth (i + 1) items

end Callbacks

def foldFrom (combine : Value → Nat → Value → EvalM σ Value) :
    Value → Nat → List Value → EvalM σ Value
  | acc, _, [] => pure acc
  | acc, i, item :: items => do
    let acc ← combine acc i item
    foldFrom combine acc (i + 1) items

/-- Equality in which NaN equals itself. -/
def sameItem (a b : Value) : Bool :=
  match a, b with
  | .number x, .number y => x == y || (x.isNaN && y.isNaN)
  | _, _ => a.strictEq b

def join (separator : Value) (items : List Value) : String :=
  let separator := if separator.isUndefined then "," else separator.toText
  separator.intercalate (items.map fun item => if item.isNullish then "" else item.toText)

/-- The items of an array, and any other value as the only item. -/
def spliced (v : Value) : List Value := v.array?.getD [v]

def indexValue (i : Option Nat) : Value :=
  match i with
  | some i => .nat i
  | none => .number (-1)

def run (call : Caller σ) (array : Value) (items : List Value) (name : String)
    (args : List Value) : EvalM σ (Option Value) :=
  let visitor : EvalM σ (Nat → Value → EvalM σ Value) := do
    let f ← callback args name
    return fun i item => call f [item, .nat i, array]
  let value (v : Value) : EvalM σ (Option Value) := pure (some v)
  let list (items : List Value) : EvalM σ (Option Value) := do return some (← EvalM.newArray items)
  match name with
  | "map" => do list (← mapFrom (← visitor) 0 items)
  | "filter" => do list (← filterFrom (← visitor) 0 items)
  | "find" => do
    let found ← findFrom (← visitor) true 0 items
    value ((found.map (·.2)).getD .undefined)
  | "findIndex" => do
    let found ← findFrom (← visitor) true 0 items
    value (indexValue (found.map (·.1)))
  | "some" => do
    let found ← findFrom (← visitor) true 0 items
    value (.bool found.isSome)
  | "every" => do
    let found ← findFrom (← visitor) false 0 items
    value (.bool found.isNone)
  | "forEach" => do
    let _ ← mapFrom (← visitor) 0 items
    value .undefined
  | "reduce" => do
    let f ← callback args name
    let combine acc i item := call f [acc, item, .nat i, array]
    match args, items with
    | _ :: start :: _, items => value (← foldFrom combine start 0 items)
    | _, first :: rest => value (← foldFrom combine first 1 rest)
    | _, [] => invalidArgument (α := Option Value) name "empty array with no initial value"
  | "includes" => value (.bool (items.any (sameItem · (argument args 0))))
  | "indexOf" => value (indexValue (items.findIdx? (·.strictEq (argument args 0))))
  | "join" => value (.string (join (argument args 0) items))
  | "slice" =>
    let (start, stop) := sliceBounds args items.length
    list (between items start stop)
  | "concat" => list (items ++ args.flatMap spliced)
  | "reverse" => list items.reverse
  | "flat" => list (items.flatMap spliced)
  | "at" => value ((itemFrom? items (whole (argument args 0) 0)).getD .undefined)
  | "toString" => value (.string array.toText)
  | _ => pure none

end ArrayMethod
end Templating
