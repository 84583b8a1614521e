import Templating.Eval.Error
import Templating.Value

/-!
Evaluation: a failure or a result, and what lasts in either case.
-/
namespace Templating

/-- What lasts during an evaluation, even when it fails: the number that the next new array, object
or function takes, how many calls of closures are in progress, and whatever is kept beside. -/
structure EvalState (σ : Type) where
  identity : Nat
  depth : Nat := 0
  store : σ

abbrev EvalM (σ : Type) := ExceptT EvalError (StateM (EvalState σ))

abbrev Caller (σ : Type) := Function → List Value → EvalM σ Value

namespace EvalM

variable {σ α : Type}

def fresh : EvalM σ Nat :=
  modifyGet fun s => (s.identity, { s with identity := s.identity + 1 })

def newArray (items : List Value) : EvalM σ Value := do
  return .array (← fresh) items

def newObject (members : Members) : EvalM σ Value := do
  return .object (← fresh) members

def newClosure (params : List String) (body : Body) (env : Env) : EvalM σ Value := do
  return .function (.closure (← fresh) params body env)

/-- Changes what lasts for the time of an action, however that ends. -/
def around (enter leave : EvalState σ → EvalState σ) (action : EvalM σ α) : EvalM σ α :=
  ExceptT.mk do
    modify enter
    let result ← action.run
    modify leave
    return result

end EvalM

end Templating
