import Templating.Eval.Builtin
import Templating.Eval.Method
import Templating.Eval.Operator

/-!
Evaluation of expressions. The tree is followed with an evaluator in hand, which calls functions and
handles names. Calling a closure evaluates its body one call deeper, and at the limit it fails
instead, so that evaluation always comes to an end.
-/
namespace Templating

/-- A callee as it is named in errors. -/
def Expr.describe : Expr → String
  | .name id => id
  | .member target property _ => target.describe ++ "." ++ property
  | .index target _ _ => target.describe ++ "[...]"
  | .call callee _ _ => callee.describe ++ "(...)"
  | .number x => Decimal.plain x
  | .string s => s
  | .bool b => if b then "true" else "false"
  | .null => "null"
  | .undefined => "undefined"
  | _ => "expression"

def Env.value (env : Env) (name : String) : Value :=
  ((env.lookup name).or (global? name)).getD .undefined

def Value.spreadItems : Value → Except EvalError (List Value)
  | .array _ items => .ok items
  | .string s => .ok (Value.chars s)
  | .undefined | .null => .error (.notIterable "undefined or null")
  | other => .error (.notIterable other.kind)

def Value.spreadMembers : Value → Members
  | .object _ members => members
  | .array _ items => Value.positioned items
  | _ => []

section Evaluation

variable {σ : Type}

def callValue (call : Caller σ) (callee : Expr) (v : Value) (args : List Value) : EvalM σ Value :=
  match v with
  | .function f => call f args
  | _ => throw (.notCallable callee.describe)

/-- What a method call on `receiver` does once its arguments are known: a member of the object is
called, else a method of the receiver's kind, else whatever the property holds. An optional call of
a property that is null or undefined gives undefined. -/
def callMember (call : Caller σ) (callee : Expr) (receiver : Value) (property : String)
    (optional : Bool) (args : List Value) : EvalM σ Value := do
  let own := (receiver.members.lookup property).filter fun v => !(optional && v.isNullish)
  match own with
  | some v => callValue call callee v args
  | none =>
    match ← callMethod call receiver property args with
    | some result => return result
    | none =>
      let v ← receiver.property property
      if optional && v.isNullish then return .undefined
      else callValue call callee v args

/-- How functions are called, and how names are looked up, bound by the call under way, and kept for
a closure. -/
structure Evaluator (σ : Type) where
  call : Caller σ
  lookup : Env → String → EvalM σ Value
  bind : Env → String → Value → EvalM σ Env
  capture : Env → List String → Body → EvalM σ Value

/-- Names are found where they are bound, and closures hold all of them. -/
def Evaluator.calling (call : Caller σ) : Evaluator σ where
  call
  lookup env name := pure (env.value name)
  bind env name value := pure ((name, value) :: env)
  capture env params body := EvalM.newClosure params body env

variable (evaluator : Evaluator σ)

mutual

def Expr.eval (env : Env) : Expr → EvalM σ Value
  | .number x => pure (.number x)
  | .string s => pure (.string s)
  | .bool b => pure (.bool b)
  | .null => pure .null
  | .undefined => pure .undefined
  | .name id => evaluator.lookup env id
  | .template parts => do return .string (← evalParts env parts)
  | .array elements => do
    let items ← evalElements env elements
    EvalM.newArray items
  | .object entries => do
    let members ← evalEntries env [] entries
    EvalM.newObject members
  | .member target property optional => do
    let v ← target.eval env
    if optional && v.isNullish then return .undefined
    v.property property
  | .index target key optional => do
    let v ← target.eval env
    if optional && v.isNullish then return .undefined
    let k ← key.eval env
    v.property k.toKey
  | .call (.member target property guarded) args optional => do
    let receiver ← target.eval env
    if guarded && receiver.isNullish then return .undefined
    let args ← evalElements env args
    callMember evaluator.call (.member target property guarded) receiver property optional args
  | .call callee args optional => do
    let v ← callee.eval env
    if optional && v.isNullish then return .undefined
    let args ← evalElements env args
    callValue evaluator.call callee v args
  | .unary op operand => do
    let v ← operand.eval env
    return op.apply v
  | .binary op left right => do
    let a ← left.eval env
    match op.keepsLeft? a with
    | some true => return a
    | some false => right.eval env
    | none => do
      let b ← right.eval env
      op.apply a b
  | .conditional test consequent alternate => do
    let t ← test.eval env
    if t.isTruthy then consequent.eval env else alternate.eval env
  | .function params body => evaluator.capture env params body

def evalParts (env : Env) : List TemplatePart → EvalM σ String
  | [] => pure ""
  | .text s :: parts => do
    let rest ← evalParts env parts
    return s ++ rest
  | .expr e :: parts => do
    let v ← e.eval env
    let rest ← evalParts env parts
    return v.toText ++ rest

def evalElements (env : Env) : List Element → EvalM σ (List Value)
  | [] => pure []
  | .item e :: elements => do
    let v ← e.eval env
    let rest ← evalElements env elements
    return v :: rest
  | .spread e :: elements => do
    let v ← e.eval env
    let items ← v.spreadItems
    let rest ← evalElements env elements
    return items ++ rest

def evalEntries (env : Env) (members : Members) : List Entry → EvalM σ Members
  | [] => pure members
  | .named key e :: entries => do
    let v ← e.eval env
    evalEntries env (members.set key v) entries
  | .computed key e :: entries => do
    let k ← key.eval env
    let v ← e.eval env
    evalEntries env (members.set k.toKey v) entries
  | .shorthand id :: entries => do
    let v ← evaluator.lookup env id
    evalEntries env (members.set id v) entries
  | .spread e :: entries => do
    let v ← e.eval env
    evalEntries env (members.setAll v.spreadMembers) entries

/-- Runs statements of a function body up to the first that gives a result. -/
def evalStatements (env : Env) : List Stmt → EvalM σ Value
  | [] => pure .undefined
  | .declare id none :: statements => do
    let env ← evaluator.bind env id .undefined
    evalStatements env statements
  | .declare id (some e) :: statements => do
    let v ← e.eval env
    let env ← evaluator.bind env id v
    evalStatements env statements
  | .expr e :: statements => do
    let _ ← e.eval env
    evalStatements env statements
  | .result none :: _ => pure .undefined
  | .result (some e) :: _ => e.eval env

end

def Body.eval (env : Env) : Body → EvalM σ Value
  | .expr e => e.eval evaluator env
  | .block statements => evalStatements evaluator env statements

abbrev HostFunctions := String → List Value → Except EvalError Value

/-- Closure calls that may be nested in one another. -/
def maxCallDepth : Nat := 100

/-- The names that a call binds, the last parameter first. -/
def bindParams (env : Env) (params : List String) (args : List Value) : Env :=
  (params.zipIdx.map fun p => (p.1, argument args p.2)).reverse ++ env

/-- Evaluates the body of a closure as a further call in progress, unless the limit is reached. -/
def EvalM.deeper (action : EvalM σ Value) : EvalM σ Value := do
  if maxCallDepth ≤ (← get).depth then throw (.callDepth maxCallDepth)
  EvalM.around (fun s => { s with depth := s.depth + 1 }) (fun s => { s with depth := s.depth - 1 })
    action

/-- Calls a function with room for so many calls inside one another. The limit is reached first when
there is room for what it still allows. -/
def callWith (host : HostFunctions) : Nat → Caller σ
  | 0, _, _ => throw (.callDepth maxCallDepth)
  | _ + 1, .builtin f, args => f.run args
  | _ + 1, .host _ name, args => host name args
  | room + 1, .closure _ params body env, args =>
    EvalM.deeper (body.eval (.calling (callWith host room)) (bindParams env params args))

/-- The value of an expression, with the number that is next to be given out before and after. -/
def Expr.evaluate (host : HostFunctions) (env : Env) (e : Expr) :
    StateT Nat (Except EvalError) Value := fun identity =>
  let (result, s) :=
    (e.eval (.calling (callWith host (maxCallDepth + 1))) env).run.run { identity, store := () }
  result.map fun value => (value, s.identity)

end Evaluation

end Templating
