import Templating.Proofs.Evaluation

/-!
Evaluations that keep a log. Whenever a function is about to be called, a closure is entered or
left, a name is looked up or a closure is made, it is noted which calls of closures are in progress.
-/
namespace Templating

variable {ω : Type}

/-- A call of a closure in progress: the closure, what it is given, and the names declared so far,
the latest first. -/
structure CallFrame where
  id : Nat
  params : List String
  body : Body
  scope : Env
  args : List Value
  declared : Env := []

namespace CallFrame

def closure (c : CallFrame) : Function := .closure c.id c.params c.body c.scope

def own (c : CallFrame) : Env := c.declared ++ bindParams [] c.params c.args

def names (c : CallFrame) : Env := c.declared ++ bindParams c.scope c.params c.args

def declare (name : String) (value : Value) (c : CallFrame) : CallFrame :=
  { c with declared := (name, value) :: c.declared }

theorem names_eq (c : CallFrame) : c.names = c.own ++ c.scope := by
  simp [names, own, bindParams]

end CallFrame

inductive CallEvent where
  | asked (f : Function) (args : List Value)
  | entered
  | left (result : Except EvalError Value)
  | looked (name : String) (value : Value)
  | captured (f : Function)

/-- An event with what there is outside all calls, the calls in progress, the innermost first, and
the count that the evaluator keeps of them. -/
structure CallInstant (ω : Type) where
  outside : ω
  calls : List CallFrame
  depth : Nat
  event : CallEvent

/-- The instants so far, the latest first, and the values that came from the host. -/
structure CallHistory (ω : Type) where
  instants : List (CallInstant ω) := []
  given : List Value := []

namespace CallHistory

def note (i : CallInstant ω) (h : CallHistory ω) : CallHistory ω :=
  { h with instants := i :: h.instants }

def give (v : Value) (h : CallHistory ω) : CallHistory ω := { h with given := v :: h.given }

end CallHistory

structure CallLog (ω : Type) where
  outside : ω
  calls : List CallFrame := []
  history : CallHistory ω := {}

namespace CallLog

def instant (s : EvalState (CallLog ω)) (event : CallEvent) : CallInstant ω :=
  { outside := s.store.outside, calls := s.store.calls, depth := s.depth, event }

def note (event : CallEvent) (s : EvalState (CallLog ω)) : EvalState (CallLog ω) :=
  { s with store.history := s.store.history.note (instant s event) }

def give (v : Value) (s : EvalState (CallLog ω)) : EvalState (CallLog ω) :=
  { s with store.history := s.store.history.give v }

def enter (frame : CallFrame) (s : EvalState (CallLog ω)) : EvalState (CallLog ω) :=
  note .entered { s with store.calls := frame :: s.store.calls }

def leave (result : Except EvalError Value) (s : EvalState (CallLog ω)) : EvalState (CallLog ω) :=
  let s := note (.left result) s
  { s with store.calls := s.store.calls.tail }

def declare (name : String) (value : Value) (s : EvalState (CallLog ω)) : EvalState (CallLog ω) :=
  { s with store.calls := s.store.calls.modifyHead (·.declare name value) }

def inCall (frame : CallFrame) (body : EvalM (CallLog ω) Value) : EvalM (CallLog ω) Value :=
  ExceptT.mk do
    modify (enter frame)
    let result ← body.run
    modify (leave result)
    return result

end CallLog

open CallLog

/-- The program's evaluator, with notes of the names looked up and the closures made. -/
def Evaluator.noting (call : Caller (CallLog ω)) : Evaluator (CallLog ω) where
  call
  lookup env name := do
    let v := env.value name
    modify (note (.looked name v))
    return v
  bind env name value := do
    modify (declare name value)
    return (name, value) :: env
  capture env params body := do
    let f := .closure (← EvalM.fresh) params body env
    modify (note (.captured f))
    return .function f

/-- Calls with room for so many calls inside one another, as `callWith` makes them, with notes of
the functions called and of what the host gives. What is done when there is no room is left open. -/
def notingCall (beyond : Caller (CallLog ω)) (host : HostFunctions) : Nat → Caller (CallLog ω)
  | 0 => beyond
  | room + 1 => fun f args => do
    modify (note (.asked f args))
    match f with
    | .builtin f => f.run args
    | .host _ name => do
      let v ← host name args
      modify (give v)
      return v
    | .closure id params body scope =>
      EvalM.deeper (inCall { id, params, body, scope, args }
        (body.eval (.noting (notingCall beyond host room)) (bindParams scope params args)))

/-- An evaluation as the program has it, with a log that goes on from a history. -/
def Expr.evaluateNoting (host : HostFunctions) (outside : ω) (history : CallHistory ω) (env : Env)
    (e : Expr) (identity : Nat) : Except EvalError Value × EvalState (CallLog ω) :=
  let call := notingCall (fun _ _ => throw (.callDepth maxCallDepth)) host (maxCallDepth + 1)
  (e.eval (.noting call) env).run.run { identity, store := { outside, history } }

section Runs

variable {σ : Type} {s : EvalState σ}

theorem run_deeper_of_lt (h : s.depth < maxCallDepth) (x : EvalM σ Value) :
    (EvalM.deeper x).run.run s =
      let r := x.run.run { s with depth := s.depth + 1 }
      (r.1, { r.2 with depth := r.2.depth - 1 }) := by
  change (ExceptT.run (if maxCallDepth ≤ s.depth then throw (.callDepth maxCallDepth)
    else EvalM.around _ _ x)).run s = _
  rw [if_neg (Nat.not_le.mpr h)]
  rfl

theorem run_deeper_of_le (h : maxCallDepth ≤ s.depth) (x : EvalM σ Value) :
    (EvalM.deeper x).run.run s = (.error (.callDepth maxCallDepth), s) := by
  change (ExceptT.run (if maxCallDepth ≤ s.depth then throw (.callDepth maxCallDepth)
    else EvalM.around _ _ x)).run s = _
  rw [if_pos h]
  rfl

theorem run_inCall (frame : CallFrame) (x : EvalM (CallLog ω) Value) (t : EvalState (CallLog ω)) :
    (inCall frame x).run.run t =
      let r := x.run.run (enter frame t)
      (r.1, leave r.1 r.2) := rfl

variable {beyond : Caller (CallLog ω)} {host : HostFunctions} {room id : Nat} {name : String}
  {args : List Value}

theorem run_host_ok {v : Value} (h : host name args = .ok v) (t : EvalState (CallLog ω)) :
    (notingCall beyond host (room + 1) (.host id name) args).run.run t =
      (.ok v, give v (note (.asked (.host id name) args) t)) := by
  change ((do let v ← host name args; modify (give v); return v :
    EvalM (CallLog ω) Value)).run.run (note _ t) = _
  rw [h]
  rfl

theorem run_host_error {e : EvalError} (h : host name args = .error e) (t : EvalState (CallLog ω)) :
    (notingCall beyond host (room + 1) (.host id name) args).run.run t =
      (.error e, note (.asked (.host id name) args) t) := by
  change ((do let v ← host name args; modify (give v); return v :
    EvalM (CallLog ω) Value)).run.run (note _ t) = _
  rw [h]
  rfl

end Runs

end Templating
