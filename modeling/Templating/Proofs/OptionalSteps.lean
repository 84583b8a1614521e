import Templating.Eval
import Templating.Proofs.Simulation

/-!
Optional steps (`?.`). A step whose guard comes to null or undefined gives undefined, and nothing
after the guard is evaluated. Where the guard of a call is what a property holds, the arguments come
first: the property has to be null or undefined and no method may have its name, and still every
effect and every failure of the arguments is that of the call.
-/
namespace Templating

def Value.methods : Value → List String
  | .string _ =>
    ["toUpperCase", "toLowerCase", "trim", "trimStart", "trimEnd", "includes", "startsWith",
      "endsWith", "indexOf", "lastIndexOf", "slice", "substring", "split", "replace", "replaceAll",
      "repeat", "padStart", "padEnd", "charAt", "at", "concat", "toString", "valueOf"]
  | .array _ _ =>
    ["map", "filter", "find", "findIndex", "some", "every", "forEach", "reduce", "includes",
      "indexOf", "join", "slice", "concat", "reverse", "flat", "at", "toString"]
  | .number _ => ["toFixed", "toString", "valueOf"]
  | .object _ _ => ["hasOwnProperty", "toString"]
  | .bool _ | .function _ => ["toString"]
  | .undefined | .null => []

def Expr.isMember : Expr → Bool
  | .member _ _ _ => true
  | _ => false

/-- An optional step and the expression that guards it: what stands before its `?.`. A call of an
optional member is guarded like the member. -/
inductive Expr.GuardedBy : Expr → Expr → Prop
  | member (target : Expr) (property : String) : GuardedBy (.member target property true) target
  | index (target key : Expr) : GuardedBy (.index target key true) target
  | call {callee : Expr} (h : callee.isMember = false) (args : List Element) :
      GuardedBy (.call callee args true) callee
  | method (target : Expr) (property : String) (args : List Element) (optional : Bool) :
      GuardedBy (.call (.member target property true) args optional) target

section Methods

variable {σ : Type} (call : Caller σ)

theorem callMethod_of_not_mem {v : Value} {name : String} (h : name ∉ v.methods)
    (args : List Value) : callMethod call v name args = pure none := by
  cases v with
  | string s =>
    unfold callMethod StringMethod.run
    split <;> simp_all [Value.methods]
  | array id items =>
    unfold callMethod ArrayMethod.run
    split <;> simp_all [Value.methods]
  | number x =>
    unfold callMethod NumberMethod.run
    split <;> simp_all [Value.methods]
    rfl
  | object id members =>
    unfold callMethod ObjectMethod.run
    split <;> simp_all [Value.methods]
  | bool b | function f =>
    have hname : name ≠ "toString" := fun hname => h (hname ▸ List.mem_singleton_self _)
    simp only [callMethod, if_neg hname]
  | undefined | null => rfl

/-- An action that does not end without a value. -/
def EvalM.Gives (x : EvalM σ (Option Value)) : Prop := ∀ s s', x.run.run s ≠ (.ok none, s')

namespace EvalM.Gives

theorem some (v : Value) : Gives (σ := σ) (pure (some v)) := nofun

theorem error (e : EvalError) :
    Gives (σ := σ) (liftM (.error e : Except EvalError (Option Value))) := nofun

theorem bind {α : Type} (x : EvalM σ α) {f : α → EvalM σ (Option Value)} (h : ∀ a, Gives (f a)) :
    Gives (x >>= f) := by
  intro s s' hrun
  rcases hx : x.run.run s with ⟨result, t⟩
  cases result with
  | error e =>
    rw [run_bind_error hx] at hrun
    cases hrun
  | ok a =>
    rw [run_bind_ok hx] at hrun
    exact h a t s' hrun

end EvalM.Gives

open EvalM (Gives)

theorem StringMethod.run_gives {s name : String} (h : name ∈ (Value.string s).methods)
    (args : List Value) : Gives (StringMethod.run call s name args) := by
  unfold StringMethod.run
  dsimp only
  split
  case h_13 | h_14 | h_15 | h_16 | h_17 | h_18 => exact Gives.bind _ fun _ => Gives.some _
  case h_24 => simp_all [Value.methods]
  all_goals exact Gives.some _

theorem ArrayMethod.run_gives {id : Nat} {items : List Value} {name : String}
    (h : name ∈ (Value.array id items).methods) (array : Value) (args : List Value) :
    Gives (ArrayMethod.run call array items name args) := by
  unfold ArrayMethod.run
  dsimp only
  split
  case h_1 | h_2 => exact .bind _ fun _ => .bind _ fun _ => .bind _ fun _ => .some _
  case h_3 | h_4 | h_5 | h_6 | h_7 => exact .bind _ fun _ => .bind _ fun _ => .some _
  case h_8 =>
    refine .bind _ fun f => ?_
    split
    · exact .bind _ fun _ => .some _
    · exact .bind _ fun _ => .some _
    · exact .error _
  case h_12 | h_13 | h_14 | h_15 => exact .bind _ fun _ => .some _
  case h_18 => simp_all [Value.methods]
  all_goals exact .some _

theorem NumberMethod.run_gives {x : Float} {name : String} (h : name ∈ (Value.number x).methods)
    (args : List Value) : Gives (σ := σ) (liftM (NumberMethod.run x name args)) := by
  unfold NumberMethod.run
  dsimp only
  split
  case h_1 | h_2 =>
    split
    · exact .error _
    · exact .some _
  case h_3 => exact .some _
  case h_4 => simp_all [Value.methods]

/-- A method of the receiver's kind gives a value or fails. -/
theorem callMethod_gives {v : Value} {name : String} (h : name ∈ v.methods) (args : List Value) :
    Gives (callMethod call v name args) := by
  cases v with
  | string s => exact StringMethod.run_gives call h args
  | array id items => exact ArrayMethod.run_gives call h _ args
  | number x => exact NumberMethod.run_gives h args
  | object id members =>
    change Gives (pure (ObjectMethod.run members name args))
    unfold ObjectMethod.run
    split
    · exact .some _
    · exact .some _
    · simp_all [Value.methods]
  | bool b | function f =>
    rw [List.mem_singleton.mp h]
    exact .some _
  | undefined | null => cases h

/-- A member that is null or undefined is passed over by an optional call. -/
theorem own_filter_of_nullish {v held : Value} {property : String}
    (hheld : v.property property = .ok held) (hnull : held.isNullish = true) :
    (v.members.lookup property).filter (fun w => !(true && w.isNullish)) = none := by
  cases v with
  | object id members =>
    change (members.lookup property).filter _ = none
    cases hown : members.lookup property with
    | none => rfl
    | some w =>
      have hw : w = held := by simpa [Value.property, hown] using hheld
      simp [Option.filter, hw, hnull]
  | _ => rfl

/-- An optional call of a property that is null or undefined calls the method of that name; when
there is none it gives undefined. -/
theorem callMember_of_nullish {v held : Value} {property : String}
    (hheld : v.property property = .ok held) (hnull : held.isNullish = true) (callee : Expr)
    (args : List Value) : callMember call callee v property true args =
      (do return (← callMethod call v property args).getD .undefined) := by
  unfold callMember
  rw [own_filter_of_nullish hheld hnull]
  refine congrArg (callMethod call v property args >>= ·) (funext fun result => ?_)
  cases result with
  | some r => rfl
  | none =>
    rw [hheld]
    change (if true && held.isNullish then _ else _) = _
    rw [hnull]
    rfl

end Methods

section Steps

variable {σ : Type} {evaluator : Evaluator σ} {env : Env} {s t : EvalState σ}

theorem Expr.eval_call {callee : Expr} (h : callee.isMember = false) (args : List Element)
    (optional : Bool) : (Expr.call callee args optional).eval evaluator env = (do
      let v ← callee.eval evaluator env
      if optional && v.isNullish then return .undefined
      let args ← evalElements evaluator env args
      callValue evaluator.call callee v args) := by
  rw [Expr.eval]
  rintro target property guarded rfl
  cases h

/-- When the guard comes to null or undefined the step is undefined, in the very state in which the
guard was left. -/
theorem Expr.GuardedBy.undefined {e guard : Expr} (h : e.GuardedBy guard) {v : Value}
    (hguard : (guard.eval evaluator env).run.run s = (.ok v, t)) (hv : v.isNullish = true) :
    (e.eval evaluator env).run.run s = (.ok .undefined, t) := by
  cases h with
  | member property =>
    rw [Expr.eval, run_bind_ok hguard, hv]
    rfl
  | index key =>
    rw [Expr.eval, run_bind_ok hguard, hv]
    rfl
  | call hcallee args =>
    rw [Expr.eval_call hcallee, run_bind_ok hguard, hv]
    rfl
  | method property args optional =>
    rw [Expr.eval, run_bind_ok hguard, hv]
    rfl

/-- An optional call of a property that holds null or undefined: the arguments, then the method. -/
theorem Expr.eval_optionalMethod {target : Expr} {property : String} {v held : Value}
    (htarget : (target.eval evaluator env).run.run s = (.ok v, t))
    (hheld : v.property property = .ok held) (hnull : held.isNullish = true) (guarded : Bool)
    (args : List Element) :
    ((Expr.call (.member target property guarded) args true).eval evaluator env).run.run s =
      (do
        let values ← evalElements evaluator env args
        return (← callMethod evaluator.call v property values).getD .undefined).run.run t := by
  have hv : v.isNullish = false := by
    cases v with
    | undefined | null => cases hheld
    | _ => rfl
  rw [Expr.eval, run_bind_ok htarget, hv, Bool.and_false]
  simp only [callMember_of_nullish _ hheld hnull]
  rfl

/-- The arguments of such a call fail as the call, and the method that there is gives its result;
without one the result is undefined, in the state in which the arguments were left. -/
theorem Expr.optionalMethod_runs {target : Expr} {property : String} {v held : Value}
    (htarget : (target.eval evaluator env).run.run s = (.ok v, t))
    (hheld : v.property property = .ok held) (hnull : held.isNullish = true) (guarded : Bool)
    (args : List Element) :
    let whole := (Expr.call (.member target property guarded) args true).eval evaluator env
    (∀ failure u, (evalElements evaluator env args).run.run t = (.error failure, u) →
      whole.run.run s = (.error failure, u)) ∧
    ∀ values u, (evalElements evaluator env args).run.run t = (.ok values, u) →
      (property ∉ v.methods → whole.run.run s = (.ok .undefined, u)) ∧
      (property ∈ v.methods → ∀ outcome w,
        (callMethod evaluator.call v property values).run.run u = (outcome, w) →
        ∃ r : Except EvalError Value, outcome = r.map some ∧ whole.run.run s = (r, w)) := by
  intro whole
  have hwhole := Expr.eval_optionalMethod htarget hheld hnull guarded args
  refine ⟨fun failure u hargs => ?_, fun values u hargs => ⟨fun hnone => ?_, fun hmem => ?_⟩⟩
  · rw [hwhole, run_bind_error hargs]
  · rw [hwhole, run_bind_ok hargs, callMethod_of_not_mem _ hnone]
    rfl
  · intro outcome w hmethod
    rw [hwhole, run_bind_ok hargs]
    cases outcome with
    | error failure => exact ⟨.error failure, rfl, run_bind_error hmethod⟩
    | ok result =>
      cases result with
      | none => exact absurd hmethod (callMethod_gives _ hmem values u w)
      | some r => exact ⟨.ok r, rfl, run_bind_ok hmethod⟩

end Steps

/-- An optional step whose guard comes to null or undefined gives undefined, and nothing else is
evaluated. An optional call of a property that is null or undefined evaluates its arguments, whose
failures are its own, and then gives what the method of that name gives, and undefined when values
of the kind have no such method. -/
theorem optional_steps_run {σ : Type} (evaluator : Evaluator σ) (env : Env) (s t : EvalState σ) :
    (∀ e guard v, Expr.GuardedBy e guard → (guard.eval evaluator env).run.run s = (.ok v, t) →
      v.isNullish = true → (e.eval evaluator env).run.run s = (.ok .undefined, t)) ∧
    ∀ target property guarded args v held,
      (Expr.eval evaluator env target).run.run s = (.ok v, t) → v.property property = .ok held →
      held.isNullish = true →
      let whole := (Expr.call (.member target property guarded) args true).eval evaluator env
      (∀ failure u, (evalElements evaluator env args).run.run t = (.error failure, u) →
        whole.run.run s = (.error failure, u)) ∧
      ∀ values u, (evalElements evaluator env args).run.run t = (.ok values, u) →
        (property ∉ v.methods → whole.run.run s = (.ok .undefined, u)) ∧
        (property ∈ v.methods → ∀ outcome w,
          (callMethod evaluator.call v property values).run.run u = (outcome, w) →
          ∃ r : Except EvalError Value, outcome = r.map some ∧ whole.run.run s = (r, w)) :=
  ⟨fun _ _ _ h hguard hv => h.undefined hguard hv,
    fun _ _ guarded args _ _ htarget hheld hnull =>
      Expr.optionalMethod_runs htarget hheld hnull guarded args⟩

/-- The failing index of a step that is not taken. -/
theorem optional_index_of_null :
    ((Expr.index .null (.member .null "x" false) true).eval
      (.calling (callWith (fun _ _ => .ok .undefined) 1)) []).run.run
      { identity := firstIdentity, store := () } =
        (.ok .undefined, { identity := firstIdentity, store := () }) :=
  (optional_steps_run _ [] _ _).1 _ _ .null (.index .null _) rfl rfl

/-- Optional calls of properties that hold nothing: the argument of the first fails, and the second
finds the method of objects. -/
theorem optional_method_of_nothing :
    let host : HostFunctions := fun _ _ => .ok .undefined
    (Expr.call (.member (.string "a") "m" false) [.item (.member .null "x" false)] true).evaluate
      host [] firstIdentity = .error (.propertyOfNullish "x" "null") ∧
    ((Expr.call (.member (.object [.named "toString" .null]) "toString" false) [] true).evaluate
      host [] firstIdentity).map (·.1.toText) = .ok "[object Object]" :=
  ⟨rfl, rfl⟩

end Templating
