import Mathlib.Order.CompleteBooleanAlgebra
import Mathlib.Order.CompletePartialOrder
import Templating.Proofs.CallLog

/-!
The count of calls in progress. An evaluator counts them right at every moment, whichever way its
calls end, and that it never counts beyond the limit is what brings every evaluation to an end.
-/
namespace Templating
open EvalM CallLog

variable {ω : Type}

namespace CallInstant

/-- A closure is to be called although as many calls are in progress as may be. -/
def Exceeds (i : CallInstant ω) : Prop :=
  i.depth = maxCallDepth ∧
    ∃ id params body env args, i.event = .asked (.closure id params body env) args

def HostFails (host : HostFunctions) (e : EvalError) (i : CallInstant ω) : Prop :=
  ∃ id name args, i.event = .asked (.host id name) args ∧ host name args = .error e

/-- A call at which an evaluation fails for the number of its calls. -/
def Refuses (host : HostFunctions) (limit : Nat) (i : CallInstant ω) : Prop :=
  (i.Exceeds ∧ limit = maxCallDepth) ∨ i.HostFails host (.callDepth limit)

/-- Only calls are refused. -/
theorem not_refuses {host : HostFunctions} {limit : Nat} {i : CallInstant ω}
    (h : ∀ f args, i.event ≠ .asked f args) : ¬ i.Refuses host limit := by
  rintro (⟨⟨-, id, params, body, env, args, hevent⟩, -⟩ | ⟨id, name, args, hevent, -⟩)
  · exact h _ _ hevent
  · exact h _ _ hevent

end CallInstant

section Asked

variable {host : HostFunctions} {limit : Nat} {t : EvalState (CallLog ω)} {args : List Value}

theorem not_refuses_builtin {f : Builtin} :
    ¬ (instant t (.asked (.builtin f) args)).Refuses host limit := by
  simp [CallInstant.Refuses, CallInstant.Exceeds, CallInstant.HostFails, instant]

theorem refuses_host {id : Nat} {name : String} :
    (instant t (.asked (.host id name) args)).Refuses host limit ↔
      host name args = .error (.callDepth limit) := by
  simp [CallInstant.Refuses, CallInstant.Exceeds, CallInstant.HostFails, instant]

theorem refuses_closure {id : Nat} {params : List String} {body : Body} {env : Env} :
    (instant t (.asked (.closure id params body env) args)).Refuses host limit ↔
      t.depth = maxCallDepth ∧ limit = maxCallDepth := by
  simp [CallInstant.Refuses, CallInstant.Exceeds, CallInstant.HostFails, instant]

end Asked

def Refused (host : HostFunctions) (limit : Nat) (t : EvalState (CallLog ω)) : Prop :=
  ∃ i ∈ t.store.history.instants, i.Refuses host limit

theorem refused_iff {host : HostFunctions} {limit : Nat} {t : EvalState (CallLog ω)} :
    Refused host limit t ↔ (limit = maxCallDepth ∧ ∃ i ∈ t.store.history.instants, i.Exceeds) ∨
      ∃ i ∈ t.store.history.instants, i.HostFails host (.callDepth limit) := by
  constructor
  · rintro ⟨i, hi, ⟨hexceeds, hlimit⟩ | hfails⟩
    · exact .inl ⟨hlimit, i, hi, hexceeds⟩
    · exact .inr ⟨i, hi, hfails⟩
  · rintro (⟨hlimit, i, hi, hexceeds⟩ | ⟨i, hi, hfails⟩)
    · exact ⟨i, hi, .inl ⟨hexceeds, hlimit⟩⟩
    · exact ⟨i, hi, .inr hfails⟩

theorem refused_note {host : HostFunctions} {limit : Nat} {t : EvalState (CallLog ω)}
    {event : CallEvent} : Refused host limit (note event t) ↔
      CallInstant.Refuses host limit (instant t event) ∨ Refused host limit t :=
  List.exists_mem_cons_iff _ _ _

/-- Events that are no calls make no difference. -/
theorem refused_note_of_ne {host : HostFunctions} {limit : Nat} {t : EvalState (CallLog ω)}
    {event : CallEvent} (h : ∀ f args, event ≠ .asked f args) :
    Refused host limit (note event t) ↔ Refused host limit t :=
  refused_note.trans (or_iff_right (CallInstant.not_refuses h))

theorem refused_enter {host : HostFunctions} {limit : Nat} {frame : CallFrame}
    {t : EvalState (CallLog ω)} : Refused host limit (enter frame t) ↔ Refused host limit t :=
  refused_note_of_ne nofun

theorem refused_leave {host : HostFunctions} {limit : Nat} {result : Except EvalError Value}
    {t : EvalState (CallLog ω)} : Refused host limit (leave result t) ↔ Refused host limit t :=
  refused_note_of_ne nofun

/-- An evaluation and one with a log in which so many calls are in progress. -/
structure Tallies (n : Nat) (s : EvalState Unit) (t : EvalState (CallLog ω)) : Prop where
  identity : s.identity = t.identity
  plain : s.depth = n
  depth : t.depth = n
  calls : t.store.calls.length = n
  bound : n ≤ maxCallDepth
  instants : ∀ i ∈ t.store.history.instants, i.depth = i.calls.length ∧ i.depth ≤ maxCallDepth

namespace Tallies

variable {n : Nat} {s : EvalState Unit} {t : EvalState (CallLog ω)}

protected theorem note (h : Tallies n s t) (event : CallEvent) : Tallies n s (note event t) where
  identity := h.identity
  plain := h.plain
  depth := h.depth
  calls := h.calls
  bound := h.bound
  instants := by
    refine List.forall_mem_cons.mpr ⟨⟨h.depth.trans h.calls.symm, ?_⟩, h.instants⟩
    exact h.depth.trans_le h.bound

protected theorem enter (h : Tallies n s t) (hn : n < maxCallDepth) (frame : CallFrame) :
    Tallies (n + 1) { s with depth := s.depth + 1 }
      (enter frame { t with depth := t.depth + 1 }) := by
  refine Tallies.note (t := { t with depth := _, store.calls := frame :: t.store.calls }) ?_ _
  exact ⟨h.identity, congrArg (· + 1) h.plain, congrArg (· + 1) h.depth,
    congrArg (· + 1) h.calls, hn, h.instants⟩

protected theorem leave (h : Tallies (n + 1) s t) (result : Except EvalError Value) :
    Tallies n { s with depth := s.depth - 1 }
      { leave result t with depth := (leave result t).depth - 1 } := by
  obtain ⟨hidentity, hplain, hdepth, hcalls, hbound, hinstants⟩ := h.note (.left result)
  refine ⟨hidentity, congrArg (· - 1) hplain, congrArg (· - 1) hdepth, ?_, ?_, hinstants⟩
  · exact List.length_tail.trans (congrArg (· - 1) hcalls)
  · exact (Nat.le_succ n).trans hbound

end Tallies

/-- While so many calls are in progress the count is right, and what fails for the number of calls
fails at a call that is refused. -/
def depthInvariant (ω : Type) (host : HostFunctions) (n : Nat) :
    EvalInvariant Unit Unit (CallLog ω) where
  Known _ _ := True
  Holds _ _ s t := Tallies n s t ∧ ∀ limit, ¬ Refused host limit t
  Fails _ e s t := Tallies n s t ∧ ∀ limit, e = .callDepth limit ↔ Refused host limit t
  known_mono _ _ _ := trivial
  known_builtin _ _ := trivial
  fails_anti _ h := h
  throw := by
    rintro _ _ s t e ⟨htallies, hnone⟩ he
    refine ⟨htallies, fun limit => iff_of_false ?_ (hnone limit)⟩
    rintro rfl
    cases he
  identity h := h.1.identity
  fresh := by
    rintro _ _ s t ⟨⟨hidentity, hplain, hdepth, hcalls, hbound, hinstants⟩, hnone⟩
    exact ⟨⟨congrArg (· + 1) hidentity, hplain, hdepth, hcalls, hbound, hinstants⟩, hnone⟩

section Related

variable {host : HostFunctions} {n : Nat} {s : EvalState Unit} {t : EvalState (CallLog ω)}
  {w : Unit}
  {env : Env}

theorem depthInvariant_note (h : (depthInvariant ω host n).Holds w env s t) {event : CallEvent}
    (hevent : ∀ f args, event ≠ .asked f args) :
    (depthInvariant ω host n).Holds w env s (note event t) :=
  ⟨h.1.note event, fun limit => mt (refused_note_of_ne hevent).mp (h.2 limit)⟩

theorem noting_related {call : Caller Unit} {call' : Caller (CallLog ω)}
    (h : Caller.Related (depthInvariant ω host n) call call') :
    Evaluator.BindsRelated (depthInvariant ω host n) (.calling call) (.noting call') where
  call := h
  lookup w env name := by
    intro s t hst
    exact .ok (le_refl ()) (depthInvariant_note hst nofun) fun _ _ => trivial
  bind w env name v _ := by
    intro s t ⟨htallies, hnone⟩
    refine .ok (le_refl ()) ⟨⟨htallies.identity, htallies.plain, htallies.depth, ?_,
      htallies.bound, htallies.instants⟩, hnone⟩ rfl
    exact (List.length_modifyHead ..).trans htallies.calls
  capture w env params body := by
    refine Relates.fresh.bind fun w' _ id _ => ?_
    intro s t hst
    exact .ok (le_refl ()) (depthInvariant_note hst nofun) fun _ _ => trivial

/-- The body of a closure, one call deeper. -/
theorem deeper_settled {x : EvalM Unit Value} {y : EvalM (CallLog ω) Value} {env' : Env}
    (hxy : Ends (depthInvariant ω host (n + 1)) w env' (depthInvariant ω host (n + 1)).Good x y)
    (hst : (depthInvariant ω host n).Holds w env s t) (hn : n < maxCallDepth) (frame : CallFrame) :
    Settled (depthInvariant ω host n) w (fun _ => (depthInvariant ω host n).Holds w env)
      (depthInvariant ω host n).Good ((EvalM.deeper x).run.run s)
      ((EvalM.deeper (inCall frame y)).run.run t) := by
  obtain ⟨htallies, hnone⟩ := hst
  rw [run_deeper_of_lt (htallies.plain.trans_lt hn), run_deeper_of_lt (htallies.depth.trans_lt hn)]
  dsimp only [run_inCall]
  have hbody := hxy ⟨htallies.enter hn frame,
    fun limit => mt refused_enter.mp (hnone limit)⟩
  rcases hx : x.run.run { s with depth := s.depth + 1 } with ⟨outcome, s'⟩
  rcases hy : y.run.run (enter frame { t with depth := t.depth + 1 }) with ⟨outcome', t'⟩
  rw [hx, hy] at hbody
  cases hbody with
  | ok hw h ha =>
    obtain ⟨env', htallies, hnone⟩ := h
    refine .ok (le_refl ()) ⟨htallies.leave _, fun limit => ?_⟩ fun _ _ => trivial
    exact mt refused_leave.mp (hnone limit)
  | error h =>
    refine .error ⟨h.1.leave _, fun limit => ?_⟩
    exact (h.2 limit).trans refused_leave.symm

/-- The next call is not refused. -/
theorem depthInvariant_asked (h : (depthInvariant ω host n).Holds w env s t) {f : Function}
    {args : List Value}
    (hf : ∀ limit, ¬ CallInstant.Refuses host limit (instant t (.asked f args))) :
    (depthInvariant ω host n).Holds w env s (note (.asked f args) t) :=
  ⟨h.1.note _, fun limit hrefused => (refused_note.mp hrefused).elim (hf limit) (h.2 limit)⟩

/-- The next call is refused, and for that the evaluation fails. -/
theorem depthInvariant_refused (h : (depthInvariant ω host n).Holds w env s t) {f : Function}
    {args : List Value} {e : EvalError}
    (he : ∀ limit,
      e = .callDepth limit ↔ CallInstant.Refuses host limit (instant t (.asked f args))) :
    (depthInvariant ω host n).Fails w e s (note (.asked f args) t) :=
  ⟨h.1.note _, fun limit => (he limit).trans
    ((or_iff_left (h.2 limit)).symm.trans refused_note.symm)⟩

/-- While there is room for all calls within the limit, it makes no difference how much. -/
theorem call_related (host : HostFunctions) (beyond : Caller (CallLog ω)) :
    ∀ room room' n : Nat, maxCallDepth < room + n → maxCallDepth < room' + n →
      Caller.Related (depthInvariant ω host n) (callWith host room) (notingCall beyond host room')
  | 0, _, n, hroom, _ => by
    intro w env f args _ _ s t hst
    -- no more calls are in progress than the limit allows, so there is room
    have hbound := hst.1.bound
    omega
  | _, 0, n, _, hroom' => by
    intro w env f args _ _ s t hst
    have hbound := hst.1.bound
    omega
  | room + 1, room' + 1, n, hroom, hroom' => by
    intro w env f args _ hargs s t hst
    cases f with
    | builtin f =>
      exact Builtin.run_relates f hargs (depthInvariant_asked hst fun _ => not_refuses_builtin)
    | host id name =>
      change Settled _ _ _ _ (host name args, s) _
      cases hresult : host name args with
      | ok v =>
        have hnone (limit : Nat) : ¬ host name args = .error (.callDepth limit) := by simp [hresult]
        obtain ⟨⟨hidentity, hplain, hdepth, hcalls, hbound, hinstants⟩, hunrefused⟩ :=
          depthInvariant_asked (f := .host id name) hst fun limit =>
            mt refuses_host.mp (hnone limit)
        rw [run_host_ok hresult]
        exact .ok (le_refl ())
          ⟨⟨hidentity, hplain, hdepth, hcalls, hbound, hinstants⟩, hunrefused⟩ fun _ _ => trivial
      | error e =>
        rw [run_host_error hresult]
        refine .error (depthInvariant_refused hst fun limit => ?_)
        rw [refuses_host, hresult, Except.error.injEq]
    | closure id params body scope =>
      -- below the limit the body is one more call in progress, and at the limit both fail
      by_cases hn : n < maxCallDepth
      · have hcall := call_related host beyond room room' (n + 1) (by omega) (by omega)
        refine deeper_settled (Body.eval_ends (noting_related hcall) w _ body)
          (depthInvariant_asked hst fun limit hrefused => ?_) hn _
        have hdepth : t.depth ≠ maxCallDepth := hst.1.depth.trans_ne hn.ne
        exact hdepth (refuses_closure.mp hrefused).1
      · have hlimit : n = maxCallDepth := by have := hst.1.bound; omega
        have hdepth : t.depth = maxCallDepth := hst.1.depth.trans hlimit
        change Settled _ _ _ _ ((EvalM.deeper _).run.run s) ((EvalM.deeper _).run.run (note _ t))
        rw [run_deeper_of_le (hst.1.plain.trans hlimit).ge,
          run_deeper_of_le (s := note _ t) hdepth.ge]
        refine .error (depthInvariant_refused hst fun limit => ?_)
        rw [refuses_closure, EvalError.callDepth.injEq, eq_comm]
        exact (and_iff_right hdepth).symm

end Related

theorem depthInvariant_start (host : HostFunctions) (identity : Nat) (env : Env) (outside : ω) :
    (depthInvariant ω host 0).Holds () env { identity, store := () }
      { identity, store := { outside } } :=
  ⟨⟨rfl, rfl, rfl, rfl, Nat.zero_le _, nofun⟩, fun _ ⟨_, hi, _⟩ => nomatch hi⟩

/-- Two runs that are the same, with so many calls in progress before and after. -/
def restoring (σ : Type) (n : Nat) : EvalInvariant Unit σ σ where
  Known _ _ := True
  Holds _ _ s t := s = t ∧ s.depth = n
  Fails _ _ s t := s = t ∧ s.depth = n
  known_mono _ _ _ := trivial
  known_builtin _ _ := trivial
  fails_anti _ h := h
  throw h _ := h
  identity h := congrArg _ h.1
  fresh := by
    rintro _ _ s _ ⟨rfl, hdepth⟩
    exact ⟨rfl, hdepth⟩

theorem calling_restores {σ : Type} {n : Nat} {call : Caller σ}
    (h : Caller.Related (restoring σ n) call call) :
    Evaluator.BindsRelated (restoring σ n) (.calling call) (.calling call) where
  call := h
  lookup _ _ _ := Relates.pure fun _ _ => trivial
  bind w env name v _ := by
    intro s t hst
    exact .ok (le_refl ()) hst rfl
  capture _ _ _ _ := Relates.fresh.bind fun _ _ _ _ => Relates.pure fun _ _ => trivial

theorem call_restores {σ : Type} (host : HostFunctions) : ∀ room n : Nat,
    Caller.Related (restoring σ n) (callWith host room) (callWith host room)
  | 0, n => by
    rintro w env f args _ _ s _ ⟨rfl, hdepth⟩
    exact .error ⟨rfl, hdepth⟩
  | room + 1, n => by
    rintro w env f args _ hargs s _ ⟨rfl, hdepth⟩
    cases f with
    | builtin f => exact Builtin.run_relates f hargs ⟨rfl, hdepth⟩
    | host id name =>
      change Settled _ _ _ _ (host name args, s) (host name args, s)
      cases host name args with
      | ok v => exact .ok (le_refl ()) ⟨rfl, hdepth⟩ fun _ _ => trivial
      | error e => exact .error ⟨rfl, hdepth⟩
    | closure id params body scope =>
      change Settled _ _ _ _ ((EvalM.deeper _).run.run s) ((EvalM.deeper _).run.run s)
      by_cases hn : s.depth < maxCallDepth
      · rw [run_deeper_of_lt hn]
        dsimp only
        have hbody := Body.eval_ends (calling_restores (call_restores host room (n + 1))) w
          (bindParams scope params args) body (s := { s with depth := s.depth + 1 })
          ⟨rfl, congrArg (· + 1) hdepth⟩
        generalize (body.eval _ _).run.run { s with depth := s.depth + 1 } = r at hbody ⊢
        cases hbody with
        | ok hw h ha =>
          obtain ⟨env', -, hdepth'⟩ := h
          exact .ok (le_refl ()) ⟨rfl, congrArg (· - 1) hdepth'⟩ fun _ _ => trivial
        | error h => exact .error ⟨rfl, congrArg (· - 1) h.2⟩
      · rw [run_deeper_of_le (Nat.not_lt.mp hn)]
        exact .error ⟨rfl, hdepth⟩

/-- Every evaluation comes to an end within the limit: what calls do when there is no room for more
of them than that never matters. At every moment of it as many calls of closures are in progress as
are counted, and no more than may be, and in the end none. It fails for the number of its calls if
and only if a closure is called at the limit, unless a function of the host fails in just this way.
And any call leaves the count of calls as it was, whatever it comes to. -/
theorem evaluate_keeps_depth (host : HostFunctions) (beyond : Caller (CallLog ω)) (extra : Nat)
    (env : Env) (e : Expr) (identity : Nat) (outside : ω) :
    (let room := maxCallDepth + 1 + extra
     let (outcome, s) := (e.eval (.noting (notingCall beyond host room)) env).run.run
      { identity, store := { outside } }
     e.evaluate host env identity = outcome.map (fun v => (v, s.identity)) ∧
      (∀ i ∈ s.store.history.instants, i.depth = i.calls.length ∧ i.depth ≤ maxCallDepth) ∧
      s.depth = 0 ∧ s.store.calls = [] ∧
      ∀ limit, outcome = .error (.callDepth limit) ↔
        (limit = maxCallDepth ∧ ∃ i ∈ s.store.history.instants, i.Exceeds) ∨
          ∃ i ∈ s.store.history.instants, i.HostFails host (.callDepth limit)) ∧
    ∀ {σ : Type} (room : Nat) (f : Function) (args : List Value) (s : EvalState σ),
      ((callWith host room f args).run.run s).2.depth = s.depth := by
  refine ⟨?_, fun room f args s => ?_⟩
  -- room for one call more than may be nested, so that it never runs out
  · have hcall := call_related host beyond (maxCallDepth + 1) (maxCallDepth + 1 + extra) 0
      (by omega) (by omega)
    have hresult := Expr.eval_relates (noting_related hcall).toRelated () env e
      (depthInvariant_start host identity env outside)
    dsimp only [Expr.evaluate]
    generalize (e.eval (.calling _) env).run.run _ = x at hresult ⊢
    generalize (e.eval (.noting _) env).run.run _ = y at hresult ⊢
    cases hresult with
    | ok _ h _ =>
      obtain ⟨⟨hidentity, -, hdepth, hcalls, -, hinstants⟩, hnone⟩ := h
      refine ⟨congrArg (fun n => Except.ok (_, n)) hidentity, hinstants, hdepth,
        List.length_eq_zero_iff.mp hcalls, fun limit => ?_⟩
      rw [← refused_iff]
      exact iff_of_false nofun (hnone limit)
    | error h =>
      obtain ⟨⟨-, -, hdepth, hcalls, -, hinstants⟩, hlimit⟩ := h
      refine ⟨rfl, hinstants, hdepth, List.length_eq_zero_iff.mp hcalls, fun limit => ?_⟩
      rw [← refused_iff, ← hlimit, Except.error.injEq]
  · have hcall := call_restores host room s.depth () env f args trivial (fun _ _ _ _ => trivial)
      (s := s) (t := s) ⟨rfl, rfl⟩
    generalize (callWith host room f args).run.run s = r at hcall ⊢
    cases hcall with
    | ok _ h _ => exact h.2
    | error h => exact h.2

end Templating
