import Mathlib.Order.Basic
import Templating.Proofs.Holding
import Templating.Proofs.Simulation

/-!
Two evaluations side by side. What one step of an evaluator keeps is kept by the evaluation of every
expression, with all the methods that call functions back. What is kept may come to hold of more
functions as the evaluation goes on.
-/
namespace Templating

variable {W σ τ α β : Type} [Preorder W]

/-- What evaluations over two stores keep: a relation of their states in the middle of a call or
outside all calls, where `env` are the names bound there, and one of the states after a failure. Of
the functions that occur in values only those that are known by then are allowed. -/
structure EvalInvariant (W σ τ : Type) [Preorder W] where
  Known : W → Function → Prop
  Holds : W → Env → EvalState σ → EvalState τ → Prop
  Fails : W → EvalError → EvalState σ → EvalState τ → Prop
  known_mono : ∀ {w w'}, w ≤ w' → ∀ f, Known w f → Known w' f
  known_builtin : ∀ w f, Known w (.builtin f)
  fails_anti : ∀ {w w' e s t}, w ≤ w' → Fails w' e s t → Fails w e s t
  throw : ∀ {w env s t e}, Holds w env s t → e.isCallDepth = false → Fails w e s t
  identity : ∀ {w env s t}, Holds w env s t → s.identity = t.identity
  fresh : ∀ {w env s t}, Holds w env s t →
    Holds w env { s with identity := s.identity + 1 } { t with identity := t.identity + 1 }

namespace EvalInvariant

variable (I : EvalInvariant W σ τ)

def Good (w : W) (v : Value) : Prop := v.Each (I.Known w)

def AllGood (w : W) (vs : List Value) : Prop := ∀ v ∈ vs, I.Good w v

variable {I} {w w' : W}

theorem Good.mono {v : Value} (h : I.Good w v) (hw : w ≤ w') : I.Good w' v :=
  Value.Each.mono h (I.known_mono hw)

theorem AllGood.mono {vs : List Value} (h : I.AllGood w vs) (hw : w ≤ w') : I.AllGood w' vs :=
  fun v hv => (h v hv).mono hw

theorem allGood_nil : I.AllGood w [] := nofun

theorem AllGood.cons {v : Value} {vs : List Value} (h : I.Good w v) (hs : I.AllGood w vs) :
    I.AllGood w (v :: vs) := List.forall_mem_cons.mpr ⟨h, hs⟩

theorem AllGood.append {vs us : List Value} (h : I.AllGood w vs) (hs : I.AllGood w us) :
    I.AllGood w (vs ++ us) := List.forall_mem_append.mpr ⟨h, hs⟩

theorem AllGood.spliced {vs : List Value} (h : I.AllGood w vs) :
    I.AllGood w (vs.flatMap ArrayMethod.spliced) := by
  intro u hu
  obtain ⟨v, hv, hu⟩ := List.mem_flatMap.mp hu
  exact Value.Each.spliced (h v hv) u hu

theorem AllGood.argument {args : List Value} (h : I.AllGood w args) (i : Nat) :
    I.Good w (argument args i) := each_argument h i

end EvalInvariant

open EvalInvariant

inductive Settled (I : EvalInvariant W σ τ) (w : W) (H : W → EvalState σ → EvalState τ → Prop)
    (Q : W → α → Prop) : Except EvalError α × EvalState σ → Except EvalError α × EvalState τ → Prop
  | ok {w' : W} {a : α} {s : EvalState σ} {t : EvalState τ} (hw : w ≤ w') (h : H w' s t)
    (ha : Q w' a) : Settled I w H Q (.ok a, s) (.ok a, t)
  | error {e : EvalError} {s : EvalState σ} {t : EvalState τ} (h : I.Fails w e s t) :
    Settled I w H Q (.error e, s) (.error e, t)

/-- From related states both come to the same result or failure, and to states related as `H` says.
-/
def EvalM.Leads (I : EvalInvariant W σ τ) (w : W) (env : Env)
    (H : W → EvalState σ → EvalState τ → Prop) (Q : W → α → Prop) (x : EvalM σ α) (y : EvalM τ α) :
    Prop :=
  ∀ ⦃s t⦄, I.Holds w env s t → Settled I w H Q (x.run.run s) (y.run.run t)

/-- The evaluations come back to the names they began with. -/
abbrev EvalM.Relates (I : EvalInvariant W σ τ) (w : W) (env : Env) (Q : W → α → Prop)
    (x : EvalM σ α) (y : EvalM τ α) : Prop :=
  EvalM.Leads I w env (fun w' => I.Holds w' env) Q x y

/-- More names may be bound in the end. -/
abbrev EvalM.Ends (I : EvalInvariant W σ τ) (w : W) (env : Env) (Q : W → α → Prop)
    (x : EvalM σ α) (y : EvalM τ α) : Prop :=
  EvalM.Leads I w env (fun w' s t => ∃ env', I.Holds w' env' s t) Q x y

variable {I : EvalInvariant W σ τ} {w w' : W} {env : Env}

theorem Settled.weaken {H H' : W → EvalState σ → EvalState τ → Prop} {Q Q' : W → α → Prop}
    {x : Except EvalError α × EvalState σ} {y : Except EvalError α × EvalState τ} (hw : w ≤ w')
    (h : Settled I w' H Q x y) (hH : ∀ w s t, H w s t → H' w s t)
    (hQ : ∀ w a, Q w a → Q' w a) : Settled I w H' Q' x y := by
  cases h with
  | ok hw' h ha => exact .ok (hw.trans hw') (hH _ _ _ h) (hQ _ _ ha)
  | error h => exact .error (I.fails_anti hw h)

namespace EvalM

variable {H H' : W → EvalState σ → EvalState τ → Prop} {Q : W → α → Prop} {Q' : W → β → Prop}

theorem Leads.bind {x : EvalM σ α} {y : EvalM τ α} {f : α → EvalM σ β} {g : α → EvalM τ β}
    (hxy : Leads I w env H Q x y)
    (hfg : ∀ w', w ≤ w' → ∀ a, Q w' a → ∀ {s t}, H w' s t →
      Settled I w' H' Q' ((f a).run.run s) ((g a).run.run t)) :
    Leads I w env H' Q' (x >>= f) (y >>= g) := by
  intro s t hst
  have hresult := hxy hst
  rcases hx : x.run.run s with ⟨outcome, s'⟩
  rcases hy : y.run.run t with ⟨outcome', t'⟩
  rw [hx, hy] at hresult
  cases hresult with
  | ok hw h ha =>
    rw [run_bind_ok hx, run_bind_ok hy]
    exact (hfg _ hw _ ha h).weaken hw (fun _ _ _ => id) fun _ _ => id
  | error h =>
    rw [run_bind_error hx, run_bind_error hy]
    exact .error h

namespace Relates

protected theorem pure {a : α} (h : Q w a) : Relates I w env Q (pure a) (pure a) := by
  intro s t hst
  exact .ok le_rfl hst h

protected theorem throw {e : EvalError} (h : e.isCallDepth = false) :
    Relates I w env Q (throw e) (throw e) := by
  intro s t hst
  exact .error (I.throw hst h)

theorem bind_leads {x : EvalM σ α} {y : EvalM τ α} {f : α → EvalM σ β} {g : α → EvalM τ β}
    (hxy : Relates I w env Q x y)
    (hfg : ∀ w', w ≤ w' → ∀ a, Q w' a → Leads I w' env H Q' (f a) (g a)) :
    Leads I w env H Q' (x >>= f) (y >>= g) :=
  Leads.bind hxy fun w' hw a ha _ _ hst => hfg w' hw a ha hst

protected theorem bind {x : EvalM σ α} {y : EvalM τ α} {f : α → EvalM σ β} {g : α → EvalM τ β}
    (hxy : Relates I w env Q x y)
    (hfg : ∀ w', w ≤ w' → ∀ a, Q w' a → Relates I w' env Q' (f a) (g a)) :
    Relates I w env Q' (x >>= f) (y >>= g) := bind_leads hxy hfg

theorem ends {x : EvalM σ α} {y : EvalM τ α} (h : Relates I w env Q x y) : Ends I w env Q x y :=
  fun _ _ hst => (h hst).weaken le_rfl (fun _ _ _ h => ⟨env, h⟩) fun _ _ => id

theorem ofExcept {P : α → Prop} {r : Except EvalError α} (h : Yields P r)
    (hQ : ∀ a, P a → Q w a) : Relates I w env Q (liftM r) (liftM r) := by
  intro s t hst
  cases r with
  | ok a => exact .ok le_rfl hst (hQ a h)
  | error e => exact .error (I.throw hst h)

theorem fresh : Relates I w env (fun _ _ => True) EvalM.fresh EvalM.fresh := by
  intro s t hst
  change Settled I w _ _ (.ok s.identity, _) (.ok t.identity, _)
  rw [I.identity hst]
  have h := I.fresh hst
  rw [I.identity hst] at h
  exact .ok le_rfl h trivial

theorem newArray {items : List Value} (h : I.AllGood w items) :
    Relates I w env I.Good (EvalM.newArray items) (EvalM.newArray items) :=
  fresh.bind fun _ hw _ _ => Relates.pure (Value.each_array (h.mono hw))

theorem newObject {members : Members} (h : members.Each (I.Known w)) :
    Relates I w env I.Good (EvalM.newObject members) (EvalM.newObject members) :=
  fresh.bind fun _ hw _ _ => Relates.pure (Value.each_object (h.mono (I.known_mono hw)))

end Relates
end EvalM

open EvalM

/-- Calls of known functions are related, whatever names are bound where they are made. -/
def Caller.Related (I : EvalInvariant W σ τ) (call : Caller σ) (call' : Caller τ) : Prop :=
  ∀ w env f args, I.Known w f → I.AllGood w args →
    Relates I w env I.Good (call f args) (call' f args)

def EvalInvariant.GoodIfAny (I : EvalInvariant W σ τ) (w : W) (v? : Option Value) : Prop :=
  ∀ v, v? = some v → I.Good w v

theorem EvalInvariant.goodIfAny_some {v : Value} (h : I.Good w v) : I.GoodIfAny w (some v) := by
  rintro _ ⟨⟩
  exact h

theorem EvalInvariant.goodIfAny_none : I.GoodIfAny w none := nofun

theorem EvalM.Relates.some {x : EvalM σ Value} {y : EvalM τ Value}
    (h : Relates I w env I.Good x y) :
    Relates I w env I.GoodIfAny (do return some (← x)) (do return some (← y)) :=
  h.bind fun _ _ _ hv => Relates.pure (goodIfAny_some hv)

namespace ArrayMethod

section Callbacks

variable {visit : Nat → Value → EvalM σ Value} {visit' : Nat → Value → EvalM τ Value}

def VisitsRelated (I : EvalInvariant W σ τ) (w : W) (env : Env)
    (visit : Nat → Value → EvalM σ Value) (visit' : Nat → Value → EvalM τ Value) : Prop :=
  ∀ w', w ≤ w' → ∀ i item, I.Good w' item → Relates I w' env I.Good (visit i item) (visit' i item)

theorem VisitsRelated.mono (h : VisitsRelated I w env visit visit') (hw : w ≤ w') :
    VisitsRelated I w' env visit visit' := fun w'' hw' => h w'' (hw.trans hw')

theorem mapFrom_relates : ∀ {w : W} (_ : VisitsRelated I w env visit visit') (i : Nat)
    {items : List Value}, I.AllGood w items →
      Relates I w env I.AllGood (mapFrom visit i items) (mapFrom visit' i items)
  | _, _, _, [], _ => Relates.pure nofun
  | w, h, i, item :: items, hitems => by
    obtain ⟨hitem, hrest⟩ := List.forall_mem_cons.mp hitems
    refine (h w le_rfl i item hitem).bind fun w₁ hw₁ result hresult => ?_
    have hmore := mapFrom_relates (h.mono hw₁) (i + 1) (AllGood.mono hrest hw₁)
    refine hmore.bind fun w₂ hw₂ results hresults => Relates.pure ?_
    exact List.forall_mem_cons.mpr ⟨hresult.mono hw₂, hresults⟩

theorem filterFrom_relates : ∀ {w : W} (_ : VisitsRelated I w env visit visit') (i : Nat)
    {items : List Value}, I.AllGood w items →
      Relates I w env I.AllGood (filterFrom visit i items) (filterFrom visit' i items)
  | _, _, _, [], _ => Relates.pure nofun
  | w, h, i, item :: items, hitems => by
    obtain ⟨hitem, hrest⟩ := List.forall_mem_cons.mp hitems
    refine (h w le_rfl i item hitem).bind fun w₁ hw₁ result hresult => ?_
    have hmore := filterFrom_relates (h.mono hw₁) (i + 1) (AllGood.mono hrest hw₁)
    refine hmore.bind fun w₂ hw₂ kept hkept => Relates.pure ?_
    split
    · exact List.forall_mem_cons.mpr ⟨hitem.mono (hw₁.trans hw₂), hkept⟩
    · exact hkept

/-- What is found is one of the items. -/
theorem findFrom_relates (truth : Bool) : ∀ {w : W} (_ : VisitsRelated I w env visit visit')
    (i : Nat) {items : List Value}, I.AllGood w items →
      Relates I w env (fun w' found => I.GoodIfAny w' (found.map (·.2)))
        (findFrom visit truth i items) (findFrom visit' truth i items)
  | _, _, _, [], _ => Relates.pure goodIfAny_none
  | w, h, i, item :: items, hitems => by
    obtain ⟨hitem, hrest⟩ := List.forall_mem_cons.mp hitems
    refine (h w le_rfl i item hitem).bind fun w₁ hw₁ result hresult => ?_
    split
    · exact Relates.pure (goodIfAny_some (hitem.mono hw₁))
    · exact findFrom_relates truth (h.mono hw₁) (i + 1) (AllGood.mono hrest hw₁)

end Callbacks

theorem foldFrom_relates {combine : Value → Nat → Value → EvalM σ Value}
    {combine' : Value → Nat → Value → EvalM τ Value} : ∀ {w : W}
    (_ : ∀ w', w ≤ w' → ∀ acc i item, I.Good w' acc → I.Good w' item →
      Relates I w' env I.Good (combine acc i item) (combine' acc i item)) {acc : Value} (i : Nat)
    {items : List Value}, I.Good w acc → I.AllGood w items →
      Relates I w env I.Good (foldFrom combine acc i items) (foldFrom combine' acc i items)
  | _, _, _, _, [], hacc, _ => Relates.pure hacc
  | w, h, acc, i, item :: items, hacc, hitems => by
    obtain ⟨hitem, hrest⟩ := List.forall_mem_cons.mp hitems
    refine (h w le_rfl acc i item hacc hitem).bind fun w₁ hw₁ acc hacc => ?_
    refine foldFrom_relates (fun w' hw' => h w' (hw₁.trans hw')) (i + 1) hacc ?_
    exact AllGood.mono hrest hw₁

section Run

variable {call : Caller σ} {call' : Caller τ} {array : Value} {items args : List Value}

/-- The callback is called with good values only. -/
theorem visitor_relates {Q : W → α → Prop} (h : Caller.Related I call call')
    (harray : I.Good w array) (name : String) (hargs : I.AllGood w args)
    {f : (Nat → Value → EvalM σ Value) → EvalM σ α} {g : (Nat → Value → EvalM τ Value) → EvalM τ α}
    (hfg : ∀ {visit visit'}, VisitsRelated I w env visit visit' →
      Relates I w env Q (f visit) (g visit')) :
    Relates I w env Q
      ((do let f ← callback args name; return fun i item => call f [item, .nat i, array]) >>= f)
      ((do let f ← callback args name; return fun i item => call' f [item, .nat i, array]) >>=
        g) := by
  intro s t hst
  have hcallback := yields_callback hargs name
  cases hf : callback args name with
  | error e =>
    rw [hf] at hcallback
    exact .error (I.throw hst hcallback)
  | ok f =>
    rw [hf] at hcallback
    refine hfg (fun w' hw' i item hitem => h w' env f _ (I.known_mono hw' f hcallback) ?_) hst
    exact .cons hitem (.cons (Value.each_number _) (.cons (harray.mono hw') allGood_nil))

/-- The search decides what comes of it, which is good if what is found is. -/
theorem found_relates (h : Caller.Related I call call') (harray : I.Good w array)
    (hitems : I.AllGood w items) (name : String) (hargs : I.AllGood w args) (truth : Bool)
    {result : Option (Nat × Value) → Value}
    (hresult : ∀ w' found, I.GoodIfAny w' (found.map (·.2)) → I.Good w' (result found)) :
    Relates I w env I.GoodIfAny
      ((do let f ← callback args name; return fun i item => call f [item, .nat i, array]) >>=
        fun visit => do return some (result (← findFrom visit truth 0 items)))
      ((do let f ← callback args name; return fun i item => call' f [item, .nat i, array]) >>=
        fun visit => do return some (result (← findFrom visit truth 0 items))) := by
  refine visitor_relates h harray name hargs fun hvisit => ?_
  refine (findFrom_relates truth hvisit 0 hitems).bind fun w' _ found hfound => ?_
  exact Relates.pure (goodIfAny_some (hresult w' found hfound))

theorem reduce_relates (h : Caller.Related I call call') (harray : I.Good w array)
    (hitems : I.AllGood w items) (hargs : I.AllGood w args) :
    Relates I w env I.GoodIfAny (run call array items "reduce" args)
      (run call' array items "reduce" args) := by
  refine (Relates.ofExcept (yields_callback hargs _) fun _ => id).bind fun w' hw f hf => ?_
  have hcombine : ∀ w'', w' ≤ w'' → ∀ acc i item, I.Good w'' acc → I.Good w'' item →
      Relates I w'' env I.Good (call f [acc, item, .nat i, array])
        (call' f [acc, item, .nat i, array]) := by
    intro w'' hw' acc i item hacc hitem
    refine h w'' env f _ (I.known_mono hw' f hf) (.cons hacc (.cons hitem ?_))
    exact .cons (Value.each_number _) (.cons (harray.mono (hw.trans hw')) allGood_nil)
  dsimp only
  split
  · have hstart := AllGood.mono hargs hw _ (List.mem_cons_of_mem _ List.mem_cons_self)
    exact (foldFrom_relates hcombine 0 hstart (AllGood.mono hitems hw)).some
  · obtain ⟨hfirst, hrest⟩ := List.forall_mem_cons.mp (AllGood.mono hitems hw)
    exact (foldFrom_relates hcombine 1 hfirst hrest).some
  · exact Relates.throw rfl

theorem run_relates (h : Caller.Related I call call') (harray : I.Good w array)
    (hitems : I.AllGood w items) (name : String) (hargs : I.AllGood w args) :
    Relates I w env I.GoodIfAny (run call array items name args)
      (run call' array items name args) := by
  unfold run
  dsimp only
  split
  case h_1 =>
    refine visitor_relates h harray _ hargs fun hvisit => ?_
    exact (mapFrom_relates hvisit 0 hitems).bind fun _ _ _ hlist => (Relates.newArray hlist).some
  case h_2 =>
    refine visitor_relates h harray _ hargs fun hvisit => ?_
    exact (filterFrom_relates hvisit 0 hitems).bind fun _ _ _ hlist => (Relates.newArray hlist).some
  case h_3 =>
    exact found_relates h harray hitems _ hargs true fun _ _ hfound => Value.each_getD hfound
  case h_4 =>
    exact found_relates h harray hitems _ hargs true fun _ found _ => Value.each_indexValue _
  case h_5 => exact found_relates h harray hitems _ hargs true fun _ _ _ => Value.each_bool _
  case h_6 => exact found_relates h harray hitems _ hargs false fun _ _ _ => Value.each_bool _
  case h_7 =>
    refine visitor_relates h harray _ hargs fun hvisit => ?_
    refine (mapFrom_relates hvisit 0 hitems).bind fun _ _ _ _ => Relates.pure ?_
    exact goodIfAny_some Value.each_undefined
  case h_8 => exact reduce_relates h harray hitems hargs
  case h_9 => exact Relates.pure (goodIfAny_some (Value.each_bool _))
  case h_10 => exact Relates.pure (goodIfAny_some (Value.each_indexValue _))
  case h_11 => exact Relates.pure (goodIfAny_some (Value.each_string _))
  case h_12 => exact (Relates.newArray fun v hv => hitems v (mem_of_mem_between hv)).some
  case h_13 => exact (Relates.newArray (hitems.append hargs.spliced)).some
  case h_14 => exact (Relates.newArray fun v hv => hitems v (List.mem_reverse.mp hv)).some
  case h_15 => exact (Relates.newArray hitems.spliced).some
  case h_16 =>
    refine Relates.pure (goodIfAny_some (Value.each_getD fun v hv => ?_))
    exact hitems v (mem_of_itemFrom?_eq_some hv)
  case h_17 => exact Relates.pure (goodIfAny_some (Value.each_string _))
  case h_18 => exact Relates.pure goodIfAny_none

end Run

end ArrayMethod

namespace StringMethod

variable {call : Caller σ} {call' : Caller τ} {args : List Value}

theorem each_ofChars {P : Function → Prop} (cs : List Char) : (ofChars cs).Each P :=
  Value.each_string _

theorem each_index {P : Function → Prop} (i : Option Nat) : (index i).Each P := by
  cases i with
  | none => exact Value.each_number _
  | some i => exact Value.each_number _

theorem each_at {P : Function → Prop} (cs : List Char) (args : List Value) :
    («at» cs args).Each P := by
  unfold «at»
  split
  · exact Value.each_string _
  · exact Value.each_undefined

theorem allGood_split (cs : List Char) (args : List Value) : I.AllGood w (split cs args) := by
  intro v hv
  have hmem : v ∈ (splitParts cs (argument args 0)).map ofChars := by
    simp only [split] at hv
    split at hv
    · exact hv
    · exact List.mem_of_mem_take hv
  obtain ⟨part, -, rfl⟩ := List.mem_map.mp hmem
  exact each_ofChars part

theorem yields_repeat (cs : List Char) (args : List Value) :
    Yields (fun _ => True) («repeat» cs args) := by
  simp only [«repeat»]
  split_ifs
  all_goals first | rfl | trivial

theorem yields_paddingOf (method : String) (cs : List Char) (args : List Value) :
    Yields (fun _ => True) (paddingOf method cs args) := by
  simp only [paddingOf]
  split_ifs
  all_goals first | rfl | trivial

theorem replacement_relates (h : Caller.Related I call call') (pattern whole : List Char)
    {value : Value} (hvalue : I.Good w value) (i : Nat) :
    Relates I w env (fun _ _ => True) (replacement call pattern whole value i)
      (replacement call' pattern whole value i) := by
  cases value with
  | function f =>
    refine (h w env f _ hvalue.function ?_).bind fun _ _ _ _ => Relates.pure trivial
    exact .cons (each_ofChars _) (.cons (Value.each_number _) (.cons (each_ofChars _) allGood_nil))
  | _ => exact Relates.pure trivial

theorem joinReplaced_relates {replace : Nat → EvalM σ (List Char)}
    {replace' : Nat → EvalM τ (List Char)} (width : Nat) : ∀ {w : W}
    (_ : ∀ w', w ≤ w' → ∀ i, Relates I w' env (fun _ _ => True) (replace i) (replace' i)) (i : Nat)
    (pieces : List (List Char)), Relates I w env (fun _ _ => True)
      (joinReplaced replace width i pieces) (joinReplaced replace' width i pieces)
  | _, _, _, [] => Relates.pure trivial
  | _, _, _, [_] => Relates.pure trivial
  | w, h, i, piece :: next :: pieces => by
    refine (h w le_rfl (i + piece.length)).bind fun w₁ hw₁ middle _ => ?_
    have hmore := joinReplaced_relates width (fun w' hw' => h w' (hw₁.trans hw'))
      (i + piece.length + width) (next :: pieces)
    exact hmore.bind fun _ _ _ _ => Relates.pure trivial

theorem replace_relates (h : Caller.Related I call call') (every : Bool) (cs : List Char)
    (hargs : I.AllGood w args) :
    Relates I w env (fun _ _ => True) (replace call every cs args)
      (replace call' every cs args) :=
  joinReplaced_relates _
    (fun _ hw i => replacement_relates h _ _ ((hargs.argument 1).mono hw) i) _ _

theorem run_relates (h : Caller.Related I call call') (s name : String)
    (hargs : I.AllGood w args) :
    Relates I w env I.GoodIfAny (run call s name args) (run call' s name args) := by
  have hvalue {v : Value} (hv : ∀ {P}, v.Each P) : Relates I w env I.GoodIfAny (pure (some v))
      (pure (some v)) := Relates.pure (goodIfAny_some hv)
  have hyields {r : Except EvalError (List Char)} (hr : Yields (fun _ => True) r)
      (f : List Char → List Char) : Relates I w env I.GoodIfAny
        (do return some (ofChars (f (← r)))) (do return some (ofChars (f (← r)))) := by
    have hresult : Relates I w env (fun _ _ => True) (liftM r) (liftM r) :=
      Relates.ofExcept hr fun _ => id
    exact hresult.bind fun _ _ _ _ => Relates.pure (goodIfAny_some (each_ofChars _))
  have hreplace (every : Bool) : Relates I w env I.GoodIfAny
      (do return some (ofChars (← replace call every s.toList args)))
      (do return some (ofChars (← replace call' every s.toList args))) :=
    (replace_relates h every _ hargs).bind fun _ _ _ _ =>
      Relates.pure (goodIfAny_some (each_ofChars _))
  unfold run
  dsimp only
  split
  case h_6 | h_7 | h_8 => exact hvalue (Value.each_bool _)
  case h_9 | h_10 => exact hvalue (each_index _)
  case h_13 => exact (Relates.newArray (allGood_split _ _)).some
  case h_14 => exact hreplace false
  case h_15 => exact hreplace true
  case h_16 => exact hyields (yields_repeat _ _) id
  case h_17 => exact hyields (yields_paddingOf _ _ _) (· ++ s.toList)
  case h_18 => exact hyields (yields_paddingOf _ _ _) (s.toList ++ ·)
  case h_20 => exact hvalue (each_at _ _)
  case h_24 => exact Relates.pure goodIfAny_none
  all_goals exact hvalue (Value.each_string _)

end StringMethod

theorem NumberMethod.run_yields (x : Float) (name : String) (args : List Value) :
    Yields (I.GoodIfAny w) (run x name args) := by
  unfold run
  dsimp only
  split
  case h_1 | h_2 =>
    split
    · rfl
    · exact goodIfAny_some (Value.each_string _)
  case h_3 => exact goodIfAny_some (Value.each_number _)
  case h_4 => exact goodIfAny_none

theorem ObjectMethod.good_run (members : Members) (name : String) (args : List Value) :
    I.GoodIfAny w (run members name args) := by
  unfold run
  split
  · exact goodIfAny_some (Value.each_bool _)
  · exact goodIfAny_some (Value.each_string _)
  · exact goodIfAny_none

/-- Each of them is good as long as all that is known for the items stays known. -/
theorem mapM_relates {f : β → EvalM σ Value} {g : β → EvalM τ Value} : ∀ {w : W} {items : List β},
    (∀ w', w ≤ w' → ∀ b ∈ items, Relates I w' env I.Good (f b) (g b)) →
      Relates I w env I.AllGood (items.mapM f) (items.mapM g)
  | _, [], _ => Relates.pure allGood_nil
  | w, b :: items, h => by
    rw [List.mapM_cons, List.mapM_cons]
    refine (h w le_rfl b List.mem_cons_self).bind fun w₁ hw₁ v hv => ?_
    have hmore := mapM_relates fun w' hw' b hb =>
      h w' (hw₁.trans hw') b (List.mem_cons_of_mem _ hb)
    exact hmore.bind fun w₂ hw₂ vs hvs => Relates.pure (.cons (hv.mono hw₂) hvs)

theorem Builtin.run_relates (f : Builtin) {args : List Value} (hargs : I.AllGood w args) :
    Relates I w env I.Good (f.run args) (f.run args) := by
  have hentries : Members.Each (I.Known w) (argument args 0).entries := (hargs.argument 0).entries
  unfold run
  dsimp only
  cases f with
  | keys =>
    refine Relates.newArray fun v hv => ?_
    obtain ⟨m, -, rfl⟩ := List.mem_map.mp hv
    exact Value.each_string _
  | values =>
    refine Relates.newArray fun v hv => ?_
    obtain ⟨m, hm, rfl⟩ := List.mem_map.mp hv
    exact hentries m hm
  | entries =>
    refine Relates.bind (mapM_relates fun w' hw' m hm => Relates.newArray ?_)
      fun _ _ _ hpairs => Relates.newArray hpairs
    exact .cons (Value.each_string _) (.cons ((hentries m hm).mono (I.known_mono hw')) allGood_nil)
  | stringify =>
    refine Relates.pure ?_
    simp only [jsonText]
    split
    · exact Value.each_undefined
    · exact Value.each_string _
  | isArray | isNaN | toBool => exact Relates.pure (Value.each_bool _)
  | toText | encodeComponent => exact Relates.pure (Value.each_string _)
  | _ => exact Relates.pure (Value.each_number _)

section Calls

variable {call : Caller σ} {call' : Caller τ} {receiver : Value} {args : List Value}

theorem callMethod_relates (h : Caller.Related I call call') (hreceiver : I.Good w receiver)
    (name : String) (hargs : I.AllGood w args) :
    Relates I w env I.GoodIfAny (callMethod call receiver name args)
      (callMethod call' receiver name args) := by
  have htext :
      I.GoodIfAny w (if name = "toString" then some (.string receiver.toText) else none) := by
    split
    · exact goodIfAny_some (Value.each_string _)
    · exact goodIfAny_none
  cases receiver with
  | string s => exact StringMethod.run_relates h s name hargs
  | array id items => exact ArrayMethod.run_relates h hreceiver hreceiver.items name hargs
  | number x => exact Relates.ofExcept (NumberMethod.run_yields x name args) fun _ => id
  | object id members => exact Relates.pure (ObjectMethod.good_run members name args)
  | bool b | function f => exact Relates.pure htext
  | undefined | null => exact Relates.pure goodIfAny_none

theorem property_relates {v : Value} (hv : I.Good w v) (key : String) :
    Relates I w env I.Good (liftM (v.property key)) (liftM (v.property key)) :=
  Relates.ofExcept (Value.Each.property hv key) fun _ => id

theorem undefined_relates (w : W) (env : Env) :
    Relates I w env I.Good (pure .undefined) (pure .undefined) :=
  Relates.pure Value.each_undefined

theorem spreadItems_relates {v : Value} (hv : I.Good w v) :
    Relates I w env I.AllGood (liftM v.spreadItems) (liftM v.spreadItems) :=
  Relates.ofExcept (Value.Each.spreadItems hv) fun _ => id

theorem callValue_relates (h : Caller.Related I call call') (callee : Expr) {v : Value}
    (hv : I.Good w v) (hargs : I.AllGood w args) :
    Relates I w env I.Good (callValue call callee v args) (callValue call' callee v args) := by
  cases v with
  | function f => exact h w env f args hv.function hargs
  | _ => exact Relates.throw rfl

theorem callMember_relates (h : Caller.Related I call call') (callee : Expr)
    (hreceiver : I.Good w receiver) (property : String) (optional : Bool)
    (hargs : I.AllGood w args) :
    Relates I w env I.Good (callMember call callee receiver property optional args)
      (callMember call' callee receiver property optional args) := by
  unfold callMember
  dsimp only
  split
  case h_1 v hown =>
    have hv := hreceiver.members.lookup (Option.filter_eq_some_iff.mp hown).1
    exact callValue_relates h callee hv hargs
  case h_2 =>
    refine (callMethod_relates h hreceiver property hargs).bind fun w₁ hw₁ result? hresult => ?_
    cases result? with
    | some result => exact Relates.pure (hresult result rfl)
    | none =>
      refine (property_relates (hreceiver.mono hw₁) property).bind fun w₂ hw₂ v hv => ?_
      split
      · exact Relates.pure Value.each_undefined
      · exact callValue_relates h callee hv (hargs.mono (hw₁.trans hw₂))

end Calls

/-- Both call functions alike, and names mean the same to both. -/
structure Evaluator.Related (I : EvalInvariant W σ τ) (x : Evaluator σ) (y : Evaluator τ) :
    Prop where
  call : Caller.Related I x.call y.call
  lookup : ∀ w env name, Relates I w env I.Good (x.lookup env name) (y.lookup env name)
  capture : ∀ w env params body,
    Relates I w env I.Good (x.capture env params body) (y.capture env params body)

/-- Inside calls names are bound alike as well. -/
structure Evaluator.BindsRelated (I : EvalInvariant W σ τ) (x : Evaluator σ) (y : Evaluator τ) :
    Prop extends x.Related I y where
  bind : ∀ w env name v, I.Good w v →
    Leads I w env (fun w' => I.Holds w' ((name, v) :: env)) (fun _ env' => env' = (name, v) :: env)
      (x.bind env name v) (y.bind env name v)

section Evaluation

variable {x : Evaluator σ} {y : Evaluator τ}

/-- A call, by its callee or, when it is of a member, by the target of that. -/
theorem Expr.call_relates (h : x.Related I y) {callee : Expr} {args : List Element}
    {optional : Bool}
    (hcallee : Relates I w env I.Good (callee.eval x env) (callee.eval y env))
    (htarget : ∀ target property guarded, callee = .member target property guarded →
      Relates I w env I.Good (target.eval x env) (target.eval y env))
    (hargs : ∀ w', w ≤ w' →
      Relates I w' env I.AllGood (evalElements x env args) (evalElements y env args)) :
    Relates I w env I.Good ((Expr.call callee args optional).eval x env)
      ((Expr.call callee args optional).eval y env) := by
  cases callee with
  | member target property guarded =>
    refine (htarget target property guarded rfl).bind fun w₁ hw₁ receiver hreceiver => ?_
    split
    · exact Relates.pure Value.each_undefined
    · refine (hargs w₁ hw₁).bind fun w₂ hw₂ values hvalues => ?_
      exact callMember_relates h.call _ (hreceiver.mono hw₂) property optional hvalues
  | _ =>
    refine hcallee.bind fun w₁ hw₁ v hv => ?_
    split
    · exact Relates.pure Value.each_undefined
    · refine (hargs w₁ hw₁).bind fun w₂ hw₂ values hvalues => ?_
      exact callValue_relates h.call _ (hv.mono hw₂) hvalues

mutual

theorem Expr.eval_relates (h : x.Related I y) : ∀ (w : W) (env : Env) (e : Expr),
    Relates I w env I.Good (e.eval x env) (e.eval y env)
  | w, env, .number n => Relates.pure (Value.each_number n)
  | w, env, .string s => Relates.pure (Value.each_string s)
  | w, env, .bool b => Relates.pure (Value.each_bool b)
  | w, env, .null => Relates.pure Value.each_null
  | w, env, .undefined => Relates.pure Value.each_undefined
  | w, env, .name id => h.lookup w env id
  | w, env, .template parts =>
    (evalParts_relates h w env parts).bind fun _ _ _ _ => Relates.pure (Value.each_string _)
  | w, env, .array elements =>
    (evalElements_relates h w env elements).bind fun _ _ _ hitems => Relates.newArray hitems
  | w, env, .object entries =>
    (evalEntries_relates h w env [] Members.each_nil entries).bind fun _ _ _ hmembers =>
      Relates.newObject hmembers
  | w, env, .member target property optional => by
    refine (Expr.eval_relates h w env target).bind fun w₁ hw₁ v hv => ?_
    split
    · exact Relates.pure Value.each_undefined
    · exact property_relates hv property
  | w, env, .index target key optional => by
    refine (Expr.eval_relates h w env target).bind fun w₁ hw₁ v hv => ?_
    split
    · exact Relates.pure Value.each_undefined
    · refine (Expr.eval_relates h w₁ env key).bind fun w₂ hw₂ k hk => ?_
      exact property_relates (hv.mono hw₂) k.toKey
  | w, env, .call callee args optional =>
    Expr.call_relates h (Expr.eval_relates h w env callee) (target_relates h w env callee)
      fun w' _ => evalElements_relates h w' env args
  | w, env, .unary op operand =>
    (Expr.eval_relates h w env operand).bind fun _ _ v _ => Relates.pure (op.each_apply v)
  | w, env, .binary op left right => by
    refine (Expr.eval_relates h w env left).bind fun w₁ hw₁ a ha => ?_
    split
    · exact Relates.pure ha
    · exact Expr.eval_relates h w₁ env right
    · refine (Expr.eval_relates h w₁ env right).bind fun w₂ hw₂ b hb => ?_
      exact Relates.ofExcept (op.yields_apply (ha.mono hw₂) hb) fun _ => id
  | w, env, .conditional test consequent alternate => by
    refine (Expr.eval_relates h w env test).bind fun w₁ hw₁ t ht => ?_
    split
    · exact Expr.eval_relates h w₁ env consequent
    · exact Expr.eval_relates h w₁ env alternate
  | w, env, .function params body => h.capture w env params body

/-- The target of a callee that is a member. -/
theorem target_relates (h : x.Related I y) : ∀ (w : W) (env : Env) (callee target : Expr)
    (property : String) (guarded : Bool), callee = .member target property guarded →
    Relates I w env I.Good (target.eval x env) (target.eval y env)
  | w, env, .member target _ _, _, _, _, rfl => Expr.eval_relates h w env target

theorem evalParts_relates (h : x.Related I y) : ∀ (w : W) (env : Env) (parts : List TemplatePart),
    Relates I w env (fun _ _ => True) (evalParts x env parts) (evalParts y env parts)
  | _, _, [] => Relates.pure trivial
  | w, env, .text _ :: parts =>
    (evalParts_relates h w env parts).bind fun _ _ _ _ => Relates.pure trivial
  | w, env, .expr e :: parts =>
    (Expr.eval_relates h w env e).bind fun w₁ _ _ _ =>
      (evalParts_relates h w₁ env parts).bind fun _ _ _ _ => Relates.pure trivial

theorem evalElements_relates (h : x.Related I y) : ∀ (w : W) (env : Env)
    (elements : List Element),
    Relates I w env I.AllGood (evalElements x env elements) (evalElements y env elements)
  | _, _, [] => Relates.pure allGood_nil
  | w, env, .item e :: elements => by
    refine (Expr.eval_relates h w env e).bind fun w₁ hw₁ v hv => ?_
    refine (evalElements_relates h w₁ env elements).bind fun w₂ hw₂ rest hrest => ?_
    exact Relates.pure (.cons (hv.mono hw₂) hrest)
  | w, env, .spread e :: elements => by
    refine (Expr.eval_relates h w env e).bind fun w₁ hw₁ v hv => ?_
    refine (spreadItems_relates hv).bind fun w₂ hw₂ items hitems => ?_
    refine (evalElements_relates h w₂ env elements).bind fun w₃ hw₃ rest hrest => ?_
    exact Relates.pure ((hitems.mono hw₃).append hrest)

theorem evalEntries_relates (h : x.Related I y) : ∀ (w : W) (env : Env) (members : Members),
    members.Each (I.Known w) → ∀ entries : List Entry,
      Relates I w env (fun w' (ms : Members) => ms.Each (I.Known w'))
        (evalEntries x env members entries) (evalEntries y env members entries)
  | _, _, _, hmembers, [] => Relates.pure hmembers
  | w, env, members, hmembers, .named key e :: entries => by
    refine (Expr.eval_relates h w env e).bind fun w₁ hw₁ v hv => ?_
    exact evalEntries_relates h w₁ env _ ((hmembers.mono (I.known_mono hw₁)).set key hv) entries
  | w, env, members, hmembers, .computed key e :: entries => by
    refine (Expr.eval_relates h w env key).bind fun w₁ hw₁ k hk => ?_
    refine (Expr.eval_relates h w₁ env e).bind fun w₂ hw₂ v hv => ?_
    exact evalEntries_relates h w₂ env _
      ((hmembers.mono (I.known_mono (hw₁.trans hw₂))).set k.toKey hv) entries
  | w, env, members, hmembers, .shorthand id :: entries => by
    refine (h.lookup w env id).bind fun w₁ hw₁ v hv => ?_
    exact evalEntries_relates h w₁ env _ ((hmembers.mono (I.known_mono hw₁)).set id hv) entries
  | w, env, members, hmembers, .spread e :: entries => by
    refine (Expr.eval_relates h w env e).bind fun w₁ hw₁ v hv => ?_
    exact evalEntries_relates h w₁ env _
      ((hmembers.mono (I.known_mono hw₁)).setAll hv.spreadMembers) entries

end

end Evaluation

section Bodies

variable {x : Evaluator σ} {y : Evaluator τ} (h : x.BindsRelated I y)
include h

theorem evalStatements_ends : ∀ (w : W) (env : Env) (statements : List Stmt),
    Ends I w env I.Good (evalStatements x env statements) (evalStatements y env statements)
  | w, env, [] => (undefined_relates w env).ends
  | w, env, .declare id none :: statements => by
    refine Leads.bind (h.bind w env id .undefined Value.each_undefined) ?_
    rintro w₁ hw₁ _ rfl s t hst
    exact evalStatements_ends w₁ ((id, .undefined) :: env) statements hst
  | w, env, .declare id (some e) :: statements => by
    refine (Expr.eval_relates h.toRelated w env e).bind_leads fun w₁ hw₁ v hv => ?_
    refine Leads.bind (h.bind w₁ env id v hv) ?_
    rintro w₂ hw₂ _ rfl s t hst
    exact evalStatements_ends w₂ ((id, v) :: env) statements hst
  | w, env, .expr e :: statements =>
    (Expr.eval_relates h.toRelated w env e).bind_leads fun w₁ _ _ _ =>
      evalStatements_ends w₁ env statements
  | w, env, .result none :: _ => (undefined_relates w env).ends
  | w, env, .result (some e) :: _ => (Expr.eval_relates h.toRelated w env e).ends

theorem Body.eval_ends (w : W) (env : Env) (body : Body) :
    Ends I w env I.Good (body.eval x env) (body.eval y env) := by
  cases body with
  | expr e => exact (Expr.eval_relates h.toRelated w env e).ends
  | block statements => exact evalStatements_ends h w env statements

end Bodies

end Templating
