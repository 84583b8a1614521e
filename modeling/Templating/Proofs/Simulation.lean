import Templating.Proofs.Congruence

/-!
Runs over two stores of templates, from activations that may differ in where their text goes. In
surroundings that render alike they come to the same ends, down to the numbers given out.
-/
namespace Templating

variable {σ τ α β : Type} {R : σ → τ → Prop}

/-- The same context, as many numbers given out, and related stores. -/
structure RenderState.Matches (R : σ → τ → Prop) (s : RenderState σ) (t : RenderState τ) : Prop where
  context : s.context = t.context
  identity : s.engine.identity = t.engine.identity
  cache : R s.engine.cache t.engine.cache

theorem RenderState.Matches.withContext {s : RenderState σ} {t : RenderState τ}
    (h : s.Matches R t) (f : Context → Context) :
    RenderState.Matches R { s with context := f s.context } { t with context := f t.context } :=
  ⟨congrArg f h.context, h.identity, h.cache⟩

theorem RenderState.Matches.withIdentity {s : RenderState σ} {t : RenderState τ}
    (h : s.Matches R t) (identity : Nat) :
    RenderState.Matches R { s with engine := { s.engine with identity } }
      { t with engine := { t.engine with identity } } :=
  ⟨h.context, rfl, h.cache⟩

section Steps

variable {ε : Type} {x : ExceptT ε (StateM σ) α} {f : α → ExceptT ε (StateM σ) β} {s s' : σ}

theorem run_bind_ok {a : α} (h : x.run.run s = (.ok a, s')) :
    (x >>= f).run.run s = (f a).run.run s' := by
  change (ExceptT.bindCont f (x.run.run s).1).run (x.run.run s).2 = _
  rw [h]
  rfl

theorem run_bind_error {e : ε} (h : x.run.run s = (.error e, s')) :
    (x >>= f).run.run s = (.error e, s') := by
  change (ExceptT.bindCont f (x.run.run s).1).run (x.run.run s).2 = _
  rw [h]
  rfl

end Steps

/-- The same failure, or related results. -/
inductive Agree (P : α → β → Prop) : Except Failure α → Except Failure β → Prop where
  | ok {a : α} {b : β} (h : P a b) : Agree P (.ok a) (.ok b)
  | error (failure : Failure) : Agree P (.error failure) (.error failure)

theorem Agree.eq {x y : Except Failure α} (h : Agree Eq x y) : x = y := by
  cases h with
  | ok h => rw [h]
  | error failure => rfl

theorem Agree.refl : ∀ x : Except Failure α, Agree Eq x x
  | .ok _ => .ok rfl
  | .error failure => .error failure

namespace RenderM

/-- From matching states both come to outcomes that agree, and to matching states. -/
def Relates (R : σ → τ → Prop) (P : α → β → Prop) (x : RenderM σ α) (y : RenderM τ β) : Prop :=
  ∀ ⦃s t⦄, s.Matches R t →
    Agree P (x.run.run s).1 (y.run.run t).1 ∧ (x.run.run s).2.Matches R (y.run.run t).2

abbrev Simulates (R : σ → τ → Prop) (x : RenderM σ α) (y : RenderM τ α) : Prop := Relates R Eq x y

namespace Relates

variable {γ δ : Type} {P : α → β → Prop} {Q : γ → δ → Prop}

protected theorem pure {a : α} {b : β} (h : P a b) : Relates R P (pure a) (pure b) := by
  intro s t hst
  exact ⟨.ok h, hst⟩

protected theorem throw (failure : Failure) : Relates R P (throw failure) (throw failure) := by
  intro s t hst
  exact ⟨.error failure, hst⟩

/-- The stores may be related in another way in the end. -/
theorem bind_to {R' : σ → τ → Prop} {x : RenderM σ α} {y : RenderM τ β} {f : α → RenderM σ γ}
    {g : β → RenderM τ δ} (hR : ∀ {c d}, R c d → R' c d) (hxy : Relates R P x y)
    (hfg : ∀ a b, P a b → ∀ ⦃s t⦄, s.Matches R t →
      Agree Q ((f a).run.run s).1 ((g b).run.run t).1 ∧
        ((f a).run.run s).2.Matches R' ((g b).run.run t).2)
    ⦃s : RenderState σ⦄ ⦃t : RenderState τ⦄ (hst : s.Matches R t) :
    Agree Q ((x >>= f).run.run s).1 ((y >>= g).run.run t).1 ∧
      ((x >>= f).run.run s).2.Matches R' ((y >>= g).run.run t).2 := by
  obtain ⟨hresult, hstate⟩ := hxy hst
  rcases hx : x.run.run s with ⟨outcome, s'⟩
  rcases hy : y.run.run t with ⟨outcome', t'⟩
  rw [hx, hy] at hresult hstate
  cases hresult with
  | error failure =>
    rw [run_bind_error hx, run_bind_error hy]
    exact ⟨.error failure, hstate.context, hstate.identity, hR hstate.cache⟩
  | ok hab =>
    rw [run_bind_ok hx, run_bind_ok hy]
    exact hfg _ _ hab hstate

protected theorem bind {x : RenderM σ α} {y : RenderM τ β} {f : α → RenderM σ γ}
    {g : β → RenderM τ δ} (hxy : Relates R P x y)
    (hfg : ∀ a b, P a b → Relates R Q (f a) (g b)) : Relates R Q (x >>= f) (y >>= g) :=
  bind_to id hxy hfg

/-- The states themselves may differ in their stores. -/
theorem bind_get {f : RenderState σ → RenderM σ γ} {g : RenderState τ → RenderM τ δ}
    (h : ∀ ⦃s t⦄, s.Matches R t → Relates R Q (f s) (g t)) :
    Relates R Q (get >>= f) (get >>= g) := by
  intro s t hst
  exact h hst hst

theorem attempt {x : RenderM σ α} {y : RenderM τ α} (h : Relates R Eq x y) :
    Relates R Eq (RenderM.attempt x) (RenderM.attempt y) := by
  intro s t hst
  obtain ⟨hresult, hstate⟩ := h hst
  exact ⟨.ok hresult.eq, hstate⟩

theorem around {x : RenderM σ α} {y : RenderM τ β} (enter leave : Context → Context)
    (h : Relates R P x y) :
    Relates R P (RenderM.around enter leave x) (RenderM.around enter leave y) := by
  intro s t hst
  obtain ⟨hresult, hstate⟩ := h (hst.withContext enter)
  exact ⟨hresult, hstate.withContext leave⟩

theorem within {x : RenderM σ α} {y : RenderM τ β} (context : Context) (h : Relates R P x y) :
    Relates R P (RenderM.within context x) (RenderM.within context y) := by
  intro s t hst
  obtain ⟨hresult, hstate⟩ := h (hst.withContext fun _ => context)
  exact ⟨hresult, ⟨hst.context, hstate.identity, hstate.cache⟩⟩

end Relates

namespace Simulates

protected theorem pure (a : α) : Simulates R (pure a) (pure a) := Relates.pure rfl

protected theorem throw (failure : Failure) :
    Simulates (α := α) R (throw failure) (throw failure) := Relates.throw failure

protected theorem bind {x : RenderM σ α} {y : RenderM τ α} {f : α → RenderM σ β}
    {g : α → RenderM τ β} (hxy : Simulates R x y) (hfg : ∀ a, Simulates R (f a) (g a)) :
    Simulates R (x >>= f) (y >>= g) := by
  refine Relates.bind hxy ?_
  rintro a _ rfl
  exact hfg a

end Simulates

end RenderM

/-- A relation of activations with the same names that text and bindings keep. -/
structure Activation.Congruence (A : Activation → Activation → Prop) : Prop where
  names : ∀ {a b}, A a b → a.names = b.names
  emit : ∀ {a b}, A a b → ∀ text, A (a.emit text) (b.emit text)
  bind : ∀ {a b}, A a b → ∀ name value, A (a.bind name value) (b.bind name value)

theorem Activation.Congruence.bound {A : Activation → Activation → Prop}
    (hA : Activation.Congruence A) {a b : Activation} (hab : A a b) (name : String) :
    a.bound? name = b.bound? name := by
  rw [bound?, bound?, hA.names hab]

theorem Activation.Congruence.eq : Activation.Congruence Eq where
  names h := congrArg _ h
  emit h _ := congrArg _ h
  bind h _ _ := congrArg _ h

/-- From related activations both come to the same result and to related activations. -/
def RunM.Simulates (R : σ → τ → Prop) (A : Activation → Activation → Prop) (x : RunM σ α)
    (y : RunM τ α) : Prop :=
  ∀ ⦃a b⦄, A a b → RenderM.Relates R (fun p q => p.1 = q.1 ∧ A p.2 q.2) (x.run a) (y.run b)

namespace RunM.Simulates

variable {A : Activation → Activation → Prop}

protected theorem pure (v : α) : RunM.Simulates R A (pure v) (pure v) := by
  intro a b hab
  exact RenderM.Relates.pure ⟨rfl, hab⟩

protected theorem throw (failure : Failure) :
    RunM.Simulates (α := α) R A (throw failure) (throw failure) := by
  intro a b hab
  exact RenderM.Relates.throw failure

protected theorem bind {x : RunM σ α} {y : RunM τ α} {f : α → RunM σ β} {g : α → RunM τ β}
    (hxy : RunM.Simulates R A x y) (hfg : ∀ v, RunM.Simulates R A (f v) (g v)) :
    RunM.Simulates R A (x >>= f) (y >>= g) := by
  intro a b hab
  refine RenderM.Relates.bind (hxy hab) ?_
  rintro ⟨v, a'⟩ ⟨_, b'⟩ ⟨rfl, hab'⟩
  exact hfg v hab'

theorem lift {x : RenderM σ α} {y : RenderM τ α} (h : RenderM.Simulates R x y) :
    RunM.Simulates R A (liftM x) (liftM y) := by
  intro a b hab
  refine RenderM.Relates.bind h ?_
  rintro v _ rfl
  exact RenderM.Relates.pure ⟨rfl, hab⟩

theorem bind_get {f : Activation → RunM σ β} {g : Activation → RunM τ β}
    (h : ∀ ⦃a b⦄, A a b → RunM.Simulates R A (f a) (g b)) :
    RunM.Simulates R A (get >>= f) (get >>= g) := by
  intro a b hab
  exact h hab hab

protected theorem set {a b : Activation} (h : A a b) :
    RunM.Simulates (σ := σ) (τ := τ) R A (set a) (set b) := by
  intro _ _ _
  exact RenderM.Relates.pure ⟨rfl, h⟩

protected theorem modify {f : Activation → Activation} (h : ∀ {a b}, A a b → A (f a) (f b)) :
    RunM.Simulates (σ := σ) (τ := τ) R A (modify f) (modify f) := by
  intro a b hab
  exact RenderM.Relates.pure ⟨rfl, h hab⟩

/-- From one activation both come to the same activation. -/
protected theorem run {x : RunM σ α} {y : RunM τ α} (h : RunM.Simulates R Eq x y) (a : Activation) :
    RenderM.Simulates R (x.run a) (y.run a) := by
  intro s t hst
  obtain ⟨hresult, hstate⟩ := h rfl hst
  refine ⟨?_, hstate⟩
  generalize ((x.run a).run.run s).1 = p at hresult ⊢
  generalize ((y.run a).run.run t).1 = q at hresult ⊢
  cases hresult with
  | ok hpair => exact .ok (Prod.ext hpair.1 hpair.2)
  | error failure => exact .error failure

theorem bind_getState {f : RenderState σ → RunM σ β} {g : RenderState τ → RunM τ β}
    (h : ∀ ⦃s t⦄, s.Matches R t → RunM.Simulates R A (f s) (g t)) :
    RunM.Simulates R A (getThe (RenderState σ) >>= f) (getThe (RenderState τ) >>= g) := by
  intro a b hab s t hst
  exact h hst hab hst

theorem modifyState {f : RenderState σ → RenderState σ} {g : RenderState τ → RenderState τ}
    (h : ∀ ⦃s t⦄, s.Matches R t → (f s).Matches R (g t)) :
    RunM.Simulates R A (modifyThe (RenderState σ) f) (modifyThe (RenderState τ) g) := by
  intro a b hab s t hst
  exact ⟨.ok ⟨rfl, hab⟩, h hst⟩

end RunM.Simulates

structure Surroundings.Simulates (R : σ → τ → Prop) (x : Surroundings σ) (y : Surroundings τ) :
    Prop where
  evaluate : ∀ names e, RenderM.Simulates R (x.evaluate names e) (y.evaluate names e)
  render : ∀ request, RenderM.Simulates R (x.render request) (y.render request)
  tag : ∀ name first data site,
    RenderM.Simulates R (x.tag name first data site) (y.tag name first data site)
  shortcut : ∀ name data site,
    RenderM.Simulates R (x.shortcut name data site) (y.shortcut name data site)

namespace Run

variable {x : Surroundings σ} {y : Surroundings τ} (template : Template)

section Actions

variable {A : Activation → Activation → Prop} (h : x.Simulates R y) (hA : Activation.Congruence A)
include h hA

theorem eval_simulates (s : Statement) (e : Expr) :
    RunM.Simulates R A (eval x template s e) (eval y template s e) := by
  unfold eval
  refine RunM.Simulates.bind_get fun a b hab => ?_
  rw [hA.names hab]
  refine (RunM.Simulates.lift (h.evaluate b.names e)).bind fun outcome => ?_
  cases outcome with
  | error error => exact RunM.Simulates.throw _
  | ok value => exact RunM.Simulates.pure value

omit h in
theorem bind_bound_simulates (name : String) {f : Option Value → RunM σ β}
    {g : Option Value → RunM τ β} (hfg : ∀ value, RunM.Simulates R A (f value) (g value)) :
    RunM.Simulates R A (get >>= fun a => f (a.bound? name)) (get >>= fun a => g (a.bound? name)) := by
  refine RunM.Simulates.bind_get fun a b hab => ?_
  rw [hA.bound hab]
  exact hfg _

omit h in
theorem emit_simulates (text : String) :
    RunM.Simulates R A (emit (σ := σ) text) (emit (σ := τ) text) :=
  RunM.Simulates.modify fun hab => hA.emit hab text

theorem insert_simulates (path : String) (data : Members) :
    RunM.Simulates R A (insert x template path data) (insert y template path data) := by
  unfold insert
  refine RunM.Simulates.bind (RunM.Simulates.lift ?_) fun text => emit_simulates hA text
  exact RenderM.Relates.around _ _ (h.render _)

omit h hA in
theorem bind_site_simulates (s : Statement) {f : CallSite → RunM σ β} {g : CallSite → RunM τ β}
    (hfg : ∀ site, RunM.Simulates R A (f site) (g site)) :
    RunM.Simulates R A (site template s >>= f) (site template s >>= g) := by
  refine RunM.Simulates.bind_getState fun r r' hr => ?_
  rw [hr.context]
  exact hfg _

theorem tag_simulates (s : Statement) (name : String) (first : Value) (data : Members) :
    RunM.Simulates R A (tag x template s name first data) (tag y template s name first data) := by
  refine bind_site_simulates template s fun site => ?_
  exact (RunM.Simulates.lift (h.tag name first data site)).bind fun text => emit_simulates hA text

theorem shortcut_simulates (s : Statement) (name : String) (data : Members) :
    RunM.Simulates R A (shortcut x template s name data) (shortcut y template s name data) := by
  refine bind_site_simulates template s fun site => ?_
  exact (RunM.Simulates.lift (h.shortcut name data site)).bind fun text => emit_simulates hA text

/-- Expressions, texts and calls come to the same ends on related activations. -/
theorem congruence : RunM.Congruence x y template (RunM.Simulates R A) where
  pure := RunM.Simulates.pure
  throw _ _ := RunM.Simulates.throw _
  bind := RunM.Simulates.bind
  bind_bound name := bind_bound_simulates hA name
  eval := eval_simulates template h hA
  emit := emit_simulates hA
  bindName name value := RunM.Simulates.modify fun hab => hA.bind hab name value
  insert := insert_simulates template h hA
  tag := tag_simulates template h hA
  shortcut := shortcut_simulates template h hA

omit h hA in
theorem setGlobal_simulates (name : String) (value : Value) :
    RunM.Simulates R A
      (modifyThe (RenderState σ) fun r => { r with context := r.context.setGlobal name value })
      (modifyThe (RenderState τ) fun r => { r with context := r.context.setGlobal name value }) :=
  RunM.Simulates.modifyState fun _ _ hr => hr.withContext (·.setGlobal name value)

theorem layout_simulates (hread : ∀ {a b}, A a b → a.output = b.output)
    (hwrite : ∀ {a b}, A a b → ∀ text, A { a with output := text } { b with output := text })
    (s : Statement) (e : Expr) :
    RunM.Simulates R A (layout x template s e) (layout y template s e) := by
  unfold layout
  refine RunM.Simulates.bind ((congruence template h hA).path s e) fun path => ?_
  refine RunM.Simulates.bind_get fun a b hab => ?_
  rw [hread hab]
  refine (RunM.Simulates.modify fun hab => hwrite hab "").bind fun _ => ?_
  refine (setGlobal_simulates _ _).bind fun _ => ?_
  refine (RunM.Simulates.lift (h.render _)).bind fun text => ?_
  exact RunM.Simulates.modify fun hab => hwrite hab text

end Actions

section Runs

variable (h : x.Simulates R y)
include h

theorem fullCongruence : RunM.FullCongruence x y template (RunM.Simulates R Eq) where
  toCongruence := congruence template h .eq
  bind_get hfg := RunM.Simulates.bind_get fun a _ hab => hab ▸ hfg a
  set _ := RunM.Simulates.set rfl
  modify f := RunM.Simulates.modify fun hab => congrArg f hab
  setGlobal := setGlobal_simulates
  render request := RunM.Simulates.lift (h.render request)

theorem text_simulates : RenderM.Simulates R (text x template) (text y template) := by
  unfold text
  refine RenderM.Relates.bind_get fun s t hst => ?_
  rw [hst.context]
  refine RenderM.Relates.bind ((fullCongruence template h).exec 0 _ rfl) ?_
  rintro ⟨_, a⟩ ⟨_, b⟩ ⟨-, hab⟩
  exact RenderM.Relates.pure (congrArg _ hab)

end Runs

end Run

end Templating
