import Templating.Proofs.RenderSimulation

/-!
Runs at one depth. Statements ask for renders at the depth at which they stand, and stand there
again afterwards; so two runs agree whose renders agree at that depth.
-/
namespace Templating

variable {σ α β : Type} {d : Nat} {K : σ → Prop}

/-- The innermost context is at this depth, and the store is as `K` says. -/
def RenderState.At (d : Nat) (K : σ → Prop) (s : RenderState σ) : Prop :=
  s.context.depth = d ∧ K s.engine.cache

/-- From this depth both do the same, and are back at it in the end. -/
def RenderM.SameAt (d : Nat) (K : σ → Prop) (x y : RenderM σ α) : Prop :=
  ∀ ⦃s⦄, s.At d K → x.run.run s = y.run.run s ∧ (x.run.run s).2.At d K

def RunM.SameAt (d : Nat) (K : σ → Prop) (x y : RunM σ α) : Prop :=
  ∀ a, RenderM.SameAt d K (x.run a) (y.run a)

namespace RenderM.SameAt

variable {x y : RenderM σ α}

protected theorem pure (v : α) : RenderM.SameAt d K (pure v) (pure v) := by
  intro s hs
  exact ⟨rfl, hs⟩

protected theorem throw (failure : Failure) :
    RenderM.SameAt (α := α) d K (throw failure) (throw failure) := by
  intro s hs
  exact ⟨rfl, hs⟩

protected theorem bind {f g : α → RenderM σ β} (hxy : RenderM.SameAt d K x y)
    (hfg : ∀ v, RenderM.SameAt d K (f v) (g v)) : RenderM.SameAt d K (x >>= f) (y >>= g) := by
  intro s hs
  obtain ⟨heq, hend⟩ := hxy hs
  rcases hx : x.run.run s with ⟨failure | v, s'⟩
  · rw [hx] at heq hend
    rw [run_bind_error hx, run_bind_error heq.symm]
    exact ⟨rfl, hend⟩
  · rw [hx] at heq hend
    rw [run_bind_ok hx, run_bind_ok heq.symm]
    exact hfg v hend

theorem bind_get {f g : RenderState σ → RenderM σ β}
    (h : ∀ ⦃s⦄, s.At d K → RenderM.SameAt d K (f s) (g s)) :
    RenderM.SameAt d K (get >>= f) (get >>= g) := by
  intro s hs
  exact h hs hs

theorem attempt (h : RenderM.SameAt d K x y) :
    RenderM.SameAt d K (RenderM.attempt x) (RenderM.attempt y) := by
  intro s hs
  obtain ⟨heq, hend⟩ := h hs
  refine ⟨?_, hend⟩
  change ((.ok (x.run.run s).1, (x.run.run s).2) : Except Failure _ × _) = _
  rw [heq]
  rfl

/-- What is done around may leave the depth and come back to it. -/
theorem around {d' : Nat} {K' : σ → Prop} {enter leave : Context → Context}
    (henter : ∀ ⦃s : RenderState σ⦄, s.At d K →
      RenderState.At d' K' { s with context := enter s.context })
    (hleave : ∀ ⦃s : RenderState σ⦄, s.At d' K' →
      RenderState.At d K { s with context := leave s.context })
    (h : RenderM.SameAt d' K' x y) :
    RenderM.SameAt d K (RenderM.around enter leave x) (RenderM.around enter leave y) := by
  intro s hs
  obtain ⟨heq, hend⟩ := h (henter hs)
  refine ⟨?_, hleave hend⟩
  change (((x.run.run _).1, { (x.run.run _).2 with context := leave (x.run.run _).2.context }) :
    Except Failure α × RenderState σ) = _
  rw [heq]
  rfl

theorem within {context : Context} (hcontext : context.depth = d) (h : RenderM.SameAt d K x y) :
    RenderM.SameAt d K (RenderM.within context x) (RenderM.within context y) := by
  intro s hs
  have hwithin : RenderState.At d K { s with context } := ⟨hcontext, hs.2⟩
  obtain ⟨heq, hend⟩ := h hwithin
  refine ⟨?_, hs.1, hend.2⟩
  change (((x.run.run _).1, { (x.run.run _).2 with context := s.context }) :
    Except Failure α × RenderState σ) = _
  rw [heq]
  rfl

end RenderM.SameAt

namespace RunM.SameAt

variable {x y : RunM σ α}

protected theorem pure (v : α) : RunM.SameAt (σ := σ) d K (pure v) (pure v) :=
  fun _ => RenderM.SameAt.pure _

protected theorem throw (failure : Failure) :
    RunM.SameAt (α := α) d K (throw failure) (throw failure) :=
  fun _ => RenderM.SameAt.throw failure

protected theorem bind {f g : α → RunM σ β} (hxy : RunM.SameAt d K x y)
    (hfg : ∀ v, RunM.SameAt d K (f v) (g v)) : RunM.SameAt d K (x >>= f) (y >>= g) :=
  fun a => (hxy a).bind fun p => hfg p.1 p.2

theorem lift {x y : RenderM σ α} (h : RenderM.SameAt d K x y) :
    RunM.SameAt d K (liftM x) (liftM y) :=
  fun _ => h.bind fun _ => RenderM.SameAt.pure _

theorem bind_get {f g : Activation → RunM σ β} (h : ∀ a, RunM.SameAt d K (f a) (g a)) :
    RunM.SameAt d K (get >>= f) (get >>= g) :=
  fun a => h a a

protected theorem set (a : Activation) : RunM.SameAt (σ := σ) d K (set a) (set a) :=
  fun _ => RenderM.SameAt.pure _

protected theorem modify (f : Activation → Activation) :
    RunM.SameAt (σ := σ) d K (modify f) (modify f) :=
  fun _ => RenderM.SameAt.pure _

theorem bind_getState {f g : RenderState σ → RunM σ β}
    (h : ∀ ⦃s⦄, s.At d K → RunM.SameAt d K (f s) (g s)) :
    RunM.SameAt d K (getThe (RenderState σ) >>= f) (getThe (RenderState σ) >>= g) := by
  intro a s hs
  exact h hs a hs

theorem modifyState {f : RenderState σ → RenderState σ}
    (h : ∀ ⦃s⦄, s.At d K → (f s).At d K) :
    RunM.SameAt d K (modifyThe (RenderState σ) f) (modifyThe (RenderState σ) f) := by
  intro a s hs
  exact ⟨rfl, h hs⟩

end RunM.SameAt

structure Surroundings.SameAt (d : Nat) (K : σ → Prop) (x y : Surroundings σ) : Prop where
  evaluate : ∀ names e, RenderM.SameAt d K (x.evaluate names e) (y.evaluate names e)
  render : ∀ request, RenderM.SameAt d K (x.render request) (y.render request)
  tag : ∀ name first data site, site.depth = d →
    RenderM.SameAt d K (x.tag name first data site) (y.tag name first data site)
  shortcut : ∀ name data site, site.depth = d →
    RenderM.SameAt d K (x.shortcut name data site) (y.shortcut name data site)

namespace Run

variable {x y : Surroundings σ} (template : Template)

section Actions

variable (h : x.SameAt d K y)
include h

theorem eval_sameAt (s : Statement) (e : Expr) :
    RunM.SameAt d K (eval x template s e) (eval y template s e) := by
  unfold eval
  refine RunM.SameAt.bind_get fun a => ?_
  refine (RunM.SameAt.lift (h.evaluate a.names e)).bind fun outcome => ?_
  cases outcome with
  | error error => exact RunM.SameAt.throw _
  | ok value => exact RunM.SameAt.pure value

theorem insert_sameAt (path : String) (data : Members) :
    RunM.SameAt d K (insert x template path data) (insert y template path data) := by
  unfold insert
  refine RunM.SameAt.bind (RunM.SameAt.lift ?_) fun text => RunM.SameAt.modify _
  exact RenderM.SameAt.around (fun _ hs => hs) (fun _ hs => hs) (h.render _)

omit h in
theorem bind_site_sameAt (s : Statement) {f g : CallSite → RunM σ β}
    (hfg : ∀ site, site.depth = d → RunM.SameAt d K (f site) (g site)) :
    RunM.SameAt d K (site template s >>= f) (site template s >>= g) :=
  RunM.SameAt.bind_getState fun _ hr => hfg _ hr.1

theorem tag_sameAt (s : Statement) (name : String) (first : Value) (data : Members) :
    RunM.SameAt d K (tag x template s name first data) (tag y template s name first data) := by
  refine bind_site_sameAt template s fun site hsite => ?_
  exact (RunM.SameAt.lift (h.tag name first data site hsite)).bind fun _ => RunM.SameAt.modify _

theorem shortcut_sameAt (s : Statement) (name : String) (data : Members) :
    RunM.SameAt d K (shortcut x template s name data) (shortcut y template s name data) := by
  refine bind_site_sameAt template s fun site hsite => ?_
  exact (RunM.SameAt.lift (h.shortcut name data site hsite)).bind fun _ => RunM.SameAt.modify _

omit h in
theorem setGlobal_sameAt (name : String) (value : Value) :
    RunM.SameAt d K
      (modifyThe (RenderState σ) fun r => { r with context := r.context.setGlobal name value })
      (modifyThe (RenderState σ) fun r => { r with context := r.context.setGlobal name value }) :=
  RunM.SameAt.modifyState fun _ hr => hr

end Actions

/-- Runs agree at a depth at which tags and templates are rendered alike. -/
theorem sameAt (h : x.SameAt d K y) :
    RunM.FullCongruence x y template (RunM.SameAt d K) where
  pure := RunM.SameAt.pure
  throw _ _ := RunM.SameAt.throw _
  bind := RunM.SameAt.bind
  bind_bound _ _ _ hfg := RunM.SameAt.bind_get fun _ => hfg _
  eval := eval_sameAt template h
  emit _ := RunM.SameAt.modify _
  bindName _ _ := RunM.SameAt.modify _
  insert := insert_sameAt template h
  tag := tag_sameAt template h
  shortcut := shortcut_sameAt template h
  bind_get := RunM.SameAt.bind_get
  set := RunM.SameAt.set
  modify := RunM.SameAt.modify
  setGlobal := setGlobal_sameAt
  render request := RunM.SameAt.lift (h.render request)

/-- The text of a template in the current context, with every statement that leads to the next one
performed as given. -/
def textIn (surroundings : Surroundings σ) (perform : Nat → Statement → RunM σ Unit) :
    RenderM σ String := do
  let names := (← get).context.flatten
  let (_, a) ←
    (execIn surroundings template perform 0 template.statements.length).run { names }
  return a.output

theorem textIn_step (surroundings : Surroundings σ) :
    textIn template surroundings (fun _ s => step surroundings template s) =
      text surroundings template := by
  unfold textIn text
  rw [execIn_step]

theorem textIn_sameAt (h : x.SameAt d K y) {perform perform' : Nat → Statement → RunM σ Unit}
    (hperform : ∀ i s, template.statements[i]? = some s →
      RunM.SameAt d K (perform i s) (perform' i s)) :
    RenderM.SameAt d K (textIn template x perform) (textIn template y perform') := by
  unfold textIn
  refine RenderM.SameAt.bind_get fun s _ => ?_
  refine ((sameAt template h).execIn hperform _ _ _).bind fun p => ?_
  exact RenderM.SameAt.pure _

theorem text_sameAt (h : x.SameAt d K y) :
    RenderM.SameAt d K (text x template) (text y template) := by
  rw [← textIn_step, ← textIn_step]
  exact textIn_sameAt template h fun _ s _ => (sameAt template h).step s

end Run

theorem RenderM.SameAt.evaluate (host : HostFunctions) (names : Env) (e : Expr) :
    RenderM.SameAt d K (RenderM.evaluate host names e) (RenderM.evaluate host names e) := by
  unfold RenderM.evaluate
  refine RenderM.SameAt.bind_get fun s hs => ?_
  rcases (e.evaluate host names).run s.engine.identity with error | ⟨value, identity⟩
  · exact RenderM.SameAt.pure _
  · intro _ _
    exact ⟨rfl, hs⟩

theorem TagAction.perform_sameAt (e : Engine) {render render' : Request → RenderM σ String}
    (h : ∀ request, RenderM.SameAt d K (render request) (render' request)) (action : TagAction) :
    RenderM.SameAt d K (action.perform e render d) (action.perform e render' d) := by
  have hwithin (members : Members) (request : Request) :
      RenderM.SameAt d K (RenderM.within (.ofData members d) (render request))
        (RenderM.within (.ofData members d) (render' request)) := (h request).within rfl
  induction action with
  | finish result => exact RenderM.SameAt.pure result
  | render path data next ih => exact (hwithin _ _).attempt.bind fun outcome => ih outcome
  | renderText source data next ih => exact (hwithin _ _).attempt.bind fun outcome => ih outcome

namespace Engine

variable (e : Engine)

section

variable {render render' : Request → RenderM σ String}
variable (h : ∀ request, RenderM.SameAt d K (render request) (render' request))
include h

theorem renderTag_sameAt (name : String) (first : Value) (data : Members) {site : CallSite}
    (hsite : site.depth = d) :
    RenderM.SameAt d K (e.renderTag render name first data site)
      (e.renderTag render' name first data site) := by
  unfold renderTag
  cases e.tags.get? name with
  | none => exact RenderM.SameAt.throw _
  | some tag =>
    refine RenderM.SameAt.bind ?_ fun first => ?_
    · intro s hs
      exact ⟨rfl, hs⟩
    · refine RenderM.SameAt.bind ?_ fun identity => ?_
      · intro s hs
        exact ⟨rfl, hs⟩
      · rw [hsite]
        refine (TagAction.perform_sameAt e h _).bind fun result => ?_
        cases result with
        | ok text => exact RenderM.SameAt.pure text
        | error failure => exact RenderM.SameAt.throw _

theorem renderShortcut_sameAt (name : String) (data : Members) {site : CallSite}
    (hsite : site.depth = d) :
    RenderM.SameAt d K (e.renderShortcut render name data site)
      (e.renderShortcut render' name data site) := by
  unfold renderShortcut
  cases e.config.shortcuts.lookup name with
  | none => exact RenderM.SameAt.throw _
  | some target => exact e.renderTag_sameAt h target.tag _ data hsite

theorem surroundings_sameAt :
    Surroundings.SameAt d K (e.surroundings render) (e.surroundings render') where
  evaluate names expr := RenderM.SameAt.evaluate e.host names expr
  render := h
  tag name first data _ hsite := e.renderTag_sameAt h name first data hsite
  shortcut name data _ hsite := e.renderShortcut_sameAt h name data hsite

end

/-- Nothing is loaded or run at the limit. -/
theorem activation_of_deep (path : String) (loaded : RenderM σ Template)
    (run : Template → RenderM σ String) {s : RenderState σ}
    (h : e.config.maxDepth ≤ s.context.depth) :
    (e.activation path loaded run).run.run s = (.error (.tooDeep path e.config.maxDepth), s) := by
  change (if e.config.maxDepth ≤ s.context.depth then _ else _ : RenderM σ String).run.run s = _
  rw [if_pos h]
  rfl

theorem activate_of_deep (load : Loader σ) (room : Nat) (request : Request) {s : RenderState σ}
    (h : e.config.maxDepth ≤ s.context.depth) :
    (e.activate load room request).run.run s =
      (.error (.tooDeep (e.requestPath request) e.config.maxDepth), s) := by
  cases room with
  | zero => rfl
  | succ room => exact e.activation_of_deep _ _ _ h

theorem activation_of_lt (path : String) (loaded : RenderM σ Template)
    (run : Template → RenderM σ String) {s : RenderState σ}
    (h : s.context.depth < e.config.maxDepth) :
    (e.activation path loaded run).run.run s =
      (loaded >>= fun template => RenderM.around (fun c => { c with depth := c.depth + 1 })
        (fun c => { c with depth := c.depth - 1 }) (run template)).run.run s := by
  change (if e.config.maxDepth ≤ s.context.depth then _ else _ : RenderM σ String).run.run s = _
  rw [if_neg (Nat.not_le.mpr h)]

/-- Below the limit a template is run one level deeper. -/
theorem activation_sameAt (path : String) {loaded : RenderM σ Template}
    {run run' : Template → RenderM σ String} (hloaded : RenderM.SameAt d K loaded loaded)
    (hrun : d < e.config.maxDepth →
      ∀ template, RenderM.SameAt (d + 1) K (run template) (run' template)) :
    RenderM.SameAt d K (e.activation path loaded run) (e.activation path loaded run') := by
  intro s hs
  by_cases hdeep : e.config.maxDepth ≤ s.context.depth
  · rw [e.activation_of_deep _ _ _ hdeep, e.activation_of_deep _ _ _ hdeep]
    exact ⟨rfl, hs⟩
  · have hlt : s.context.depth < e.config.maxDepth := Nat.lt_of_not_le hdeep
    have henter : ∀ ⦃s : RenderState σ⦄, s.At d K → RenderState.At (d + 1) K
        { s with context := { s.context with depth := s.context.depth + 1 } } :=
      fun _ hs => ⟨congrArg (· + 1) hs.1, hs.2⟩
    have hleave : ∀ ⦃s : RenderState σ⦄, s.At (d + 1) K → RenderState.At d K
        { s with context := { s.context with depth := s.context.depth - 1 } } :=
      fun _ hs => ⟨congrArg (· - 1) hs.1, hs.2⟩
    rw [e.activation_of_lt _ _ _ hlt, e.activation_of_lt _ _ _ hlt]
    refine hloaded.bind (fun template => ?_) hs
    exact RenderM.SameAt.around henter hleave (hrun (hs.1 ▸ hlt) template)

end Engine

end Templating
