import Templating.Render
import Templating.Proofs.Simulation

/-!
Engines over two stores of templates. When the loaders answer every request alike, so do the renders,
with all that tags ask for.
-/
namespace Templating

variable {σ τ : Type} {R : σ → τ → Prop}

/-- Both loaders answer a request alike and leave related stores related. -/
def Loader.Simulates (R : σ → τ → Prop) (load : Loader σ) (load' : Loader τ) : Prop :=
  ∀ request ⦃c d⦄, R c d →
    ((load request).run.run c).1 = ((load' request).run.run d).1 ∧
    R ((load request).run.run c).2 ((load' request).run.run d).2

theorem RenderM.Simulates.ofStore {load : Loader σ} {load' : Loader τ}
    (h : Loader.Simulates R load load') (request : Request) :
    RenderM.Simulates R (RenderM.ofStore (load request)) (RenderM.ofStore (load' request)) := by
  intro s t hst
  obtain ⟨hresult, hstate⟩ := h request hst.cache
  refine ⟨?_, hst.context, hst.identity, hstate⟩
  change Agree Eq ((load request).run.run s.engine.cache).1
    ((load' request).run.run t.engine.cache).1
  rw [hresult]
  exact Agree.refl _

theorem RenderM.run_get_bind {α : Type} (f : RenderState σ → RenderM σ α) (s : RenderState σ) :
    (get >>= f).run.run s = (f s).run.run s := rfl

theorem RenderM.run_evaluate (host : HostFunctions) (names : Env) (e : Expr) (s : RenderState σ) :
    (RenderM.evaluate host names e).run.run s =
      match (e.evaluate host names).run s.engine.identity with
      | .error error => (.ok (.error error), s)
      | .ok (v, identity) => (.ok (.ok v), { s with engine := { s.engine with identity } }) := by
  unfold RenderM.evaluate
  rw [RenderM.run_get_bind]
  rcases (e.evaluate host names).run s.engine.identity with error | ⟨v, identity⟩
  · rfl
  · rfl

theorem RenderM.Simulates.evaluate (host : HostFunctions) (names : Env) (e : Expr) :
    RenderM.Simulates R (RenderM.evaluate host names e) (RenderM.evaluate host names e) := by
  unfold RenderM.evaluate
  refine RenderM.Relates.bind_get fun s t hst => ?_
  rw [hst.identity]
  rcases (e.evaluate host names).run t.engine.identity with error | ⟨value, identity⟩
  · exact RenderM.Simulates.pure _
  · intro _ _ _
    exact ⟨.ok rfl, hst.withIdentity identity⟩

theorem TagAction.perform_simulates (e : Engine) {render : Request → RenderM σ String}
    {render' : Request → RenderM τ String}
    (h : ∀ request, RenderM.Simulates R (render request) (render' request)) (depth : Nat)
    (action : TagAction) :
    RenderM.Simulates R (action.perform e render depth) (action.perform e render' depth) := by
  induction action with
  | finish result => exact RenderM.Simulates.pure result
  | render path data next ih =>
    exact RenderM.Simulates.bind ((h _).within _).attempt fun outcome => ih outcome
  | renderText source data next ih =>
    exact RenderM.Simulates.bind ((h _).within _).attempt fun outcome => ih outcome

namespace Engine

variable (e : Engine)

section

variable {render : Request → RenderM σ String} {render' : Request → RenderM τ String}
variable (h : ∀ request, RenderM.Simulates R (render request) (render' request))
include h

theorem renderTag_simulates (name : String) (first : Value) (data : Members) (site : CallSite) :
    RenderM.Simulates R (e.renderTag render name first data site)
      (e.renderTag render' name first data site) := by
  unfold renderTag
  cases e.tags.get? name with
  | none => exact RenderM.Simulates.throw _
  | some tag =>
    refine RenderM.Simulates.bind ?_ fun first => ?_
    · intro s t hst
      exact ⟨Agree.refl (e.firstArgument tag first site), hst⟩
    · refine RenderM.Simulates.bind ?_ fun identity => ?_
      · intro s t hst
        exact ⟨.ok hst.identity, hst.context, congrArg (· + 1) hst.identity, hst.cache⟩
      · refine (TagAction.perform_simulates e h site.depth _).bind fun result => ?_
        cases result with
        | ok text => exact RenderM.Simulates.pure text
        | error failure => exact RenderM.Simulates.throw _

theorem renderShortcut_simulates (name : String) (data : Members) (site : CallSite) :
    RenderM.Simulates R (e.renderShortcut render name data site)
      (e.renderShortcut render' name data site) := by
  unfold renderShortcut
  cases e.config.shortcuts.lookup name with
  | none => exact RenderM.Simulates.throw _
  | some target => exact e.renderTag_simulates h target.tag _ data site

theorem surroundings_simulates :
    Surroundings.Simulates R (e.surroundings render) (e.surroundings render') where
  evaluate names expr := RenderM.Simulates.evaluate e.host names expr
  render := h
  tag := e.renderTag_simulates h
  shortcut := e.renderShortcut_simulates h

end

def activation (path : String) (loaded : RenderM σ Template) (run : Template → RenderM σ String) :
    RenderM σ String := do
  if e.config.maxDepth ≤ (← get).context.depth then
    throw (.tooDeep path e.config.maxDepth)
  let template ← loaded
  RenderM.around (fun c => { c with depth := c.depth + 1 })
    (fun c => { c with depth := c.depth - 1 }) (run template)

/-- One activation, inside which templates are rendered as given. -/
def activateBy (load : Loader σ) (render : Request → RenderM σ String) (request : Request) :
    RenderM σ String :=
  e.activation (e.requestPath request) (RenderM.ofStore (load request))
    (Run.text (e.surroundings render))

theorem activate_succ (load : Loader σ) (room : Nat) :
    e.activate load (room + 1) = e.activateBy load (e.activate load room) := rfl

theorem activation_simulates (path : String) {loaded : RenderM σ Template}
    {loaded' : RenderM τ Template} {run : Template → RenderM σ String}
    {run' : Template → RenderM τ String} (hloaded : RenderM.Simulates R loaded loaded')
    (hrun : ∀ template, RenderM.Simulates R (run template) (run' template)) :
    RenderM.Simulates R (e.activation path loaded run) (e.activation path loaded' run') := by
  unfold activation
  refine RenderM.Relates.bind_get fun s t hst => ?_
  rw [hst.context]
  have hdeeper := fun (_ : Unit) => hloaded.bind fun template => (hrun template).around
    (fun c => { c with depth := c.depth + 1 }) (fun c => { c with depth := c.depth - 1 })
  split
  · exact (RenderM.Simulates.throw _).bind hdeeper
  · exact hdeeper ()

variable {load : Loader σ} {load' : Loader τ} (h : Loader.Simulates R load load')
include h

theorem activate_simulates (room : Nat) (request : Request) :
    RenderM.Simulates R (e.activate load room request) (e.activate load' room request) := by
  induction room generalizing request with
  | zero => exact RenderM.Simulates.throw _
  | succ room ih =>
    rw [activate_succ, activate_succ]
    exact e.activation_simulates _ (RenderM.Simulates.ofStore h request) fun template =>
      Run.text_simulates template (e.surroundings_simulates ih)

theorem renderRequest_simulates (request : Request) (data : Value) {s : EngineState σ}
    {t : EngineState τ} (hidentity : s.identity = t.identity) (hcache : R s.cache t.cache) :
    ((e.renderRequest load request data).run s).1 =
      ((e.renderRequest load' request data).run t).1 ∧
    ((e.renderRequest load request data).run s).2.identity =
      ((e.renderRequest load' request data).run t).2.identity ∧
    R ((e.renderRequest load request data).run s).2.cache
      ((e.renderRequest load' request data).run t).2.cache := by
  obtain ⟨hresult, hstate⟩ := e.activate_simulates h e.config.maxDepth request
    (s := ⟨.ofData data.members 0, s⟩) (t := ⟨.ofData data.members 0, t⟩)
    ⟨rfl, hidentity, hcache⟩
  exact ⟨hresult.eq, hstate.identity, hstate.cache⟩

end Engine
end Templating
