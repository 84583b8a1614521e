import Mathlib.Logic.Function.Iterate
import Templating.Proofs.Depth
import Templating.Proofs.Moments

/-!
Renders watched from outside. The templates that are being run are as many as the depth of the
innermost context says, so the limit of the configuration bounds both, and no render goes on for
ever.
-/
namespace Templating

variable {σ α : Type}

/-- What happens next in a render, and for `left` what has happened. -/
inductive Occasion where
  | asked (path : String)
  | begun (path : String)
  | reached (path : String) (index : Nat)
  | left (path : String)

/-- An occasion, with the paths of the templates that are being run, the innermost first, and the
depth of the innermost context. -/
structure Instant where
  occasion : Occasion
  running : List String
  depth : Nat

/-- The last instant comes first. -/
structure Progress where
  running : List String := []
  instants : List Instant := []

namespace RenderState

def note (occasion : Occasion) (r : RenderState (σ × Progress)) : RenderState (σ × Progress) :=
  let progress := r.engine.cache.2
  let instant : Instant := ⟨occasion, progress.running, r.context.depth⟩
  { r with engine := { r.engine with
    cache := (r.engine.cache.1, { progress with instants := instant :: progress.instants }) } }

def setRunning (running : List String) (r : RenderState (σ × Progress)) :
    RenderState (σ × Progress) :=
  { r with engine := { r.engine with
    cache := (r.engine.cache.1, { r.engine.cache.2 with running }) } }

end RenderState

def RenderM.running (path : String) (action : RenderM (σ × Progress) α) :
    RenderM (σ × Progress) α :=
  ExceptT.mk do
    let outer := (← get).engine.cache.2.running
    modify fun s => (s.setRunning (path :: outer)).note (.begun path)
    let result ← action.run
    modify fun s => (s.note (.left path)).setRunning outer
    return result

def Run.noted (surroundings : Surroundings (σ × Progress)) (template : Template) (index : Nat)
    (s : Statement) : RunM (σ × Progress) Unit := do
  modifyThe (RenderState (σ × Progress)) (·.note (.reached template.path index))
  step surroundings template s

namespace Engine

variable (e : Engine) (load : Loader σ)

def runNoted (render : Request → RenderM (σ × Progress) String) (template : Template) :
    RenderM (σ × Progress) String :=
  RenderM.running template.path
    (Run.textIn template (e.surroundings render) (Run.noted (e.surroundings render) template))

def watchBy (render : Request → RenderM (σ × Progress) String) (request : Request) :
    RenderM (σ × Progress) String := do
  modify (·.note (.asked (e.requestPath request)))
  e.activation (e.requestPath request) (RenderM.ofStore (load request)).beside (e.runNoted render)

def watch : Nat → Request → RenderM (σ × Progress) String
  | 0, request => do
    modify (·.note (.asked (e.requestPath request)))
    throw (.tooDeep (e.requestPath request) e.config.maxDepth)
  | room + 1, request => e.watchBy load (watch room) request

abbrev Noting : σ × Progress → σ → Prop := Beside fun _ => True

end Engine

theorem RenderState.Matches.note {s : RenderState (σ × Progress)} {t : RenderState σ}
    (h : s.Matches Engine.Noting t) (occasion : Occasion) :
    (s.note occasion).Matches Engine.Noting t :=
  ⟨h.context, h.identity, h.cache.1, trivial⟩

theorem RenderM.Simulates.running {x : RenderM (σ × Progress) α} {y : RenderM σ α}
    (h : RenderM.Simulates Engine.Noting x y) (path : String) :
    RenderM.Simulates Engine.Noting (RenderM.running path x) y := by
  intro s t hst
  have hbegun : ((s.setRunning (path :: s.engine.cache.2.running)).note (.begun path)).Matches
      Engine.Noting t := ⟨hst.context, hst.identity, hst.cache.1, trivial⟩
  obtain ⟨hresult, hend⟩ := h hbegun
  exact ⟨hresult, hend.context, hend.identity, hend.cache.1, trivial⟩

theorem Run.noted_simulates {x : Surroundings (σ × Progress)} {y : Surroundings σ}
    (h : x.Simulates Engine.Noting y) (template : Template) (index : Nat) (s : Statement) :
    RunM.Simulates Engine.Noting Eq (Run.noted x template index s) (Run.step y template s) := by
  intro a b hab state t hst
  exact (Run.fullCongruence template h).step s hab (hst.note (.reached template.path index))

theorem Run.textIn_simulates {x : Surroundings (σ × Progress)} {y : Surroundings σ}
    (h : x.Simulates Engine.Noting y) (template : Template) :
    RenderM.Simulates Engine.Noting (Run.textIn template x (Run.noted x template))
      (Run.text y template) := by
  rw [← Run.textIn_step]
  unfold Run.textIn
  refine RenderM.Relates.bind_get fun s t hst => ?_
  rw [hst.context]
  have hcongruence := Run.congruence template h .eq
  refine RenderM.Relates.bind
    (hcongruence.execIn (fun i s _ => Run.noted_simulates h template i s) 0 _ rfl) ?_
  rintro ⟨_, a⟩ ⟨_, b⟩ ⟨-, hab⟩
  exact RenderM.Relates.pure (congrArg _ hab)

namespace Engine

variable (e : Engine) (load : Loader σ)

theorem watchBy_simulates {render : Request → RenderM (σ × Progress) String}
    {render' : Request → RenderM σ String}
    (h : ∀ request, RenderM.Simulates Noting (render request) (render' request))
    (request : Request) :
    RenderM.Simulates Noting (e.watchBy load render request)
      (e.activateBy load render' request) := by
  have hrun (template : Template) := Run.textIn_simulates (e.surroundings_simulates h) template
  have hactivation := e.activation_simulates (e.requestPath request)
    (RenderM.beside_simulates (fun _ => True) (RenderM.ofStore (load request)))
    fun template => (hrun template).running template.path
  intro s t hst
  exact hactivation (hst.note (.asked (e.requestPath request)))

theorem watch_simulates (room : Nat) (request : Request) :
    RenderM.Simulates Noting (e.watch load room request) (e.activate load room request) := by
  induction room generalizing request with
  | zero =>
    intro s t hst
    exact ⟨.error _, hst.note _⟩
  | succ room ih => exact e.watchBy_simulates load ih request

/-- As many templates are being run as the depth says, and no more than the limit allows. -/
def Instant.Counted (e : Engine) (i : Instant) : Prop :=
  i.running.length = i.depth ∧ i.depth ≤ e.config.maxDepth

def Counting (e : Engine) (paths : List String) (w : σ × Progress) : Prop :=
  w.2.running = paths ∧ ∀ i ∈ w.2.instants, Instant.Counted e i

end Engine

variable {e : Engine} {d : Nat} {paths : List String}

theorem RenderState.At.note {s : RenderState (σ × Progress)}
    (h : s.At d (e.Counting paths)) (hd : paths.length = d) (hmax : d ≤ e.config.maxDepth)
    (occasion : Occasion) : (s.note occasion).At d (e.Counting paths) := by
  obtain ⟨hdepth, hrunning, hinstants⟩ := h
  refine ⟨hdepth, hrunning, fun i hi => ?_⟩
  rcases List.mem_cons.mp hi with rfl | hi
  · refine ⟨?_, ?_⟩
    · rw [show s.context.depth = d from hdepth, ← hd, ← hrunning]
    · rw [show s.context.depth = d from hdepth]
      exact hmax
  · exact hinstants i hi

theorem RenderM.SameAt.running {x : RenderM (σ × Progress) α} {path : String}
    (hd : paths.length + 1 = d) (hmax : d ≤ e.config.maxDepth)
    (h : RenderM.SameAt d (e.Counting (path :: paths)) x x) :
    RenderM.SameAt d (e.Counting paths) (RenderM.running path x) (RenderM.running path x) := by
  intro s hs
  obtain ⟨hdepth, hrunning, hinstants⟩ := hs
  have hbegun : ((s.setRunning (path :: s.engine.cache.2.running)).note (.begun path)).At d
      (e.Counting (path :: paths)) := by
    have hpushed : (s.setRunning (path :: s.engine.cache.2.running)).At d
        (e.Counting (path :: paths)) := ⟨hdepth, congrArg (path :: ·) hrunning, hinstants⟩
    exact hpushed.note hd hmax _
  obtain ⟨-, hend⟩ := h hbegun
  obtain ⟨hdepth', -, hinstants'⟩ := hend.note hd hmax (.left path)
  exact ⟨rfl, hdepth', hrunning, hinstants'⟩

namespace Engine

theorem ofStore_beside_sameAt (action : ExceptT Failure (StateM σ) α) :
    RenderM.SameAt d (e.Counting paths) (RenderM.ofStore action).beside
      (RenderM.ofStore action).beside :=
  fun _ hs => ⟨rfl, hs⟩

theorem runNoted_sameAt {render : Request → RenderM (σ × Progress) String} {template : Template}
    (hd : paths.length + 1 = d) (hmax : d ≤ e.config.maxDepth)
    (h : ∀ request, RenderM.SameAt d (e.Counting (template.path :: paths)) (render request)
      (render request)) :
    RenderM.SameAt d (e.Counting paths) (e.runNoted render template)
      (e.runNoted render template) := by
  have hsurroundings := e.surroundings_sameAt h
  refine RenderM.SameAt.running hd hmax (Run.textIn_sameAt template hsurroundings fun i s _ => ?_)
  refine RunM.SameAt.bind (RunM.SameAt.modifyState fun r hr => ?_) fun _ =>
    (Run.sameAt template hsurroundings).step s
  exact hr.note hd hmax _

theorem watch_sameAt (load : Loader σ) (room : Nat) (hd : paths.length = d)
    (hmax : d ≤ e.config.maxDepth) (request : Request) :
    RenderM.SameAt d (e.Counting paths) (e.watch load room request)
      (e.watch load room request) := by
  induction room generalizing paths d request with
  | zero =>
    intro s hs
    exact ⟨rfl, hs.note hd hmax _⟩
  | succ room ih =>
    intro s hs
    refine e.activation_sameAt _ (ofStore_beside_sameAt _) ?_ (hs.note hd hmax _)
    intro hlt template
    refine runNoted_sameAt (congrArg (· + 1) hd) hlt fun request => ?_
    exact ih (congrArg (· + 1) hd) hlt request

/-- Whatever is rendered below so many activations, it is not reached. -/
theorem iterate_activateBy_sameAt (load : Loader σ) (base : Request → RenderM σ String)
    {room n : Nat} (hroom : e.config.maxDepth ≤ d + room) (hn : room < n) (request : Request) :
    RenderM.SameAt d (fun _ => True) ((e.activateBy load)^[n] base request)
      (e.activate load room request) := by
  induction room generalizing n d request with
  | zero =>
    intro s hs
    have hdeep : e.config.maxDepth ≤ s.context.depth := by
      rw [hs.1]
      omega
    obtain ⟨n, rfl⟩ := Nat.exists_eq_add_of_lt hn
    rw [Nat.zero_add, Function.iterate_succ_apply', e.activate_of_deep load 0 request hdeep,
      activateBy, e.activation_of_deep _ _ _ hdeep]
    exact ⟨rfl, hs⟩
  | succ room ih =>
    obtain ⟨n, rfl⟩ : ∃ m, n = m + 1 := ⟨n - 1, by omega⟩
    rw [Function.iterate_succ_apply', activate_succ]
    have hload : RenderM.SameAt d (fun _ => True) (RenderM.ofStore (load request))
        (RenderM.ofStore (load request)) := fun _ hs => ⟨rfl, hs⟩
    refine e.activation_sameAt _ hload fun _ template => Run.text_sameAt template ?_
    exact e.surroundings_sameAt fun request => ih (by omega) (by omega) request

/-- Renders go no deeper than the limit, and end there. -/
theorem render_keeps_depth (e : Engine) (load : Loader σ) (request : Request) (data : Value)
    (state : EngineState σ) :
    let watched := (e.watch load e.config.maxDepth request).run.run
      ⟨.ofData data.members 0, (state.cache, {}), state.identity⟩
    let rendered := (e.renderRequest load request data).run state
    -- what is watched is the render
    (watched.1 = rendered.1 ∧
      watched.2.engine.cache.1 = rendered.2.cache ∧
      watched.2.engine.identity = rendered.2.identity) ∧
    -- the depth counts the templates that are being run
    (∀ i ∈ watched.2.engine.cache.2.instants,
      i.running.length = i.depth ∧ i.depth ≤ e.config.maxDepth) ∧
    watched.2.engine.cache.2.running = [] ∧
    -- at the limit a template that is asked for is not run
    (∀ room request (s : RenderState σ), e.config.maxDepth ≤ s.context.depth →
      (e.activate load room request).run.run s =
        (.error (.tooDeep (e.requestPath request) e.config.maxDepth), s)) ∧
    -- whatever would be rendered beyond the limit is never rendered
    ∀ base n, e.config.maxDepth < n →
      ((e.activateBy load)^[n] base request).run.run ⟨.ofData data.members 0, state⟩ =
        (e.activate load e.config.maxDepth request).run.run ⟨.ofData data.members 0, state⟩ := by
  intro watched rendered
  have hstart : RenderState.At 0 (e.Counting [])
      ⟨.ofData data.members 0, ((state.cache, {}) : σ × Progress), state.identity⟩ :=
    ⟨rfl, rfl, by simp⟩
  obtain ⟨hresult, hend⟩ := e.watch_simulates load e.config.maxDepth request
    (s := ⟨.ofData data.members 0, (state.cache, {}), state.identity⟩)
    (t := ⟨.ofData data.members 0, state⟩) ⟨rfl, rfl, rfl, trivial⟩
  have hwatch : RenderM.SameAt 0 (e.Counting []) (e.watch load e.config.maxDepth request)
      (e.watch load e.config.maxDepth request) :=
    watch_sameAt load e.config.maxDepth List.length_nil (Nat.zero_le _) request
  obtain ⟨-, -, hrunning, hcounted⟩ := hwatch hstart
  refine ⟨⟨hresult.eq, hend.cache.1, hend.identity⟩, hcounted, hrunning,
    fun room request s => e.activate_of_deep load room request, fun base n hn => ?_⟩
  exact (iterate_activateBy_sameAt load base (by omega) hn request ⟨rfl, trivial⟩).1

end Engine

end Templating
