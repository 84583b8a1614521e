import Templating.Proofs.Unwinding

/-!
Runs of statements beside their chronicles.
-/
namespace Templating

open RenderState

variable {σ α β : Type}

instance : Preorder Record where
  le w w' := w.scenes <:+ w'.scenes ∧ w.names ≤ w'.names
  le_refl w := ⟨List.suffix_rfl, le_rfl⟩
  le_trans _ _ _ h h' := ⟨h.1.trans h'.1, h.2.trans h'.2⟩

structure Context.Each (P : Function → Prop) (c : Context) : Prop where
  globals : Members.Each P c.globals
  frames : ∀ frame ∈ c.frames, Members.Each P frame

/-- What is kept of the store at all times, and what is supposed when failures are followed. -/
structure Premises (σ : Type) where
  kept : σ → Prop
  followed : Prop

/-- A state of a render and one with its chronicle, which is to have these layers and that record so
far. -/
structure Tells (K : Premises σ) (stack : List Layer) (w : Record)
    (s : RenderState (σ × Chronicle)) (t : RenderState σ) : Prop where
  context : s.context = t.context
  identity : s.engine.identity = t.engine.identity
  cache : s.engine.cache.1 = t.engine.cache
  layers : s.chronicle.layers = stack
  record : s.chronicle.record = w
  depth : t.context.depth = Layer.depth stack
  kept : K.kept t.engine.cache
  sound : w.names.Sound Running.lookup
  known : t.context.Each w.names.Known

/-- The names of an activation are those of its chronicle, and all its closures are known. -/
structure Activation.Fits (w : Record) (r : Running) (a : Activation) : Prop where
  lookup : ∀ name, a.names.lookup name = r.lookup name
  known : Members.Each w.names.Known a.names
  pending : ∀ call ∈ a.pending, Members.Each w.names.Known call.data

theorem Activation.Fits.mono {w w' : Record} {r : Running} {a : Activation} (h : a.Fits w r)
    (hle : w ≤ w') : a.Fits w' r where
  lookup := h.lookup
  known := h.known.mono fun _ => CallHistory.Known.mono hle.2
  pending call hcall := (h.pending call hcall).mono fun _ => CallHistory.Known.mono hle.2

/-- Texts and captures make no difference. -/
theorem Activation.Fits.of_eq {w : Record} {r : Running} {a b : Activation} (h : a.Fits w r)
    (hnames : b.names = a.names) (hpending : b.pending <:+ a.pending) : b.Fits w r where
  lookup := hnames ▸ h.lookup
  known := hnames ▸ h.known
  pending call hcall := h.pending call (hpending.subset hcall)

inductive Comes {S T : Type} (w : Record) (H : Record → α → S → T → Prop)
    (E : Record → Failure → S → T → Prop) : Except Failure α × S → Except Failure α × T → Prop
  | ok {w' : Record} {a : α} {s : S} {t : T} (hw : w ≤ w') (h : H w' a s t) :
    Comes w H E (.ok a, s) (.ok a, t)
  | error {w' : Record} {failure : Failure} {s : S} {t : T} (hw : w ≤ w') (h : E w' failure s t) :
    Comes w H E (.error failure, s) (.error failure, t)

theorem Comes.weaken {S T : Type} {w w' : Record} {H H' : Record → α → S → T → Prop}
    {E E' : Record → Failure → S → T → Prop} {x : Except Failure α × S} {y : Except Failure α × T}
    (hw : w ≤ w') (h : Comes w' H E x y)
    (hH : ∀ w'', w' ≤ w'' → ∀ a s t, H w'' a s t → H' w'' a s t)
    (hE : ∀ w'' f s t, E w'' f s t → E' w'' f s t) : Comes w H' E' x y := by
  cases h with
  | ok hw' h => exact .ok (hw.trans hw') (hH _ hw' _ _ _ h)
  | error hw' h => exact .error (hw.trans hw') (hE _ _ _ _ h)

def Fails (e : Engine) (K : Premises σ) (layers : List Layer) (w : Record) (failure : Failure)
    (s : RenderState (σ × Chronicle)) (t : RenderState σ) : Prop :=
  Tells K layers w s t ∧ (K.followed → Unwinds e failure layers w.scenes)

section Relations

variable (e : Engine) (K : Premises σ) (stack : List Layer) (w : Record) (r : Running)

/-- From states that are told of both come to the same end and stay in the same layers. -/
def RenderM.Carries (Q : Record → α → Prop) (x : RenderM (σ × Chronicle) α) (y : RenderM σ α) :
    Prop :=
  ∀ ⦃s t⦄, Tells K stack w s t →
    Comes w (fun w' a s t => Tells K stack w' s t ∧ Q w' a) (Fails e K stack) (x.run.run s)
      (y.run.run t)

/-- The activation fits the innermost layer before and afterwards. -/
def RunM.Keeps (Q : Record → α → Prop) (x : RunM (σ × Chronicle) α) (y : RunM σ α) : Prop :=
  ∀ a : Activation, a.Fits w r →
    RenderM.Carries e K (.template r :: stack) w (fun w' p => p.2.Fits w' r ∧ Q w' p.1) (x.run a)
      (y.run a)

end Relations

section Keeping

variable {e : Engine} {K : Premises σ} {stack outer : List Layer} {w : Record} {r : Running}

namespace RenderM.Carries

variable {Q : Record → α → Prop} {Q' : Record → β → Prop}

protected theorem pure {a : α} (h : Q w a) : RenderM.Carries e K stack w Q (pure a) (pure a) := by
  intro s t hst
  exact .ok le_rfl ⟨hst, h⟩

protected theorem throw {failure : Failure} (h : Unwinds e failure stack w.scenes) :
    RenderM.Carries e K stack w Q (throw failure) (throw failure) := by
  intro s t hst
  exact .error le_rfl ⟨hst, fun _ => h⟩

protected theorem bind {x : RenderM (σ × Chronicle) α} {y : RenderM σ α}
    {f : α → RenderM (σ × Chronicle) β} {g : α → RenderM σ β}
    (hxy : RenderM.Carries e K stack w Q x y)
    (hfg : ∀ w', w ≤ w' → ∀ a, Q w' a → RenderM.Carries e K stack w' Q' (f a) (g a)) :
    RenderM.Carries e K stack w Q' (x >>= f) (y >>= g) := by
  intro s t hst
  have hresult := hxy hst
  rcases hx : x.run.run s with ⟨outcome, s'⟩
  rcases hy : y.run.run t with ⟨outcome', t'⟩
  rw [hx, hy] at hresult
  cases hresult with
  | ok hw h =>
    rw [run_bind_ok hx, run_bind_ok hy]
    exact (hfg _ hw _ h.2 h.1).weaken hw (fun _ _ _ _ _ => id) fun _ _ _ _ => id
  | error hw h =>
    rw [run_bind_error hx, run_bind_error hy]
    exact .error hw h

theorem mono {Q'' : Record → α → Prop} {x : RenderM (σ × Chronicle) α} {y : RenderM σ α}
    (h : RenderM.Carries e K stack w Q x y) (hQ : ∀ w', w ≤ w' → ∀ a, Q w' a → Q'' w' a) :
    RenderM.Carries e K stack w Q'' x y :=
  fun _ _ hst => (h hst).weaken le_rfl (fun _ hw _ _ _ h => ⟨h.1, hQ _ hw _ h.2⟩)
    fun _ _ _ _ => id

end RenderM.Carries

namespace RunM.Keeps

variable {Q : Record → α → Prop} {Q' : Record → β → Prop}

protected theorem pure {v : α} (h : Q w v) :
    RunM.Keeps (σ := σ) e K stack w r Q (pure v) (pure v) :=
  fun _ ha => RenderM.Carries.pure ⟨ha, h⟩

protected theorem throw {failure : Failure}
    (h : Unwinds e failure (.template r :: stack) w.scenes) :
    RunM.Keeps (σ := σ) e K stack w r Q (throw failure) (throw failure) :=
  fun _ _ => RenderM.Carries.throw h

protected theorem bind {x : RunM (σ × Chronicle) α} {y : RunM σ α}
    {f : α → RunM (σ × Chronicle) β} {g : α → RunM σ β} (hxy : RunM.Keeps e K stack w r Q x y)
    (hfg : ∀ w', w ≤ w' → ∀ v, Q w' v → RunM.Keeps e K stack w' r Q' (f v) (g v)) :
    RunM.Keeps e K stack w r Q' (x >>= f) (y >>= g) :=
  fun a ha => (hxy a ha).bind fun w' hw p hp => hfg w' hw p.1 hp.2 p.2 hp.1

theorem mono {Q'' : Record → α → Prop} {x : RunM (σ × Chronicle) α} {y : RunM σ α}
    (h : RunM.Keeps e K stack w r Q x y) (hQ : ∀ w' a, Q w' a → Q'' w' a) :
    RunM.Keeps e K stack w r Q'' x y :=
  fun a ha => (h a ha).mono fun w' _ p hp => ⟨hp.1, hQ w' p.1 hp.2⟩

theorem lift {x : RenderM (σ × Chronicle) α} {y : RenderM σ α}
    (h : RenderM.Carries e K (.template r :: stack) w Q x y) :
    RunM.Keeps e K stack w r Q (liftM x) (liftM y) :=
  fun _ ha => h.bind fun _ hw _ hv => RenderM.Carries.pure ⟨ha.mono hw, hv⟩

theorem bind_get {f : Activation → RunM (σ × Chronicle) β} {g : Activation → RunM σ β}
    (h : ∀ a : Activation, a.Fits w r → RunM.Keeps e K stack w r Q' (f a) (g a)) :
    RunM.Keeps e K stack w r Q' (get >>= f) (get >>= g) :=
  fun a ha => h a ha a ha

protected theorem set {a : Activation} (h : a.Fits w r) :
    RunM.Keeps (σ := σ) e K stack w r (fun _ _ => True) (set a) (set a) :=
  fun _ _ => RenderM.Carries.pure ⟨h, trivial⟩

protected theorem modify {f : Activation → Activation}
    (h : ∀ a : Activation, a.Fits w r → (f a).Fits w r) :
    RunM.Keeps (σ := σ) e K stack w r (fun _ _ => True) (modify f) (modify f) :=
  fun a ha => RenderM.Carries.pure ⟨h a ha, trivial⟩

end RunM.Keeps

theorem Context.Each.mono {P Q : Function → Prop} {c : Context} (h : c.Each P)
    (himp : ∀ f, P f → Q f) : c.Each Q :=
  ⟨h.globals.mono himp, fun frame hframe => (h.frames frame hframe).mono himp⟩

/-- Another context takes the place of the one both have. -/
theorem Tells.withContext {s : RenderState (σ × Chronicle)} {t : RenderState σ}
    (h : Tells K stack w s t) {c : Context} (hdepth : c.depth = Layer.depth stack)
    (hknown : c.Each w.names.Known) :
    Tells K stack w { s with context := c } { t with context := c } where
  context := rfl
  identity := h.identity
  cache := h.cache
  layers := h.layers
  record := h.record
  depth := hdepth
  kept := h.kept
  sound := h.sound
  known := hknown

theorem Tells.setGlobal {s : RenderState (σ × Chronicle)} {t : RenderState σ}
    (h : Tells K stack w s t) (name text : String) :
    Tells K stack w { s with context := s.context.setGlobal name (.string text) }
      { t with context := t.context.setGlobal name (.string text) } := by
  rw [h.context]
  exact h.withContext h.depth
    ⟨h.known.globals.set name (Value.each_string text), h.known.frames⟩

theorem RenderM.run_around (enter leave : Context → Context) (x : RenderM σ α) (s : RenderState σ) :
    (RenderM.around enter leave x).run.run s =
      let r := x.run.run { s with context := enter s.context }
      (r.1, { r.2 with context := leave r.2.context }) := rfl

/-- What an action comes to inside another context, which is changed again in the end. -/
theorem Comes.around {H H' : Record → α → RenderState (σ × Chronicle) → RenderState σ → Prop}
    {E E' : Record → Failure → RenderState (σ × Chronicle) → RenderState σ → Prop}
    {x : RenderM (σ × Chronicle) α} {y : RenderM σ α} {enter leave : Context → Context}
    {s : RenderState (σ × Chronicle)} {t : RenderState σ}
    (hcontext : s.context = t.context)
    (h : Comes w H E (x.run.run { s with context := enter t.context })
      (y.run.run { t with context := enter t.context }))
    (hH : ∀ w' a s t, w ≤ w' → H w' a s t →
      H' w' a { s with context := leave s.context } { t with context := leave t.context })
    (hE : ∀ w' f s t, w ≤ w' → E w' f s t →
      E' w' f { s with context := leave s.context } { t with context := leave t.context }) :
    Comes w H' E' ((RenderM.around enter leave x).run.run s)
      ((RenderM.around enter leave y).run.run t) := by
  rw [← hcontext] at h
  rw [RenderM.run_around, RenderM.run_around, ← hcontext]
  dsimp only
  generalize x.run.run { s with context := enter s.context } = p at h ⊢
  generalize y.run.run { t with context := enter s.context } = q at h ⊢
  cases h with
  | ok hw h => exact .ok hw (hH _ _ _ _ hw h)
  | error hw h => exact .error hw (hE _ _ _ _ hw h)

/-- With one more frame for the time of an action. -/
theorem RenderM.Carries.withFrame {Q : Record → α → Prop} {x : RenderM (σ × Chronicle) α}
    {y : RenderM σ α} (h : RenderM.Carries e K stack w Q x y) {data : Members}
    (hdata : Members.Each w.names.Known data) :
    RenderM.Carries e K stack w Q
      (RenderM.around (fun c => { c with frames := data :: c.frames })
        (fun c => { c with frames := c.frames.tail }) x)
      (RenderM.around (fun c => { c with frames := data :: c.frames })
        (fun c => { c with frames := c.frames.tail }) y) := by
  intro s t hst
  have hframes : Context.Each w.names.Known
      { t.context with frames := data :: t.context.frames } :=
    ⟨hst.known.globals, List.forall_mem_cons.mpr ⟨hdata, hst.known.frames⟩⟩
  have hentered := hst.withContext (c := { t.context with frames := data :: t.context.frames })
    hst.depth hframes
  have hleft {w' : Record} {s' : RenderState (σ × Chronicle)} {t' : RenderState σ}
      (h : Tells K stack w' s' t') : Tells K stack w'
        { s' with context := { s'.context with frames := s'.context.frames.tail } }
        { t' with context := { t'.context with frames := t'.context.frames.tail } } := by
    rw [h.context]
    exact h.withContext h.depth ⟨h.known.globals,
      fun frame hframe => h.known.frames frame (List.mem_of_mem_tail hframe)⟩
  exact Comes.around hst.context (h hentered) (fun _ _ _ _ _ h => ⟨hleft h.1, h.2⟩)
    fun _ _ _ _ _ h => ⟨hleft h.1, h.2⟩

end Keeping

def Record.Evaluated (w : Record) (stack : List Layer) (outcome : Except EvalError Value) : Prop :=
  ∃ depth earlier, w.scenes = ⟨.evaluated outcome, stack, depth⟩ :: earlier

theorem Record.Evaluated.unwinds {e : Engine} {w : Record} {stack : List Layer}
    {outcome : Except EvalError Value} {failure : Failure} (h : w.Evaluated stack outcome)
    (hraises : ∀ depth, Scene.Raises e ⟨.evaluated outcome, stack, depth⟩ failure) :
    Unwinds e failure stack w.scenes := by
  obtain ⟨depth, earlier, hscenes⟩ := h
  rw [hscenes]
  exact .raised (hraises depth)

theorem Pending.data_setData (call : Pending) (key : String) (value : Value) :
    (call.setData key value).data = call.data.set key value := by
  cases call <;> rfl

structure Surroundings.Carries (e : Engine) (K : Premises σ) (template : Template)
    (outer : List Layer) (x : Surroundings (σ × Chronicle)) (y : Surroundings σ) : Prop where
  evaluate : ∀ w r names expr, r.template = template →
    (∀ name, names.lookup name = r.lookup name) → Members.Each w.names.Known names →
      RenderM.Carries e K (.template r :: outer) w
        (fun w' outcome => w'.Evaluated (.template r :: outer) outcome ∧
          ∀ v, outcome = .ok v → v.Each w'.names.Known)
        (x.evaluate names expr) (y.evaluate names expr)
  render : ∀ w r path, r.template = template →
    RenderM.Carries e K (.template r :: outer) w (fun _ _ => True)
      (x.render (.path path template.path)) (y.render (.path path template.path))
  tag : ∀ w r s name first data, r.template = template →
    r.template.statements[r.index]? = some s →
      let site := ⟨template.path, s.line, s.directive, Layer.depth (.template r :: outer)⟩
      RenderM.Carries e K (.template r :: outer) w (fun _ _ => True)
        (x.tag name first data site) (y.tag name first data site)
  shortcut : ∀ w r s name data, r.template = template →
    r.template.statements[r.index]? = some s →
      let site := ⟨template.path, s.line, s.directive, Layer.depth (.template r :: outer)⟩
      RenderM.Carries e K (.template r :: outer) w (fun _ _ => True)
        (x.shortcut name data site) (y.shortcut name data site)

namespace Run

theorem visits_eq_error {kind : LoopKind} {v : Value} {error : EvalError}
    (h : visits kind v = .error error) : v.sequence = .error error := by
  cases kind with
  | entries => cases h
  | items =>
    unfold visits at h
    cases hsequence : v.sequence with
    | ok values => simp [hsequence, Except.map] at h
    | error error' =>
      simpa [hsequence, Except.map] using h

theorem each_visits {P : Function → Prop} {kind : LoopKind} {v : Value} (hv : v.Each P)
    {found : List (Value × Value)} (h : visits kind v = .ok found) :
    ∀ visit ∈ found, visit.1.Each P ∧ visit.2.Each P := by
  intro visit hvisit
  cases kind with
  | entries =>
    cases h
    obtain ⟨m, hm, rfl⟩ := List.mem_map.mp hvisit
    exact ⟨Value.each_string _, hv.entries m hm⟩
  | items =>
    unfold visits at h
    have hvalues := hv.sequence
    cases hsequence : v.sequence with
    | error error => simp [hsequence, Except.map] at h
    | ok values =>
      rw [hsequence] at h hvalues
      cases h
      obtain ⟨i, hi, rfl⟩ := List.mem_mapIdx.mp hvisit
      exact ⟨Value.each_number _, hvalues _ (List.getElem_mem hi)⟩

section Actions

variable {e : Engine} {K : Premises σ} {outer : List Layer} {w : Record} {r : Running}
  {x : Surroundings (σ × Chronicle)} {y : Surroundings σ}
  (h : x.Carries e K r.template outer y) {s : Statement}
  (hs : r.template.statements[r.index]? = some s)
include h hs

theorem eval_keeps (expr : Expr) :
    RunM.Keeps e K outer w r
      (fun w' v => v.Each w'.names.Known ∧ w'.Evaluated (.template r :: outer) (.ok v))
      (eval x r.template s expr) (eval y r.template s expr) := by
  unfold eval
  refine RunM.Keeps.bind_get fun a ha => ?_
  refine (RunM.Keeps.lift (h.evaluate w r a.names expr rfl ha.lookup ha.known)).bind
    fun w' _ outcome houtcome => ?_
  cases outcome with
  | error error => exact RunM.Keeps.throw (houtcome.1.unwinds fun _ => .evaluation hs)
  | ok value => exact RunM.Keeps.pure ⟨houtcome.2 value rfl, houtcome.1⟩

theorem path_keeps (expr : Expr) :
    RunM.Keeps e K outer w r (fun _ _ => True) (path x r.template s expr)
      (path y r.template s expr) := by
  unfold path
  refine (eval_keeps h hs expr).bind fun w' _ value hvalue => ?_
  cases value with
  | string path => exact RunM.Keeps.pure trivial
  | _ => exact RunM.Keeps.throw (hvalue.2.unwinds fun _ => .path hs rfl)

theorem data_keeps (expr : Option Expr) :
    RunM.Keeps e K outer w r (fun w' members => Members.Each w'.names.Known members)
      (data x r.template s expr) (data y r.template s expr) := by
  cases expr with
  | none => exact RunM.Keeps.pure Members.each_nil
  | some expr =>
    exact (eval_keeps h hs expr).bind fun _ _ _ hvalue => RunM.Keeps.pure hvalue.1.members

theorem test_keeps (condition : Condition) :
    RunM.Keeps e K outer w r (fun _ _ => True) (test x r.template s condition)
      (test y r.template s condition) := by
  cases condition with
  | holds expr => exact (eval_keeps h hs expr).bind fun _ _ _ _ => RunM.Keeps.pure trivial
  | bound name => exact RunM.Keeps.bind_get fun _ _ => RunM.Keeps.pure trivial
  | unbound name => exact RunM.Keeps.bind_get fun _ _ => RunM.Keeps.pure trivial

/-- What a loop visits is made of what its source holds. -/
theorem loopVisits_keeps (kind : LoopKind) (source : Expr) :
    RunM.Keeps e K outer w r
      (fun w' visits => ∀ visit ∈ visits, visit.1.Each w'.names.Known ∧ visit.2.Each w'.names.Known)
      (loopVisits x r.template s kind source) (loopVisits y r.template s kind source) := by
  unfold loopVisits
  refine (eval_keeps h hs source).bind fun w' _ value hvalue => ?_
  cases hvisits : visits kind value with
  | error error =>
    exact RunM.Keeps.throw (hvalue.2.unwinds fun _ => .sequence hs (visits_eq_error hvisits))
  | ok found => exact RunM.Keeps.pure (each_visits hvalue.1 hvisits)

omit h hs in
theorem emit_keeps (text : String) :
    RunM.Keeps e K outer w r (fun _ _ => True) (emit (σ := σ × Chronicle) text)
      (emit (σ := σ) text) := by
  refine RunM.Keeps.modify fun a ha => ?_
  unfold Activation.emit
  cases a.captures with
  | nil => exact ha.of_eq rfl List.suffix_rfl
  | cons capture outer => exact ha.of_eq rfl List.suffix_rfl

omit hs in
theorem insert_keeps (path : String) {data : Members} (hdata : Members.Each w.names.Known data) :
    RunM.Keeps e K outer w r (fun _ _ => True) (insert x r.template path data)
      (insert y r.template path data) := by
  unfold insert
  have hrender := (h.render w r path rfl).withFrame hdata
  exact (RunM.Keeps.lift hrender).bind fun w' _ text _ => emit_keeps text

omit h hs in
theorem bind_site_keeps {Q : Record → α → Prop} {f : CallSite → RunM (σ × Chronicle) α}
    {g : CallSite → RunM σ α}
    (hfg : RunM.Keeps e K outer w r Q
      (f ⟨r.template.path, s.line, s.directive, Layer.depth (.template r :: outer)⟩)
      (g ⟨r.template.path, s.line, s.directive, Layer.depth (.template r :: outer)⟩)) :
    RunM.Keeps e K outer w r Q (site r.template s >>= f) (site r.template s >>= g) := by
  intro a ha state t hst
  have hdepth : state.context.depth = Layer.depth (.template r :: outer) :=
    (congrArg Context.depth hst.context).trans hst.depth
  change Comes w _ _ (((f ⟨_, _, _, state.context.depth⟩).run a).run.run state)
    (((g ⟨_, _, _, t.context.depth⟩).run a).run.run t)
  rw [hdepth, hst.depth]
  exact hfg a ha hst

theorem tag_keeps (name : String) (first : Value) (data : Members) :
    RunM.Keeps e K outer w r (fun _ _ => True) (tag x r.template s name first data)
      (tag y r.template s name first data) := by
  refine bind_site_keeps ?_
  exact (RunM.Keeps.lift (h.tag w r s name first data rfl hs)).bind fun _ _ text _ =>
    emit_keeps text

theorem shortcut_keeps (name : String) (data : Members) :
    RunM.Keeps e K outer w r (fun _ _ => True) (shortcut x r.template s name data)
      (shortcut y r.template s name data) := by
  refine bind_site_keeps ?_
  exact (RunM.Keeps.lift (h.shortcut w r s name data rfl hs)).bind fun _ _ text _ => emit_keeps text

omit h hs in
theorem closeContent_keeps :
    RunM.Keeps e K outer w r
      (fun w' call => ∀ c, call = some c → Members.Each w'.names.Known c.data)
      (closeContent (σ := σ × Chronicle)) (closeContent (σ := σ)) := by
  unfold closeContent
  refine RunM.Keeps.bind_get fun a ha => ?_
  rcases a.captures with _ | ⟨capture, captures⟩
  · exact RunM.Keeps.pure nofun
  · rcases hpending : a.pending with _ | ⟨call, calls⟩
    · dsimp only
      have hrest : { a with captures, pending := [] }.Fits w r := ha.of_eq rfl (List.nil_suffix)
      exact (RunM.Keeps.set hrest).bind fun _ _ _ _ => RunM.Keeps.pure nofun
    · dsimp only
      have hrest : { a with captures, pending := calls }.Fits w r :=
        ha.of_eq rfl (hpending ▸ List.suffix_cons call calls)
      refine (RunM.Keeps.set hrest).bind fun w' hw _ _ => RunM.Keeps.pure ?_
      rintro _ ⟨⟩
      have hcall := (ha.mono hw).pending call (hpending ▸ List.mem_cons_self)
      rw [Pending.data_setData]
      exact hcall.set contentName (Value.each_string _)

omit h hs in
theorem setGlobal_keeps (name text : String) :
    RunM.Keeps e K outer w r (fun _ _ => True)
      (modifyThe (RenderState (σ × Chronicle)) fun state =>
        { state with context := state.context.setGlobal name (.string text) })
      (modifyThe (RenderState σ) fun state =>
        { state with context := state.context.setGlobal name (.string text) }) := by
  intro a ha s t hst
  exact .ok le_rfl ⟨hst.setGlobal name text, ha, trivial⟩

theorem layout_keeps (expr : Expr) :
    RunM.Keeps e K outer w r (fun _ _ => True) (layout x r.template s expr)
      (layout y r.template s expr) := by
  unfold layout
  refine (path_keeps h hs expr).bind fun w₁ _ path _ => RunM.Keeps.bind_get fun a _ => ?_
  have hoverwrite (w : Record) (text : String) : RunM.Keeps (σ := σ) e K outer w r
      (fun _ _ => True) (modify fun a => { a with output := text })
      (modify fun a => { a with output := text }) :=
    RunM.Keeps.modify fun _ ha => ha.of_eq rfl List.suffix_rfl
  refine (hoverwrite w₁ "").bind fun w₂ _ _ _ => ?_
  refine (setGlobal_keeps _ _).bind fun w₃ _ _ _ => ?_
  exact (RunM.Keeps.lift (h.render w₃ r path rfl)).bind fun w₄ _ text _ => hoverwrite w₄ text

omit h hs in
theorem emitBound_keeps (name : String) :
    RunM.Keeps e K outer w r (fun _ _ => True)
      (get >>= fun a => emitBound (σ := σ × Chronicle) (a.bound? name))
      (get >>= fun a => emitBound (σ := σ) (a.bound? name)) := by
  refine RunM.Keeps.bind_get fun a _ => ?_
  cases a.bound? name with
  | some value => exact emit_keeps _
  | none => exact RunM.Keeps.pure trivial

omit h hs in
theorem await_keeps {call : Pending} (hcall : Members.Each w.names.Known call.data) :
    RunM.Keeps (σ := σ) e K outer w r (fun _ _ => True) (modify (·.await call))
      (modify (·.await call)) :=
  RunM.Keeps.modify fun _ ha =>
    ⟨ha.lookup, ha.known, List.forall_mem_cons.mpr ⟨hcall, ha.pending⟩⟩

/-- All statements but the end of a block leave the names alone. -/
theorem step_keeps (hblock : s.instruction ≠ .closeBlock) :
    RunM.Keeps e K outer w r (fun _ _ => True) (step x r.template s) (step y r.template s) := by
  unfold step
  cases hi : s.instruction with
  | literal text => exact emit_keeps text
  | emit expr => exact (eval_keeps h hs expr).bind fun _ _ _ _ => emit_keeps _
  | emitEncoded expr => exact (eval_keeps h hs expr).bind fun _ _ _ _ => emit_keeps _
  | put name => exact emitBound_keeps name
  | block name => exact RunM.Keeps.modify fun _ ha => ha.of_eq rfl List.suffix_rfl
  | closeBlock => exact absurd hi hblock
  | layout expr => exact layout_keeps h hs expr
  | insert target arguments content =>
    refine (path_keeps h hs target).bind fun w₁ _ path _ => ?_
    refine (data_keeps h hs arguments).bind fun w₂ _ data hdata => ?_
    split
    · exact await_keeps hdata
    · exact insert_keeps h path hdata
  | closeInsert =>
    refine closeContent_keeps.bind fun w₁ _ call hcall => ?_
    rcases call with _ | ⟨path, data⟩ | _ | _
    · exact RunM.Keeps.pure trivial
    · exact insert_keeps h path (hcall _ rfl)
    · exact RunM.Keeps.pure trivial
    · exact RunM.Keeps.pure trivial
  | tag name first arguments content =>
    refine (eval_keeps h hs first).bind fun w₁ _ first _ => ?_
    refine (data_keeps h hs arguments).bind fun w₂ _ data hdata => ?_
    split
    · exact await_keeps hdata
    · exact tag_keeps h hs name first data
  | closeTag name =>
    refine closeContent_keeps.bind fun w₁ _ call hcall => ?_
    rcases call with _ | _ | ⟨first, data⟩ | _
    · exact RunM.Keeps.pure trivial
    · exact RunM.Keeps.pure trivial
    · exact tag_keeps h hs name first data
    · exact RunM.Keeps.pure trivial
  | shortcut name arguments content =>
    refine (data_keeps h hs arguments).bind fun w₁ _ data hdata => ?_
    split
    · exact await_keeps hdata
    · exact shortcut_keeps h hs name data
  | closeShortcut name =>
    refine closeContent_keeps.bind fun w₁ _ call hcall => ?_
    rcases call with _ | _ | _ | data
    · exact RunM.Keeps.pure trivial
    · exact RunM.Keeps.pure trivial
    · exact RunM.Keeps.pure trivial
    · exact shortcut_keeps h hs name data
  | _ => exact RunM.Keeps.pure trivial

end Actions

end Run

structure Running.Of (template : Template) (entry : Context) (r : Running) : Prop where
  template : r.template = template
  entry : r.entry = entry

section Relations

variable (e : Engine) (K : Premises σ) (template : Template) (entry : Context) (outer : List Layer)
  (w : Record)

/-- The activation fits the innermost layer all along, but from this run on names may be written,
and other statements reached. -/
def RunM.WalksFrom (r : Running) (Q : Record → α → Prop) (x : RunM (σ × Chronicle) α)
    (y : RunM σ α) : Prop :=
  ∀ a : Activation, a.Fits w r → ∀ ⦃s t⦄, Tells K (.template r :: outer) w s t →
    Comes w
      (fun w' p s t => ∃ r' : Running, r'.Of template entry ∧ p.2.Fits w' r' ∧
        Tells K (.template r' :: outer) w' s t ∧ Q w' p.1)
      (fun w' failure s t => ∃ r' : Running, r'.Of template entry ∧
        Fails e K (.template r' :: outer) w' failure s t)
      ((x.run a).run.run s) ((y.run a).run.run t)

def RunM.Walks (Q : Record → α → Prop) (x : RunM (σ × Chronicle) α) (y : RunM σ α) : Prop :=
  ∀ r : Running, r.Of template entry → RunM.WalksFrom e K template entry outer w r Q x y

end Relations

section Walking

variable {e : Engine} {K : Premises σ} {template : Template} {entry : Context} {outer : List Layer}
  {w : Record}

namespace RunM.Walks

variable {Q : Record → α → Prop} {Q' : Record → β → Prop}

protected theorem pure {v : α} (h : Q w v) :
    RunM.Walks (σ := σ) e K template entry outer w Q (pure v) (pure v) := by
  intro r hr a ha s t hst
  exact .ok le_rfl ⟨r, hr, ha, hst, h⟩

protected theorem bind {x : RunM (σ × Chronicle) α} {y : RunM σ α}
    {f : α → RunM (σ × Chronicle) β} {g : α → RunM σ β}
    (hxy : RunM.Walks e K template entry outer w Q x y)
    (hfg : ∀ w', w ≤ w' → ∀ v, Q w' v →
      RunM.Walks e K template entry outer w' Q' (f v) (g v)) :
    RunM.Walks e K template entry outer w Q' (x >>= f) (y >>= g) := by
  intro r hr a ha s t hst
  have hresult := hxy r hr a ha hst
  change Comes w _ _ ((x.run a >>= fun p => (f p.1).run p.2).run.run s)
    ((y.run a >>= fun p => (g p.1).run p.2).run.run t)
  rcases hx : (x.run a).run.run s with ⟨outcome, s'⟩
  rcases hy : (y.run a).run.run t with ⟨outcome', t'⟩
  rw [hx, hy] at hresult
  cases hresult with
  | ok hw h =>
    obtain ⟨r', hr', ha', hst', hq⟩ := h
    rw [run_bind_ok hx, run_bind_ok hy]
    exact (hfg _ hw _ hq r' hr' _ ha' hst').weaken hw (fun _ _ _ _ _ => id) fun _ _ _ _ => id
  | error hw h =>
    rw [run_bind_error hx, run_bind_error hy]
    exact .error hw h

/-- A list of visits whose members stay known. -/
theorem forM {ι : Type} {P : Record → ι → Prop} (hP : ∀ {w w' i}, w ≤ w' → P w i → P w' i)
    {f : ι → RunM (σ × Chronicle) Unit} {g : ι → RunM σ Unit}
    (hfg : ∀ w i, P w i → RunM.Walks e K template entry outer w (fun _ _ => True) (f i) (g i)) :
    ∀ {w : Record} {is : List ι}, (∀ i ∈ is, P w i) →
      RunM.Walks e K template entry outer w (fun _ _ => True) (is.forM f) (is.forM g)
  | _, [], _ => RunM.Walks.pure trivial
  | w, i :: is, his => by
    obtain ⟨hi, hrest⟩ := List.forall_mem_cons.mp his
    refine (hfg w i hi).bind fun w' hw _ _ => ?_
    have hrest' : ∀ j ∈ is, P w' j := fun j hj => hP hw (hrest j hj)
    exact forM (P := P) hP hfg hrest'

theorem guarded {p : Prop} [Decidable p] {x : RunM (σ × Chronicle) Unit} {y : RunM σ Unit}
    (h : p → RunM.Walks e K template entry outer w (fun _ _ => True) x y) :
    RunM.Walks e K template entry outer w (fun _ _ => True) (if p then x else pure ())
      (if p then y else pure ()) := by
  split
  · rename_i hp
    exact h hp
  · exact RunM.Walks.pure trivial

end RunM.Walks

def Record.tell (happening : Happening) (stack : List Layer) (w : Record) : Record :=
  { w with scenes := ⟨happening, stack, Layer.depth stack⟩ :: w.scenes }

theorem Record.le_tell (happening : Happening) (stack : List Layer) (w : Record) :
    w ≤ w.tell happening stack := ⟨List.suffix_cons _ _, le_rfl⟩

theorem Tells.tell {stack : List Layer} {s : RenderState (σ × Chronicle)} {t : RenderState σ}
    (h : Tells K stack w s t) (happening : Happening) :
    Tells K stack (w.tell happening stack) (s.tell happening) t where
  context := h.context
  identity := h.identity
  cache := h.cache
  layers := h.layers
  record := by
    have hdepth : s.context.depth = Layer.depth stack :=
      (congrArg Context.depth h.context).trans h.depth
    change Record.mk (⟨happening, s.chronicle.layers, s.context.depth⟩ ::
      s.chronicle.record.scenes) s.chronicle.record.names = _
    rw [h.layers, hdepth, h.record]
    rfl
  depth := h.depth
  kept := h.kept
  sound := h.sound
  known := h.known

/-- The innermost layer changes. -/
theorem Tells.change {r : Running} {s : RenderState (σ × Chronicle)} {t : RenderState σ}
    (h : Tells K (.template r :: outer) w s t) (f : Running → Running) :
    Tells K (.template (f r) :: outer) w (s.withChronicle (·.change f)) t where
  context := h.context
  identity := h.identity
  cache := h.cache
  layers := by
    have hlayers : s.engine.cache.2.layers = .template r :: outer := h.layers
    simp [chronicle, withChronicle, Chronicle.change, hlayers]
  record := h.record
  depth := h.depth
  kept := h.kept
  sound := h.sound
  known := h.known

theorem Activation.Fits.bind {r : Running} {a : Activation} (h : a.Fits w r) (name : String)
    {value : Value} (hvalue : value.Each w.names.Known) :
    (a.bind name value).Fits w (r.write name value) where
  lookup other := by
    change (Members.set a.names name value).lookup other = _
    rw [Members.lookup_set, h.lookup]
    by_cases heq : other = name
    · simp [Running.lookup, Running.write, heq]
    · simp [Running.lookup, Running.write, List.lookup_cons, beq_false_of_ne heq, heq]
  known := h.known.set name hvalue
  pending := h.pending

theorem RunM.Keeps.walksFrom {r : Running} {Q : Record → α → Prop} {x : RunM (σ × Chronicle) α}
    {y : RunM σ α} (h : RunM.Keeps e K outer w r Q x y) (hr : r.Of template entry) :
    RunM.WalksFrom e K template entry outer w r Q x y := by
  intro a ha s t hst
  exact (h a ha hst).weaken le_rfl (fun _ _ _ _ _ hend => ⟨r, hr, hend.2.1, hend.1, hend.2.2⟩)
    fun _ _ _ _ hend => ⟨r, hr, hend⟩

namespace Run

variable {x : Surroundings (σ × Chronicle)} {y : Surroundings σ} {index : Nat} {s : Statement}

/-- A statement is reached, and then carried out. -/
theorem reach_walks {Q : Record → α → Prop} {x : RunM (σ × Chronicle) α} {y : RunM σ α}
    (h : ∀ w r, r.Of template entry → r.index = index →
      RunM.WalksFrom e K template entry outer w r Q x y) :
    RunM.Walks e K template entry outer w Q (do reach index; x) y := by
  intro r hr a ha s t hst
  have hle := Record.le_tell .reached (.template (r.reach index) :: outer) w
  have hreached := (hst.change (·.reach index)).tell .reached
  have hfits : a.Fits (w.tell .reached (.template (r.reach index) :: outer)) (r.reach index) :=
    ⟨ha.lookup, (ha.mono hle).known, (ha.mono hle).pending⟩
  have hof : (r.reach index).Of template entry := ⟨hr.template, hr.entry⟩
  exact (h _ _ hof rfl a hfits hreached).weaken hle (fun _ _ _ _ _ => id) fun _ _ _ _ => id

theorem bind_walks (valueName : String) (keyName : Option String) {visit : Value × Value}
    (hvisit : visit.1.Each w.names.Known ∧ visit.2.Each w.names.Known) :
    RunM.Walks e K template entry outer w (fun _ _ => True)
      ((noting x template).bind valueName keyName visit) (bindVisit valueName keyName visit) := by
  intro r hr a ha s t hst
  have hvalue := ha.bind valueName hvisit.2
  have hwritten := hst.change (·.write valueName visit.2)
  cases keyName with
  | none =>
    exact .ok le_rfl ⟨r.write valueName visit.2, ⟨hr.template, hr.entry⟩, hvalue, hwritten, trivial⟩
  | some name =>
    exact .ok le_rfl ⟨(r.write valueName visit.2).write name visit.1, ⟨hr.template, hr.entry⟩,
      hvalue.bind name hvisit.1, hwritten.change (·.write name visit.1), trivial⟩

/-- Where no call waits for it, the text of a block is written under its name. -/
theorem writeBlock_of_no_call {a : Activation} {capture : Capture} {captures : List Capture}
    (hs : s.instruction = .closeBlock) (hcaptures : a.captures = capture :: captures)
    (hpending : a.pending = []) :
    (writeBlock (σ := σ) s).run a = (write capture.name (.string capture.text)).run a := by
  unfold writeBlock
  rw [StateT.run_bind]
  change (pure (a, a) >>= _ : RenderM (σ × Chronicle) _) = _
  rw [pure_bind]
  simp only [hs, hcaptures, hpending]

/-- In all other cases nothing is written. -/
theorem writeBlock_of_not {a : Activation}
    (h : s.instruction = .closeBlock → a.captures = [] ∨ a.pending ≠ []) :
    (writeBlock (σ := σ) s).run a = pure ((), a) := by
  unfold writeBlock
  rw [StateT.run_bind]
  change (pure (a, a) >>= _ : RenderM (σ × Chronicle) _) = _
  rw [pure_bind]
  dsimp only
  split
  · simp_all
  · rfl

theorem closeBlock_of_no_capture {a : Activation} (hcaptures : a.captures = []) :
    (closeBlock (σ := σ)).run a = pure ((), a) := by
  unfold closeBlock
  rw [StateT.run_bind]
  change (pure (a, a) >>= _ : RenderM σ _) = _
  rw [pure_bind]
  simp only [hcaptures]
  rfl

/-- The end of a block writes a name exactly when it is noted. -/
theorem closeBlock_walks (hs : s.instruction = .closeBlock) :
    RunM.Walks e K template entry outer w (fun _ _ => True)
      (do writeBlock s; step x template s) (step y template s) := by
  intro r hr a ha state t hst
  have hstep (τ : Type) (z : Surroundings τ) : step z template s = closeBlock := by
    simp only [step, hs]
  rw [hstep, hstep, StateT.run_bind]
  -- The text of a block is dropped, written under its name, or goes to the call that waits for it.
  rcases hcaptures : a.captures with _ | ⟨capture, captures⟩
  · rw [writeBlock_of_not fun _ => .inl hcaptures, pure_bind, closeBlock_of_no_capture hcaptures,
      closeBlock_of_no_capture hcaptures]
    exact .ok le_rfl ⟨r, hr, ha, hst, trivial⟩
  · rcases hpending : a.pending with _ | ⟨call, calls⟩
    · rw [writeBlock_of_no_call hs hcaptures hpending, closeBlock_of_no_call hcaptures hpending]
      change Comes w _ _ (((closeBlock (σ := σ × Chronicle)).run a).run.run
        (state.withChronicle (·.change (·.write capture.name (.string capture.text))))) _
      rw [closeBlock_of_no_call hcaptures hpending]
      have hbare : { a with captures }.Fits w r := ha.of_eq rfl List.suffix_rfl
      exact .ok le_rfl ⟨r.write capture.name (.string capture.text), ⟨hr.template, hr.entry⟩,
        hbare.bind capture.name (Value.each_string _), (hst.change _).setGlobal _ _, trivial⟩
    · rw [writeBlock_of_not fun _ => .inr (by simp [hpending]), pure_bind,
        closeBlock_of_call hcaptures hpending, closeBlock_of_call hcaptures hpending]
      obtain ⟨hcall, hcalls⟩ := List.forall_mem_cons.mp (hpending ▸ ha.pending)
      refine .ok le_rfl ⟨r, hr, ⟨ha.lookup, ha.known, List.forall_mem_cons.mpr ⟨?_, hcalls⟩⟩, hst,
        trivial⟩
      rw [Pending.data_setData]
      exact hcall.set capture.name (Value.each_string _)

variable (h : x.Carries e K template outer y)
include h

theorem step_walks (hs : template.statements[index]? = some s) :
    RunM.Walks e K template entry outer w (fun _ _ => True) ((noting x template).step index s)
      (step y template s) := by
  refine reach_walks fun w r hr hindex => ?_
  -- Besides loops, only the end of a block writes a name.
  by_cases hblock : s.instruction = .closeBlock
  · exact closeBlock_walks hblock r hr
  · refine RunM.Keeps.walksFrom (fun a ha => ?_) hr
    obtain ⟨rfl, rfl⟩ := hr
    subst hindex
    rw [StateT.run_bind, writeBlock_of_not fun hs => absurd hs hblock, pure_bind]
    exact step_keeps h hs hblock a ha

theorem value_walks (hs : template.statements[index]? = some s) (expr : Expr) :
    RunM.Walks e K template entry outer w (fun _ _ => True)
      ((noting x template).value index s expr) (eval y template s expr) := by
  refine reach_walks fun w r hr hindex => RunM.Keeps.walksFrom ?_ hr
  obtain ⟨rfl, rfl⟩ := hr
  subst hindex
  exact (eval_keeps h hs expr).mono fun _ _ _ => trivial

theorem condition_walks (hs : template.statements[index]? = some s) (condition : Condition) :
    RunM.Walks e K template entry outer w (fun _ _ => True)
      ((noting x template).test index s condition) (test y template s condition) := by
  refine reach_walks fun w r hr hindex => RunM.Keeps.walksFrom ?_ hr
  obtain ⟨rfl, rfl⟩ := hr
  subst hindex
  exact test_keeps h hs condition

theorem visits_walks (hs : template.statements[index]? = some s) (kind : LoopKind)
    (source : Expr) :
    RunM.Walks e K template entry outer w
      (fun w' visits => ∀ visit ∈ visits, visit.1.Each w'.names.Known ∧ visit.2.Each w'.names.Known)
      ((noting x template).visits index s kind source) (loopVisits y template s kind source) := by
  refine reach_walks fun w r hr hindex => RunM.Keeps.walksFrom ?_ hr
  obtain ⟨rfl, rfl⟩ := hr
  subst hindex
  exact loopVisits_keeps h hs kind source

theorem choose_walks (index : Nat) :
    ∀ w, RunM.Walks e K template entry outer w (fun _ _ => True)
      (chooseWith (noting x template) template index) (chooseBranch y template index) := by
  fun_induction chooseBranch y template index with
  | case1 index s hs test next stop hi ih =>
    intro w
    rw [chooseWith_of_getElem? _ hs, hi]
    refine (value_walks h hs test).bind fun w' _ value _ => ?_
    split
    · exact RunM.Walks.pure trivial
    · split
      · rename_i hlt
        exact ih hlt w'
      · exact RunM.Walks.pure trivial
  | case2 index s hs hi =>
    intro w
    rw [chooseWith_of_getElem? _ hs]
    split
    · rename_i test next stop heq
      exact (hi test next stop heq).elim
    · exact RunM.Walks.pure trivial
  | case3 index hs =>
    intro w
    rw [chooseWith]
    split
    · rename_i s hs'
      simp [hs] at hs'
    · exact RunM.Walks.pure trivial

theorem walk_walks (index stop : Nat) :
    ∀ w, RunM.Walks e K template entry outer w (fun _ _ => True)
      (walk (noting x template) template index stop) (exec y template index stop) := by
  fun_induction exec y template index stop with
  | case1 index stop hlt hs =>
    intro w
    rw [walk, if_pos hlt]
    split
    · exact RunM.Walks.pure trivial
    · rename_i s hs'
      simp [hs] at hs'
  | case2 index stop hlt s hs condition next hi ih =>
    intro w
    rw [walk_of_getElem? _ hs hlt, hi]
    have hjump (target : Nat) (w : Record) := RunM.Walks.guarded (ih target · w)
    have hnext (w : Record) : RunM.Walks (σ := σ) e K template entry outer w (fun _ _ => True)
        (pure (index + 1)) (pure (index + 1)) := RunM.Walks.pure trivial
    refine (condition_walks h hs condition).bind fun w₁ _ holds _ => ?_
    cases holds with
    | true => exact (hnext w₁).bind fun w₂ _ target _ => hjump target w₂
    | false =>
      cases next with
      | none => exact (hnext w₁).bind fun w₂ _ target _ => hjump target w₂
      | some next => exact (choose_walks h next w₁).bind fun w₂ _ target _ => hjump target w₂
  | case3 index stop hlt s hs test next target hi hjump ih =>
    intro w
    rw [walk_of_getElem? _ hs hlt, hi]
    simp only [if_pos hjump]
    exact ih w
  | case4 index stop hlt s hs test next target hi hjump =>
    intro w
    rw [walk_of_getElem? _ hs hlt, hi]
    simp only [if_neg hjump]
    exact RunM.Walks.pure trivial
  | case5 index stop hlt s hs target hi hjump ih =>
    intro w
    rw [walk_of_getElem? _ hs hlt, hi]
    simp only [if_pos hjump]
    exact ih w
  | case6 index stop hlt s hs target hi hjump =>
    intro w
    rw [walk_of_getElem? _ hs hlt, hi]
    simp only [if_neg hjump]
    exact RunM.Walks.pure trivial
  | case7 index stop hlt s hs kind valueName keyName source target hi ihbody ih =>
    intro w
    rw [walk_of_getElem? _ hs hlt, hi]
    refine (bind_loopVisits y template s kind source _) ▸ ?_
    refine (visits_walks h hs kind source).bind fun w₁ _ found hfound => ?_
    refine RunM.Walks.bind (RunM.Walks.forM (P := fun w visit =>
      visit.1.Each w.names.Known ∧ visit.2.Each w.names.Known) ?_ (fun w₂ visit hvisit => ?_)
        hfound)
      fun w₃ _ _ _ => RunM.Walks.guarded fun hjump => ih hjump w₃
    · intro w w' visit hw hvisit
      exact ⟨hvisit.1.mono fun _ => CallHistory.Known.mono hw.2,
        hvisit.2.mono fun _ => CallHistory.Known.mono hw.2⟩
    · exact (bind_walks valueName keyName hvisit).bind fun w₃ _ _ _ => ihbody w₃
  | case8 index stop hlt s hs h1 h2 h3 h4 ih =>
    intro w
    rw [walk_of_getElem? _ hs hlt]
    split
    · rename_i condition next heq
      exact (h1 condition next heq).elim
    · rename_i test next target heq
      exact (h2 test next target heq).elim
    · rename_i target heq
      exact (h3 target heq).elim
    · rename_i kind valueName keyName source target heq
      exact (h4 kind valueName keyName source target heq).elim
    -- every other statement leads to the next one
    · exact (step_walks h hs).bind fun w₁ _ _ _ => ih w₁
  | case9 index stop hlt =>
    intro w
    rw [walk, if_neg hlt]
    exact RunM.Walks.pure trivial

end Run

end Walking

end Templating
