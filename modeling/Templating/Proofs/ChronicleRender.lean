import Templating.Proofs.ChronicleRun

/-!
Renders beside their chronicles.
-/
namespace Templating

open RenderState

variable {σ α β : Type} {e : Engine} {K : Premises σ} {stack : List Layer} {w : Record}

theorem Context.Each.flatten {P : Function → Prop} {c : Context} (h : c.Each P) :
    Members.Each P c.flatten := by
  obtain ⟨hglobals, hframes⟩ := h
  unfold Context.flatten
  generalize c.frames = frames at hframes
  induction frames with
  | nil => exact hglobals
  | cons frame frames ih =>
    obtain ⟨hframe, hrest⟩ := List.forall_mem_cons.mp hframes
    exact (ih hrest).setAll hframe

/-- A run begins with the names of its context. -/
theorem Activation.fits_flatten {template : Template} {c : Context} (h : c.Each w.names.Known) :
    Activation.Fits w { template, entry := c } { names := c.flatten } where
  lookup name := c.lookup_flatten name
  known := h.flatten
  pending := nofun

section Layers

/-- What is on record between two scenes comes after what was before them. -/
theorem Record.between {w' : Record} {first last : Happening} {layers layers' : List Layer}
    (h : w.tell first layers ≤ w') : w ≤ w'.tell last layers' :=
  (Record.le_tell first layers w).trans (h.trans (Record.le_tell last layers' w'))

theorem RenderM.run_during (layer : RenderState (σ × Chronicle) → Layer)
    (x : RenderM (σ × Chronicle) α) (s : RenderState (σ × Chronicle)) :
    (RenderM.during layer x).run.run s =
      let p := x.run.run (s.push (layer s))
      (p.1, p.2.pop (failure? p.1)) := rfl

variable {s : RenderState (σ × Chronicle)} {t : RenderState σ} {layer : Layer}
  {f : Context → Context}

/-- A layer begins in a context of its depth. -/
theorem Tells.enter (h : Tells K stack w s t) (layer : Layer)
    (hdepth : (f t.context).depth = Layer.depth (layer :: stack))
    (hknown : (f t.context).Each w.names.Known) :
    Tells K (layer :: stack) (w.tell .begun (layer :: stack))
      (push layer { s with context := f s.context }) { t with context := f t.context } := by
  have hlayered : Tells K (layer :: stack) w
      (withChronicle (fun c => { c with layers := layer :: c.layers })
        { s with context := f s.context }) { t with context := f t.context } :=
    { context := congrArg f h.context
      identity := h.identity
      cache := h.cache
      layers := congrArg (layer :: ·) h.layers
      record := h.record
      depth := hdepth
      kept := h.kept
      sound := h.sound
      known := hknown }
  exact hlayered.tell .begun

/-- The innermost layer is left for a context of the depth outside. -/
theorem Tells.leave (h : Tells K (layer :: stack) w s t) (failure : Option Failure)
    (hdepth : (f t.context).depth = Layer.depth stack)
    (hknown : (f t.context).Each w.names.Known) :
    Tells K stack (w.tell (.left failure) (layer :: stack))
      { s.pop failure with context := f s.context } { t with context := f t.context } where
  context := congrArg f h.context
  identity := h.identity
  cache := h.cache
  layers := congrArg List.tail (h.tell (.left failure)).layers
  record := (h.tell (.left failure)).record
  depth := hdepth
  kept := h.kept
  sound := h.sound
  known := hknown

/-- A layer that is left with a failure hands it on as it is. -/
theorem Fails.leave {failure : Failure} (h : Fails e K (layer :: stack) w failure s t)
    (hdepth : (f t.context).depth = Layer.depth stack)
    (hknown : (f t.context).Each w.names.Known) :
    Fails e K stack (w.tell (.left (some failure)) (layer :: stack)) failure
      { s.pop (some failure) with context := f s.context } { t with context := f t.context } :=
  ⟨h.1.leave (some failure) hdepth hknown, fun hfollowed => .left (h.2 hfollowed)⟩

end Layers

/-- More has become known of names. -/
theorem Tells.names (h : Tells K stack w s t) {names : CallHistory Running}
    (hle : w.names ≤ names) (hsound : names.Sound Running.lookup) :
    Tells K stack { w with names } (s.withChronicle ({ · with record.names := names })) t where
  context := h.context
  identity := h.identity
  cache := h.cache
  layers := h.layers
  record := by
    rw [← h.record]
    rfl
  depth := h.depth
  kept := h.kept
  sound := hsound
  known := h.known.mono fun _ => CallHistory.Known.mono hle

section Evaluated

variable {names : Env} {expr : Expr} {s : RenderState (σ × Chronicle)} {r : Running}
  {outer : List Layer} {final : EvalState (CallLog Running)}

theorem Engine.run_evaluateNoted_error {error : EvalError}
    (hlayers : s.chronicle.layers = .template r :: outer)
    (h : expr.evaluateNoting e.host r s.chronicle.record.names names s.engine.identity =
      (.error error, final)) :
    (e.evaluateNoted names expr).run.run s =
      (.ok (.error error), (s.withChronicle ({ · with record.names := final.store.history })).tell
        (.evaluated (.error error))) := by
  unfold evaluateNoted
  rw [RenderM.run_get_bind, hlayers]
  dsimp only
  rw [h]
  rfl

theorem Engine.run_evaluateNoted_ok {v : Value}
    (hlayers : s.chronicle.layers = .template r :: outer)
    (h : expr.evaluateNoting e.host r s.chronicle.record.names names s.engine.identity =
      (.ok v, final)) :
    (e.evaluateNoted names expr).run.run s =
      let noted := (s.withChronicle ({ · with record.names := final.store.history })).tell
        (.evaluated (.ok v))
      (.ok (.ok v), { noted with engine := { noted.engine with identity := final.identity } }) := by
  unfold evaluateNoted
  rw [RenderM.run_get_bind, hlayers]
  dsimp only
  rw [h]
  rfl

theorem Engine.evaluateNoted_carries (hlookup : ∀ name, names.lookup name = r.lookup name)
    (hnames : Members.Each w.names.Known names) :
    RenderM.Carries e K (.template r :: outer) w
      (fun w' outcome => w'.Evaluated (.template r :: outer) outcome ∧
        ∀ v, outcome = .ok v → v.Each w'.names.Known)
      (e.evaluateNoted names expr) (RenderM.evaluate e.host names expr) := by
  intro s t hst
  have heval := evaluateNoting_names e.host expr t.engine.identity hst.sound hnames hlookup
  rcases hp : expr.evaluateNoting e.host r w.names names t.engine.identity with ⟨outcome, final⟩
  rw [hp] at heval
  obtain ⟨heq, hle, hsound, hknown⟩ := heval
  rw [← hst.record, ← hst.identity] at hp
  have hnoted := (hst.names hle hsound).tell (.evaluated outcome)
  have hw : w ≤ Record.tell (.evaluated outcome) (.template r :: outer)
      { w with names := final.store.history } := ⟨List.suffix_cons _ _, hle⟩
  have hplain : (expr.evaluate e.host names).run t.engine.identity =
      outcome.map (fun v => (v, final.identity)) := heq
  rw [RenderM.run_evaluate, hplain]
  cases outcome with
  | error error =>
    rw [e.run_evaluateNoted_error hst.layers hp]
    exact .ok hw ⟨hnoted, ⟨_, _, rfl⟩, hknown⟩
  | ok v =>
    rw [e.run_evaluateNoted_ok hst.layers hp]
    exact .ok hw ⟨{ hnoted with identity := rfl }, ⟨_, _, rfl⟩, hknown⟩

end Evaluated

section Templates

variable {template : Template} {x : Surroundings (σ × Chronicle)} {y : Surroundings σ}
  (h : x.Carries e K template stack y)
include h

theorem Run.textNoted_comes {s : RenderState (σ × Chronicle)} {t : RenderState σ}
    (hst : Tells K (.template { template, entry := t.context } :: stack) w s t) :
    Comes w (fun w' _ s t => ∃ r : Running, Tells K (.template r :: stack) w' s t)
      (fun w' failure s t => ∃ r : Running, Fails e K (.template r :: stack) w' failure s t)
      ((textNoted x template).run.run s) ((text y template).run.run t) := by
  unfold textNoted text
  rw [RenderM.run_get_bind, RenderM.run_get_bind, hst.context]
  dsimp only
  have hwalk := walk_walks h 0 template.statements.length w _ ⟨rfl, rfl⟩ _
    (Activation.fits_flatten hst.known) hst
  rcases hx : ((walk (noting x template) template 0 template.statements.length).run
    { names := t.context.flatten }).run.run s with ⟨outcome, s'⟩
  rcases hy : ((exec y template 0 template.statements.length).run
    { names := t.context.flatten }).run.run t with ⟨outcome', t'⟩
  rw [hx, hy] at hwalk
  cases hwalk with
  | ok hw h =>
    obtain ⟨r, -, -, htells, -⟩ := h
    rw [run_bind_ok hx, run_bind_ok hy]
    exact .ok hw ⟨r, htells⟩
  | error hw h =>
    obtain ⟨r, -, hfails⟩ := h
    rw [run_bind_error hx, run_bind_error hy]
    exact .error hw ⟨r, hfails⟩

/-- A template is run as a further layer, one level deeper. -/
theorem Run.textNoted_carries :
    RenderM.Carries e K stack w (fun _ _ => True)
      (RenderM.around (fun c => { c with depth := c.depth + 1 })
        (fun c => { c with depth := c.depth - 1 }) do
          let entry := (← get).context
          RenderM.during (fun _ => .template { template, entry }) (textNoted x template))
      (RenderM.around (fun c => { c with depth := c.depth + 1 })
        (fun c => { c with depth := c.depth - 1 }) (text y template)) := by
  intro s t hst
  have hbegun := hst.enter (f := fun c => { c with depth := c.depth + 1 })
    (.template { template, entry := { t.context with depth := t.context.depth + 1 } })
    (congrArg (· + 1) hst.depth) ⟨hst.known.globals, hst.known.frames⟩
  have htext := textNoted_comes h
    (t := { t with context := { t.context with depth := t.context.depth + 1 } }) hbegun
  have hbelow {w : Record} {r : Running} {s : RenderState (σ × Chronicle)} {t : RenderState σ}
      (h : Tells K (.template r :: stack) w s t) : t.context.depth - 1 = Layer.depth stack := by
    rw [h.depth]
    rfl
  rw [RenderM.run_around, RenderM.run_around, RenderM.run_get_bind, RenderM.run_during]
  dsimp only
  rw [hst.context] at htext ⊢
  generalize (textNoted x template).run.run _ = p at htext ⊢
  generalize (text y template).run.run _ = q at htext ⊢
  -- In both cases the layer is left at the depth outside, with a failure if there was one.
  let back (c : Context) : Context := { c with depth := c.depth - 1 }
  cases htext with
  | ok hw h =>
    obtain ⟨r, htells⟩ := h
    have hleft := htells.leave (f := back) none (hbelow htells)
      ⟨htells.known.globals, htells.known.frames⟩
    exact .ok (Record.between hw) ⟨hleft, trivial⟩
  | error hw h =>
    obtain ⟨r, hfails⟩ := h
    have hleft := hfails.leave (f := back) (hbelow hfails.1)
      ⟨hfails.1.known.globals, hfails.1.known.frames⟩
    exact .error (Record.between hw) hleft

end Templates

/-- What may be asked for inside these layers: templates ask for paths as written in them, tags and
the host for entries. -/
inductive Premises.Asks (K : Premises σ) : List Layer → Request → Prop
  | template {r : Running} {outer : List Layer} (hpath : K.followed → r.template.path ≠ "")
    (path : String) : Asks K (.template r :: outer) (.path path r.template.path)
  | entry {layers : List Layer} (hlayers : ∀ r outer, layers ≠ .template r :: outer)
    (path : String) {referencing : String} (hreferencing : K.followed → referencing = "") :
    Asks K layers (.path path referencing)
  | inline {layers : List Layer} (hlayers : ∀ r outer, layers ≠ .template r :: outer)
    (source : String) : Asks K layers (.inline source)

/-- The host asks for entries. -/
theorem Premises.asks_host {request : Request}
    (h : K.followed → ∀ path referencing, request = .path path referencing → referencing = "") :
    K.Asks [] request := by
  have hhost (r : Running) (outer : List Layer) : [] ≠ .template r :: outer :=
    (List.cons_ne_nil _ _).symm
  cases request with
  | path path referencing => exact .entry hhost path fun hf => h hf path referencing rfl
  | inline source => exact .inline hhost source

/-- Templates come from what can be compiled, and tags hand on only what they were given. -/
structure Premises.Hold (K : Premises σ) (e : Engine) (load : Loader σ) : Prop where
  tags : K.followed → e.TagsPassOn
  kept : ∀ request c, K.kept c → K.kept ((load request).run.run c).2
  named : K.followed → ∀ request c template, K.kept c →
    ((load request).run.run c).1 = .ok template → template.path ≠ ""
  failing : K.followed → ∀ request c failure, K.kept c →
    ((load request).run.run c).1 = .error failure → e.compileRequest request = .error failure

def Record.Asked (w : Record) (stack : List Layer) (request : Request) : Prop :=
  ∃ earlier, w.scenes = ⟨.asked request, stack, Layer.depth stack⟩ :: earlier

theorem Engine.referrer_of_ne {path : String} (h : path ≠ "") : Engine.referrer path = path := by
  unfold referrer
  rw [if_neg]
  rwa [String.isEmpty_iff]

theorem Scene.raises_of_compileAt {path referencing : String} {failure : Failure}
    (hasks : K.Asks stack (.path path referencing)) (hfollowed : K.followed) (depth : Nat)
    (h : e.compileAt (e.resolve path referencing) referencing = .error failure) :
    Scene.Raises e ⟨.asked (.path path referencing), stack, depth⟩ failure := by
  have hinvalid (error : SyntaxError) (heq : failure = .invalid error) :
      Scene.Raises e ⟨.asked (.path path referencing), stack, depth⟩ failure :=
    heq ▸ .invalid (heq ▸ h)
  unfold Engine.compileAt at h
  cases htext : e.source.text (e.resolve path referencing) with
  | none =>
    simp only [htext, Except.error.injEq] at h
    subst h
    cases hasks with
    | template hpath =>
      rw [Engine.referrer_of_ne (hpath hfollowed)]
      exact .missing htext
    | entry hlayers path hreferencing =>
      obtain rfl := hreferencing hfollowed
      exact .missingEntry hlayers htext
  | some text =>
    simp only [htext] at h
    cases hcompile : Template.compile e.grammar (e.resolve path referencing) text with
    | ok template => simp [hcompile] at h
    | error error =>
      simp only [hcompile, Except.error.injEq] at h
      exact hinvalid error h.symm

theorem Scene.raises_of_compileRequest {request : Request} {failure : Failure}
    (hasks : K.Asks stack request) (hfollowed : K.followed) (depth : Nat)
    (h : e.compileRequest request = .error failure) :
    Scene.Raises e ⟨.asked request, stack, depth⟩ failure := by
  cases request with
  | path path referencing => exact raises_of_compileAt hasks hfollowed depth h
  | inline source =>
    have hcompile := h
    unfold Engine.compileRequest Engine.compileInline at h
    cases htemplate : Template.compile e.grammar e.inlinePath source with
    | ok template => simp [htemplate] at h
    | error error =>
      simp only [htemplate, Except.error.injEq] at h
      subst h
      exact .invalid hcompile

theorem Record.Asked.unwinds {request : Request} {failure : Failure} (h : w.Asked stack request)
    (hraises : Scene.Raises e ⟨.asked request, stack, Layer.depth stack⟩ failure) :
    Unwinds e failure stack w.scenes := by
  obtain ⟨earlier, hscenes⟩ := h
  rw [hscenes]
  exact .raised hraises

section Loading

variable {load : Loader σ} {request : Request} (hold : K.Hold e load)
  (hasks : K.Asks stack request) (hasked : w.Asked stack request)
include hold hasks hasked

theorem RenderM.ofStore_carries :
    RenderM.Carries e K stack w (fun _ template => K.followed → template.path ≠ "")
      (RenderM.ofStore (load request)).beside (RenderM.ofStore (load request)) := by
  intro s t hst
  have hcache := hst.cache
  have hkept := hold.kept request t.engine.cache hst.kept
  have hloaded {c : σ} {r : Except Failure Template}
      (h : (load request).run.run t.engine.cache = (r, c)) :
      Tells K stack w
        { s with engine := { s.engine with cache := (c, s.engine.cache.2) } }
        { t with engine := { t.engine with cache := c } } :=
    { hst with
      cache := rfl
      kept := by simpa only [h] using hkept }
  have hrun (t : RenderState σ) : (RenderM.ofStore (load request)).run.run t =
      (((load request).run.run t.engine.cache).1,
        { t with engine :=
          { t.engine with cache := ((load request).run.run t.engine.cache).2 } }) := rfl
  have hbeside : (RenderM.beside (μ := Chronicle) (RenderM.ofStore (load request))).run.run s =
      (((load request).run.run s.engine.cache.1).1,
        { s with engine := { s.engine with
          cache := (((load request).run.run s.engine.cache.1).2, s.engine.cache.2) } }) := rfl
  rw [hrun, hbeside, hcache]
  rcases hresult : (load request).run.run t.engine.cache with ⟨failure | template, c⟩
  · refine .error le_rfl ⟨hloaded hresult, fun hfollowed => hasked.unwinds ?_⟩
    exact Scene.raises_of_compileRequest hasks hfollowed _
      (hold.failing hfollowed request _ _ hst.kept (congrArg Prod.fst hresult))
  · exact .ok le_rfl ⟨hloaded hresult, fun hfollowed =>
      hold.named hfollowed request _ _ hst.kept (congrArg Prod.fst hresult)⟩

/-- One activation, at the limit or below it. -/
theorem Engine.activation_carries (run : Template → RenderM (σ × Chronicle) String)
    (run' : Template → RenderM σ String)
    (hrun : Layer.depth stack < e.config.maxDepth → ∀ template,
      (K.followed → template.path ≠ "") → ∀ w, RenderM.Carries e K stack w (fun _ _ => True)
        (RenderM.around (fun c => { c with depth := c.depth + 1 })
          (fun c => { c with depth := c.depth - 1 }) (run template))
        (RenderM.around (fun c => { c with depth := c.depth + 1 })
          (fun c => { c with depth := c.depth - 1 }) (run' template))) :
    RenderM.Carries e K stack w (fun _ _ => True)
      (e.activation (e.requestPath request) (RenderM.ofStore (load request)).beside run)
      (e.activation (e.requestPath request) (RenderM.ofStore (load request)) run') := by
  intro s t hst
  by_cases hdeep : e.config.maxDepth ≤ t.context.depth
  · rw [e.activation_of_deep _ _ _ hdeep, e.activation_of_deep _ _ _ (hst.context ▸ hdeep)]
    exact .error le_rfl ⟨hst, fun _ => hasked.unwinds (.deep (hst.depth ▸ hdeep))⟩
  · have hlt : t.context.depth < e.config.maxDepth := Nat.lt_of_not_le hdeep
    rw [e.activation_of_lt _ _ _ hlt, e.activation_of_lt _ _ _ (hst.context ▸ hlt)]
    have hload := RenderM.ofStore_carries hold hasks hasked
    exact hload.bind (fun w' _ template hpath => hrun (hst.depth ▸ hlt) template hpath w') hst

end Loading

def Renders (e : Engine) (K : Premises σ) (stack : List Layer)
    (render : Request → RenderM (σ × Chronicle) String) (render' : Request → RenderM σ String) :
    Prop :=
  ∀ ⦃w request⦄, K.Asks stack request → w.Asked stack request →
    ∀ ⦃s t⦄, Tells K stack w (Engine.ask request s) t →
      Comes w (fun w' _ s t => Tells K stack w' s t) (Fails e K stack)
        ((render request).run.run s) ((render' request).run.run t)

theorem Engine.ask_of_template {request : Request} {s : RenderState (σ × Chronicle)} {r : Running}
    {outer : List Layer} (h : s.chronicle.layers = .template r :: outer) :
    Engine.ask request s = s.tell (.asked request) := by
  have hlayers : (s.tell (.asked request)).chronicle.layers = .template r :: outer := h
  simp only [ask, hlayers]

theorem Engine.ask_of_host {request : Request} {s : RenderState (σ × Chronicle)}
    (h : ∀ r outer, s.chronicle.layers ≠ .template r :: outer) :
    Engine.ask request s = (s.tell (.asked request)).withChronicle fun c =>
      { c with record.names.given :=
          s.context.frames.flatMap (·.map (·.2)) ++ c.record.names.given } := by
  simp only [ask]
  split
  · rename_i r outer hlayers
    exact absurd hlayers (h r outer)
  · rfl

/-- The host gives the data with which it or a tag asks for something. -/
theorem Tells.ask {s : RenderState (σ × Chronicle)} {t : RenderState σ} (h : Tells K stack w s t)
    (hstack : ∀ r outer, stack ≠ .template r :: outer) (request : Request) (data : Members) :
    ∃ w', w ≤ w' ∧ w'.Asked stack request ∧
      Tells K stack w'
        (Engine.ask request { s with context := .ofData data (Layer.depth stack) })
        { t with context := .ofData data (Layer.depth stack) } := by
  obtain rfl := h.layers
  obtain rfl := h.record
  let context : Context := .ofData data (Layer.depth s.chronicle.layers)
  let given := context.frames.flatMap (·.map (·.2)) ++ s.chronicle.record.names.given
  have hgiven : s.chronicle.record.names.given <:+ given := List.suffix_append _ _
  let w' : Record :=
    { s.chronicle.record.tell (.asked request) s.chronicle.layers with names.given := given }
  have hw : s.chronicle.record ≤ w' := ⟨List.suffix_cons _ _, List.suffix_rfl, hgiven⟩
  refine ⟨w', hw, ⟨_, rfl⟩, ?_⟩
  rw [Engine.ask_of_host (s := { s with context }) hstack]
  exact
    { context := rfl
      identity := h.identity
      cache := h.cache
      layers := h.layers
      record := rfl
      depth := rfl
      kept := h.kept
      sound := h.sound.mono hgiven
      known := by
        refine ⟨Members.each_nil, ?_⟩
        rintro frame hframe m hm
        refine CallHistory.known_given (List.mem_append_left _ ?_)
        exact List.mem_flatMap.mpr ⟨frame, hframe, List.mem_map.mpr ⟨m, hm, rfl⟩⟩ }

section Rendering

variable {render : Request → RenderM (σ × Chronicle) String} {render' : Request → RenderM σ String}

/-- Templates ask for others in the context in which they are run. -/
theorem Renders.carries {r : Running} {outer : List Layer}
    (h : Renders e K (.template r :: outer) render render')
    (hpath : K.followed → r.template.path ≠ "") (path : String) :
    RenderM.Carries e K (.template r :: outer) w (fun _ _ => True)
      (render (.path path r.template.path)) (render' (.path path r.template.path)) := by
  intro s t hst
  have hasked := hst.tell (.asked (.path path r.template.path))
  rw [← Engine.ask_of_template hst.layers] at hasked
  exact (h (.template hpath path) ⟨_, rfl⟩ hasked).weaken (Record.le_tell _ _ _)
    (fun _ _ _ _ _ htells => ⟨htells, trivial⟩) fun _ _ _ _ => id

/-- Tags ask in contexts of their own, and receive the failures. -/
theorem Renders.within (h : Renders e K stack render render')
    (hstack : ∀ r outer, stack ≠ .template r :: outer) {request : Request}
    (hasks : K.Asks stack request) (data : Members) :
    RenderM.Carries e K stack w
      (fun w' result => ∀ failure, result = .error failure → K.followed →
        Unwinds e failure stack w'.scenes)
      (RenderM.attempt (RenderM.within (.ofData data (Layer.depth stack)) (render request)))
      (RenderM.attempt (RenderM.within (.ofData data (Layer.depth stack)) (render' request))) := by
  intro s t hst
  obtain ⟨w', hw, hasked, htells⟩ := hst.ask hstack request data
  have hcomes := h hasks hasked htells
  have hrun (τ : Type) (x : RenderM τ String) (s : RenderState τ) (c : Context) :
      (RenderM.attempt (RenderM.within c x)).run.run s =
        let p := x.run.run { s with context := c }
        (.ok p.1, { p.2 with context := s.context }) := rfl
  have hback {w'' : Record} {s' : RenderState (σ × Chronicle)} {t' : RenderState σ} (hle : w ≤ w'')
      (h : Tells K stack w'' s' t') :
      Tells K stack w'' { s' with context := s.context } { t' with context := t.context } := by
    rw [hst.context]
    exact h.withContext hst.depth (hst.known.mono fun _ => CallHistory.Known.mono hle.2)
  rw [hrun, hrun]
  dsimp only
  generalize (render request).run.run _ = p at hcomes ⊢
  generalize (render' request).run.run _ = q at hcomes ⊢
  cases hcomes with
  | ok hw' htells => exact .ok (hw.trans hw') ⟨hback (hw.trans hw') htells, nofun⟩
  | error hw' hfails =>
    refine .ok (hw.trans hw') ⟨hback (hw.trans hw') hfails.1, ?_⟩
    rintro _ ⟨⟩
    exact hfails.2

variable (e K stack) in
/-- The failure has come to these layers at some time. -/
def Record.Traces (w : Record) (failure : Failure) : Prop :=
  K.followed → ∃ earlier, earlier <:+ w.scenes ∧ Unwinds e failure stack earlier

theorem Record.Traces.mono {w' : Record} {failure : Failure} (h : w.Traces e K stack failure)
    (hw : w ≤ w') : w'.Traces e K stack failure := by
  intro hfollowed
  obtain ⟨earlier, hearlier, hunwinds⟩ := h hfollowed
  exact ⟨earlier, hearlier.trans hw.1, hunwinds⟩

variable (e K stack render render') in
/-- What is received has come to the tag, and so does what it hands on. -/
def TagAction.Performs (action : TagAction) : Prop :=
  ∀ (w : Record) (received : List Failure), (K.followed → action.PassesOn received) →
    (∀ failure ∈ received, w.Traces e K stack failure) →
    RenderM.Carries e K stack w
      (fun w' result => ∀ f, result = .error (.handedOn f) → w'.Traces e K stack f)
      (action.perform e render (Layer.depth stack)) (action.perform e render' (Layer.depth stack))

/-- A tag asks for something, and goes on with what it receives. -/
theorem TagAction.perform_asked (h : Renders e K stack render render')
    (hstack : ∀ r outer, stack ≠ .template r :: outer) {request : Request}
    (hasks : K.Asks stack request) (data : Members) {next : Except Failure String → TagAction}
    (hnext : ∀ outcome, (next outcome).Performs e K stack render render') {received : List Failure}
    (hpasses : K.followed → (∀ text, (next (.ok text)).PassesOn received) ∧
      ∀ failure, (next (.error failure)).PassesOn (failure :: received))
    (hreceived : ∀ failure ∈ received, w.Traces e K stack failure) :
    RenderM.Carries e K stack w
      (fun w' result => ∀ f, result = .error (.handedOn f) → w'.Traces e K stack f)
      (do
        let outcome ← RenderM.attempt
          (RenderM.within (.ofData data (Layer.depth stack)) (render request))
        (next outcome).perform e render (Layer.depth stack))
      (do
        let outcome ← RenderM.attempt
          (RenderM.within (.ofData data (Layer.depth stack)) (render' request))
        (next outcome).perform e render' (Layer.depth stack)) := by
  refine (h.within hstack hasks data).bind fun w' hw outcome houtcome => ?_
  -- What was received before this has come to the layer at an earlier time.
  have hstill : ∀ failure ∈ received, w'.Traces e K stack failure :=
    fun failure hfailure => (hreceived failure hfailure).mono hw
  cases outcome with
  | ok text => exact hnext (.ok text) w' received (fun hf => (hpasses hf).1 text) hstill
  | error failure =>
    refine hnext (.error failure) w' (failure :: received) (fun hf => (hpasses hf).2 failure)
      (List.forall_mem_cons.mpr ⟨fun hf => ?_, hstill⟩)
    exact ⟨_, List.suffix_rfl, houtcome failure rfl hf⟩

theorem TagAction.performs (h : Renders e K stack render render')
    (hstack : ∀ r outer, stack ≠ .template r :: outer) (action : TagAction) :
    action.Performs e K stack render render' := by
  induction action with
  | finish result =>
    intro w received hpasses hreceived
    refine RenderM.Carries.pure fun failure hresult hf => hreceived failure ?_ hf
    exact hpasses hf failure hresult
  | render path data next ih =>
    intro w received hpasses hreceived
    exact perform_asked h hstack (.entry hstack _ fun _ => rfl) data.members ih hpasses hreceived
  | renderText source data next ih =>
    intro w received hpasses hreceived
    exact perform_asked h hstack (.inline hstack _) data.members ih hpasses hreceived

section Calls

theorem RenderM.Carries.ofExcept {x : Except Failure α}
    (h : ∀ failure, x = .error failure → Unwinds e failure stack w.scenes) :
    RenderM.Carries (σ := σ) e K stack w (fun _ _ => True) (liftM x) (liftM x) := by
  cases x with
  | ok a => exact RenderM.Carries.pure trivial
  | error failure => exact RenderM.Carries.throw (h failure rfl)

/-- Both give out the same number. -/
theorem RenderM.Carries.identity :
    RenderM.Carries (σ := σ) e K stack w (fun _ _ => True)
      (modifyGet fun s => (s.engine.identity,
        { s with engine := { s.engine with identity := s.engine.identity + 1 } }))
      (modifyGet fun s => (s.engine.identity,
        { s with engine := { s.engine with identity := s.engine.identity + 1 } })) := by
  intro s t hst
  change Comes w _ _ (.ok s.engine.identity, _) (.ok t.engine.identity, _)
  rw [hst.identity]
  exact .ok le_rfl ⟨{ hst with identity := rfl }, trivial⟩

variable {r : Running} {outer : List Layer} {s : Statement} {name : String} {since : Nat}
  {site : CallSite}

/-- The call is made by the statement that the template has come to. -/
structure CallSite.IsOf (site : CallSite) (r : Running) (s : Statement) : Prop where
  statement : r.template.statements[r.index]? = some s
  path : site.path = r.template.path
  line : site.line = s.line
  directive : site.directive = s.directive

/-- A call of a tag begins with its first argument, which may have to be a path. -/
theorem Engine.tagAction_carries (first : Value) (data : Members)
    (htags : K.followed → e.TagsPassOn) (hsite : site.IsOf r s)
    (hbegun : ∃ depth earlier, w.scenes =
      ⟨.begun, .tag name first site since :: .template r :: outer, depth⟩ :: earlier) :
    RenderM.Carries e K (.tag name first site since :: .template r :: outer) w
      (fun _ action => K.followed → action.PassesOn [])
      (e.tagAction (σ := σ × Chronicle) name first data site)
      (e.tagAction (σ := σ) name first data site) := by
  have hraised {failure : Failure} (h : ∀ depth, Scene.Raises e
      ⟨.begun, .tag name first site since :: .template r :: outer, depth⟩ failure) :
      Unwinds e failure (.tag name first site since :: .template r :: outer) w.scenes := by
    obtain ⟨depth, earlier, hscenes⟩ := hbegun
    rw [hscenes]
    exact .raised (h depth)
  unfold tagAction
  cases htag : e.tags.get? name with
  | none => exact RenderM.Carries.throw (hraised fun _ => .unknownTag htag)
  | some tag =>
    refine (RenderM.Carries.ofExcept fun failure hfailure => hraised fun _ => ?_).bind
      fun w₁ _ first _ => RenderM.Carries.identity.bind
        fun w₂ _ identity _ => RenderM.Carries.pure fun hf => htags hf name tag htag _
    unfold firstArgument at hfailure
    split at hfailure
    · cases first with
      | string path => cases hfailure
      | _ =>
        cases hfailure
        rw [hsite.path, hsite.line, hsite.directive]
        exact .tagPath hsite.statement rfl
    · cases hfailure

theorem Engine.renderTag_eq (first : Value) (data : Members) :
    e.renderTag render' name first data site = (do
      let action ← e.tagAction name first data site
      match ← action.perform e render' site.depth with
      | .ok text => return text
      | .error failure => throw (failure.at site name)) := by
  unfold renderTag tagAction
  cases e.tags.get? name with
  | none => rfl
  | some tag =>
    dsimp only
    rw [bind_assoc]
    refine bind_congr fun first => ?_
    rw [bind_assoc]
    refine bind_congr fun identity => ?_
    exact (pure_bind _ _).symm

/-- A failure of a tag leaves it as it is, or with the call for a text of its own. -/
theorem TagFailure.at_unwinds {failure : TagFailure} {first : Value} (hsite : site.IsOf r s)
    (h : ∀ f, failure = .handedOn f →
      w.Traces e K (.tag name first site since :: .template r :: outer) f) (hf : K.followed) :
    Unwinds e (failure.at site name) (.tag name first site since :: .template r :: outer)
      (w.tell (.finished (.error failure))
        (.tag name first site since :: .template r :: outer)).scenes := by
  cases failure with
  | handedOn f =>
    obtain ⟨earlier, hearlier, hunwinds⟩ := h f rfl hf
    exact .handedOn hunwinds hearlier
  | own text =>
    change Unwinds e (.tag name site.path site.line text) _ _
    rw [hsite.path, hsite.line]
    exact .raised (.own hsite.statement)

theorem Engine.finish_carries {first : Value} (hsite : site.IsOf r s)
    (result : Except TagFailure String) :
    (∀ f, result = .error (.handedOn f) →
      w.Traces e K (.tag name first site since :: .template r :: outer) f) →
    RenderM.Carries (σ := σ) e K (.tag name first site since :: .template r :: outer) w
      (fun _ _ => True)
      (do
        modify (·.tell (.finished result))
        match result with
        | .ok text => return text
        | .error failure => throw (failure.at site name))
      (match result with
      | .ok text => return text
      | .error failure => throw (failure.at site name)) := by
  intro h s t hst
  have hfinished := hst.tell (.finished result)
  have hw := Record.le_tell (.finished result)
    (.tag name first site since :: .template r :: outer) w
  cases result with
  | ok text => exact .ok hw ⟨hfinished, trivial⟩
  | error failure =>
    refine .error hw ⟨hfinished, TagFailure.at_unwinds hsite fun f hfailure => h f ?_⟩
    rw [hfailure]

theorem Engine.callNoted_carries (first : Value) (data : Members)
    (htags : K.followed → e.TagsPassOn) (hsite : site.IsOf r s)
    (hdepth : site.depth = Layer.depth (.template r :: outer))
    (h : Renders e K (.tag name first site since :: .template r :: outer) render render')
    (hbegun : ∃ depth earlier, w.scenes =
      ⟨.begun, .tag name first site since :: .template r :: outer, depth⟩ :: earlier) :
    RenderM.Carries e K (.tag name first site since :: .template r :: outer) w (fun _ _ => True)
      (e.callNoted render name first data site) (e.renderTag render' name first data site) := by
  rw [callNoted, renderTag_eq, hdepth]
  refine (tagAction_carries first data htags hsite hbegun).bind fun w₁ _ action haction => ?_
  refine (action.performs h nofun w₁ [] haction nofun).bind fun w₂ _ result hresult => ?_
  exact finish_carries hsite result hresult

theorem Engine.tagNoted_carries (first : Value) (data : Members)
    (htags : K.followed → e.TagsPassOn) (hsite : site.IsOf r s)
    (hdepth : site.depth = Layer.depth (.template r :: outer))
    (h : ∀ since, Renders e K (.tag name first site since :: .template r :: outer) render render') :
    RenderM.Carries e K (.template r :: outer) w (fun _ _ => True)
      (e.tagNoted render name first data site) (e.renderTag render' name first data site) := by
  intro s t hst
  have hbegun := hst.enter (f := id)
    (.tag name first site s.chronicle.record.scenes.length) hst.depth hst.known
  have hcomes := callNoted_carries first data htags hsite hdepth (h _) ⟨_, _, rfl⟩ hbegun
  rw [tagNoted, RenderM.run_during]
  dsimp only [id_eq] at hcomes ⊢
  generalize (e.callNoted render name first data site).run.run _ = p at hcomes ⊢
  generalize (e.renderTag render' name first data site).run.run _ = q at hcomes ⊢
  cases hcomes with
  | ok hw htells =>
    have hleft := htells.1.leave (f := id) none htells.1.depth htells.1.known
    exact .ok (Record.between hw) ⟨hleft, trivial⟩
  | error hw hfails =>
    have hleft := hfails.leave (f := id) hfails.1.depth hfails.1.known
    exact .error (Record.between hw) hleft

theorem Engine.shortcutNoted_carries (aliasName : String) (data : Members)
    (htags : K.followed → e.TagsPassOn) (hsite : site.IsOf r s)
    (hdepth : site.depth = Layer.depth (.template r :: outer))
    (h : ∀ name first since,
      Renders e K (.tag name first site since :: .template r :: outer) render render') :
    RenderM.Carries e K (.template r :: outer) w (fun _ _ => True)
      (e.shortcutNoted render aliasName data site)
      (e.renderShortcut render' aliasName data site) := by
  intro s t hst
  have hsought := hst.tell (.sought aliasName)
  have hw := Record.le_tell (.sought aliasName) (.template r :: outer) w
  unfold shortcutNoted renderShortcut
  cases hshortcut : e.config.shortcuts.lookup aliasName with
  | none => exact .error hw ⟨hsought, fun _ => .raised (.unknownShortcut hshortcut)⟩
  | some target =>
    have hcomes := tagNoted_carries (.string target.path) data htags hsite hdepth
      (h target.tag _) hsought
    exact hcomes.weaken hw (fun _ _ _ _ _ => id) fun _ _ _ _ => id

/-- Templates are run in these surroundings as in the program's. -/
theorem Engine.surroundingsNoted_carries {template : Template} (htags : K.followed → e.TagsPassOn)
    (hpath : K.followed → template.path ≠ "")
    (h : ∀ layers, Layer.depth layers = Layer.depth stack + 1 → Renders e K layers render render') :
    Surroundings.Carries e K template stack (e.surroundingsNoted render)
      (e.surroundings render') where
  evaluate w r names expr hr hlookup hnames := evaluateNoted_carries hlookup hnames
  render w r path hr := by
    subst hr
    exact (h (.template r :: stack) rfl).carries hpath path
  tag w r s name first data hr hs := by
    subst hr
    exact tagNoted_carries first data htags ⟨hs, rfl, rfl, rfl⟩ rfl fun since => h _ rfl
  shortcut w r s name data hr hs := by
    subst hr
    exact shortcutNoted_carries name data htags ⟨hs, rfl, rfl, rfl⟩ rfl fun _ _ since => h _ rfl

end Calls

end Rendering

variable {load : Loader σ}

/-- Inside any layers, a render with its chronicle comes to what the program's does, as long as
there is room for what the limit still allows. -/
theorem Engine.chronicle_renders (hold : K.Hold e load) :
    ∀ (room : Nat) (stack : List Layer), e.config.maxDepth ≤ Layer.depth stack + room →
      Renders e K stack (e.chronicle load room) (e.activate load room)
  | 0, _, hroom => by
    intro w request hasks hasked s t hst
    exact .error le_rfl ⟨hst, fun _ => hasked.unwinds (.deep hroom)⟩
  | room + 1, stack, hroom => by
    intro w request hasks hasked s t hst
    -- Templates and tags in this one are a level deeper, where less room is enough.
    have hinner (layers : List Layer) (hlayers : Layer.depth layers = Layer.depth stack + 1) :
        Renders e K layers (e.chronicle load room) (e.activate load room) :=
      chronicle_renders hold room layers (by omega)
    have hactivation := activation_carries hold hasks hasked
      (e.runTemplate (e.chronicle load room)) (Run.text (e.surroundings (e.activate load room)))
      fun _ template hpath _ =>
        Run.textNoted_carries (surroundingsNoted_carries hold.tags hpath hinner)
    exact (hactivation hst).weaken le_rfl (fun _ _ _ _ _ => And.left) fun _ _ _ _ => id

/-- A render that the host asks for is the program's, and its record can be relied on. -/
theorem Engine.renderNoted_comes (hold : K.Hold e load) {request : Request}
    (hasks : K.Asks [] request) (data : Value) (state : EngineState σ)
    (hkept : K.kept state.cache) :
    let (outcome, record) := e.renderNoted load request data state
    outcome = (e.renderRequest load request data).run state ∧
      K.kept outcome.2.cache ∧ record.names.Sound Running.lookup ∧
      ∀ failure, outcome.1 = .error failure → K.followed → Unwinds e failure [] record.scenes := by
  have hbefore : Tells K [] {} ⟨{}, (state.cache, {}), state.identity⟩ ⟨{}, state⟩ :=
    { context := rfl
      identity := rfl
      cache := rfl
      layers := rfl
      record := rfl
      depth := rfl
      kept := hkept
      sound := trivial
      known := ⟨Members.each_nil, nofun⟩ }
  obtain ⟨w, -, hasked, htells⟩ := hbefore.ask nofun request data.members
  have hcomes := e.chronicle_renders hold e.config.maxDepth [] (Nat.le_add_left _ _) hasks hasked
    htells
  have hprogram : (e.renderRequest load request data).run state =
      let p := (e.activate load e.config.maxDepth request).run.run
        ⟨.ofData data.members 0, state⟩
      (p.1, p.2.engine) := rfl
  rw [renderNoted, hprogram]
  dsimp only [Layer.depth] at hcomes ⊢
  generalize (e.chronicle load e.config.maxDepth request).run.run _ = p at hcomes ⊢
  generalize (e.activate load e.config.maxDepth request).run.run _ = q at hcomes ⊢
  have hengine {w : Record} {s : RenderState (σ × Chronicle)} {t : RenderState σ}
      (h : Tells K [] w s t) :
      (⟨s.engine.cache.1, s.engine.identity⟩ : EngineState σ) = t.engine ∧
        K.kept s.engine.cache.1 := by
    rw [h.cache, h.identity]
    exact ⟨rfl, h.kept⟩
  cases hcomes with
  | ok hw h =>
    obtain rfl := h.record
    obtain ⟨hstate, hstore⟩ := hengine h
    exact ⟨congrArg _ hstate, hstore, h.sound, nofun⟩
  | error hw h =>
    obtain rfl := h.1.record
    obtain ⟨hstate, hstore⟩ := hengine h.1
    refine ⟨congrArg _ hstate, hstore, h.1.sound, ?_⟩
    rintro _ ⟨⟩
    exact h.2

end Templating
