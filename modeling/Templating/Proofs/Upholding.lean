import Templating.Proofs.Depth

/-!
What a render upholds. A promise says how the state may change and which failures may come; one
that the single steps keep is kept by whole templates, with all that their tags do.
-/
namespace Templating

variable {σ α β : Type}

/-- How states lead to later ones, and which failures may come. Numbers may be given out, and what
holds inside a further frame or one level deeper holds outside. -/
structure Promise (σ : Type) where
  leads : RenderState σ → RenderState σ → Prop
  fails : Failure → Prop
  refl : ∀ s, leads s s
  trans : ∀ {s t u}, leads s t → leads t u → leads s u
  numbered : ∀ s identity, leads s { s with engine := { s.engine with identity } }
  framed : ∀ {data : Members} {s t},
    leads { s with context := { s.context with frames := data :: s.context.frames } } t →
      leads s { t with context := { t.context with frames := t.context.frames.tail } }
  deeper : ∀ {s t}, leads { s with context := { s.context with depth := s.context.depth + 1 } } t →
    leads s { t with context := { t.context with depth := t.context.depth - 1 } }
  evaluation : ∀ path line directive error, fails (.evaluation path line directive error)
  tag : ∀ name path line text, fails (.tag name path line text)
  tooDeep : ∀ path limit, fails (.tooDeep path limit)

def Promise.Ends (P : Promise σ) (Q : α → Prop) : Except Failure α → Prop
  | .ok v => Q v
  | .error failure => P.fails failure

def RenderM.UpholdsAt (P : Promise σ) (Q : α → Prop) (x : RenderM σ α) (s : RenderState σ) : Prop :=
  P.leads s (x.run.run s).2 ∧ P.Ends Q (x.run.run s).1

def RenderM.Upholds (P : Promise σ) (Q : α → Prop) (x : RenderM σ α) : Prop :=
  ∀ s, x.UpholdsAt P Q s

/-- An action upholds the promise on activations as `A` says, and leaves them so. -/
def RunM.Upholds (P : Promise σ) (A : Activation → Prop) (Q : α → Prop) (x : RunM σ α) : Prop :=
  ∀ a, A a → RenderM.Upholds P (fun p => A p.2 ∧ Q p.1) (x.run a)

variable {P : Promise σ} {Q : α → Prop} {Q' : β → Prop}

protected theorem RenderM.UpholdsAt.bind {x : RenderM σ α} {f : α → RenderM σ β} {s : RenderState σ}
    (hx : x.UpholdsAt P Q s)
    (hf : ∀ v t, x.run.run s = (.ok v, t) → Q v → (f v).UpholdsAt P Q' t) :
    (x >>= f).UpholdsAt P Q' s := by
  obtain ⟨hleads, hends⟩ := hx
  unfold UpholdsAt
  rcases hrun : x.run.run s with ⟨failure | v, t⟩
  · rw [hrun] at hleads hends
    rw [run_bind_error hrun]
    exact ⟨hleads, hends⟩
  · rw [hrun] at hleads hends
    rw [run_bind_ok hrun]
    obtain ⟨hleads', hends'⟩ := hf v t hrun hends
    exact ⟨P.trans hleads hleads', hends'⟩

namespace RenderM.Upholds

protected theorem pure {v : α} (h : Q v) : RenderM.Upholds P Q (pure v) :=
  fun s => ⟨P.refl s, h⟩

protected theorem throw {failure : Failure} (h : P.fails failure) :
    RenderM.Upholds P Q (throw failure) :=
  fun s => ⟨P.refl s, h⟩

protected theorem bind {x : RenderM σ α} {f : α → RenderM σ β} (hx : RenderM.Upholds P Q x)
    (hf : ∀ v, Q v → RenderM.Upholds P Q' (f v)) : RenderM.Upholds P Q' (x >>= f) :=
  fun s => (hx s).bind fun v t _ hv => hf v hv t

theorem bind_get {f : RenderState σ → RenderM σ β} (h : ∀ s, RenderM.Upholds P Q' (f s)) :
    RenderM.Upholds P Q' (get >>= f) :=
  fun s => h s s

/-- An attempt comes to whatever the action may come to. -/
theorem attempt {x : RenderM σ α} (h : RenderM.Upholds P Q x) :
    RenderM.Upholds P (P.Ends Q) (RenderM.attempt x) :=
  fun s => h s

theorem withFrame {x : RenderM σ α} (h : RenderM.Upholds P Q x) (data : Members) :
    RenderM.Upholds P Q
      (RenderM.around (fun c => { c with frames := data :: c.frames })
        (fun c => { c with frames := c.frames.tail }) x) :=
  fun _ => ⟨P.framed (h _).1, (h _).2⟩

theorem evaluate (host : HostFunctions) (names : Env) (e : Expr) :
    RenderM.Upholds P (fun _ => True) (RenderM.evaluate host names e) := by
  intro s
  unfold UpholdsAt
  rw [RenderM.run_evaluate]
  rcases (e.evaluate host names).run s.engine.identity with error | ⟨value, identity⟩
  · exact ⟨P.refl s, trivial⟩
  · exact ⟨P.numbered s identity, trivial⟩

end RenderM.Upholds

namespace RunM.Upholds

variable {A : Activation → Prop}

protected theorem pure {v : α} (h : Q v) : RunM.Upholds P A Q (pure v) :=
  fun _ ha => .pure ⟨ha, h⟩

protected theorem throw {failure : Failure} (h : P.fails failure) :
    RunM.Upholds P A Q (throw failure) :=
  fun _ _ => .throw h

protected theorem bind {x : RunM σ α} {f : α → RunM σ β} (hx : RunM.Upholds P A Q x)
    (hf : ∀ v, Q v → RunM.Upholds P A Q' (f v)) : RunM.Upholds P A Q' (x >>= f) :=
  fun a ha => (hx a ha).bind fun p hp => hf p.1 hp.2 p.2 hp.1

theorem lift {x : RenderM σ α} (h : RenderM.Upholds P Q x) : RunM.Upholds P A Q (liftM x) :=
  fun _ ha => h.bind fun _ hv => .pure ⟨ha, hv⟩

theorem bind_get {f : Activation → RunM σ β} (h : ∀ a, A a → RunM.Upholds P A Q' (f a)) :
    RunM.Upholds P A Q' (get >>= f) :=
  fun a ha => h a ha a ha

theorem bind_getState {f : RenderState σ → RunM σ β} (h : ∀ s, RunM.Upholds P A Q' (f s)) :
    RunM.Upholds P A Q' (getThe (RenderState σ) >>= f) :=
  fun a ha s => h s a ha s

protected theorem set {a : Activation} (h : A a) : RunM.Upholds P A (fun _ => True) (set a) :=
  fun _ _ => .pure ⟨h, trivial⟩

protected theorem modify {f : Activation → Activation} (h : ∀ a, A a → A (f a)) :
    RunM.Upholds P A (fun _ => True) (modify f) :=
  fun a ha => .pure ⟨h a ha, trivial⟩

theorem modifyState {f : RenderState σ → RenderState σ} (h : ∀ s, P.leads s (f s)) :
    RunM.Upholds P A (fun _ => True) (modifyThe (RenderState σ) f) :=
  fun _ ha s => ⟨h s, ha, trivial⟩

/-- What follows a change of the state has only to be as promised from the states after it. -/
theorem modifyState_lift {f : RenderState σ → RenderState σ} {x : RenderM σ α}
    (hf : ∀ s, P.leads s (f s)) (hx : ∀ s, x.UpholdsAt P Q (f s)) :
    RunM.Upholds P A Q (modifyThe (RenderState σ) f >>= fun _ => liftM x) := by
  intro a ha s
  have hlift : (x >>= fun v => pure (v, a)).UpholdsAt P (fun p => A p.2 ∧ Q p.1) (f s) :=
    (hx s).bind fun v t _ hv => ⟨P.refl t, ha, hv⟩
  exact ⟨P.trans (hf s) hlift.1, hlift.2⟩

end RunM.Upholds

/-- The names under which the template captures text: that of contents, and those of its blocks. -/
def Template.Captures (template : Template) (name : String) : Prop :=
  name = contentName ∨ ∃ s ∈ template.statements, s.instruction = .block name

def Activation.Named (N : String → Prop) (a : Activation) : Prop := ∀ c ∈ a.captures, N c.name

namespace Activation.Named

variable {N : String → Prop} {a : Activation}

theorem begin (h : a.Named N) {name : String} (hname : N name) : (a.beginCapture name).Named N :=
  List.forall_mem_cons.mpr ⟨hname, h⟩

theorem emit (h : a.Named N) (text : String) : (a.emit text).Named N := by
  unfold Activation.emit
  split
  · exact h
  · rename_i capture outer hcaptures
    unfold Named at h
    rw [hcaptures] at h
    obtain ⟨hcapture, houter⟩ := List.forall_mem_cons.mp h
    exact List.forall_mem_cons.mpr ⟨hcapture, houter⟩

/-- When the innermost capture has ended. -/
theorem ended (h : a.Named N) {capture : Capture} {captures : List Capture}
    (hcaptures : a.captures = capture :: captures) {b : Activation} (hb : b.captures = captures) :
    b.Named N :=
  fun c hc => h c (hcaptures ▸ List.mem_cons_of_mem _ (hb ▸ hc))

end Activation.Named

inductive Instruction.CallsTag (name : String) : Instruction → Prop
  | call (first : Expr) (data : Option Expr) (content : Bool) :
    CallsTag name (.tag name first data content)
  | close : CallsTag name (.closeTag name)

inductive Instruction.CallsShortcut (aliasName : String) : Instruction → Prop
  | call (data : Option Expr) (content : Bool) :
    CallsShortcut aliasName (.shortcut aliasName data content)
  | close : CallsShortcut aliasName (.closeShortcut aliasName)

structure Surroundings.Upholds (P : Promise σ) (template : Template) (x : Surroundings σ) :
    Prop where
  evaluate : ∀ names e, RenderM.Upholds P (fun _ => True) (x.evaluate names e)
  render : ∀ path, RenderM.Upholds P (fun _ => True) (x.render (.path path template.path))
  tag : ∀ s ∈ template.statements, ∀ name, s.instruction.CallsTag name → ∀ first data site,
    RenderM.Upholds P (fun _ => True) (x.tag name first data site)
  shortcut : ∀ s ∈ template.statements, ∀ name, s.instruction.CallsShortcut name → ∀ data site,
    RenderM.Upholds P (fun _ => True) (x.shortcut name data site)

namespace Run

variable {N : String → Prop} {template : Template} {x : Surroundings σ}

abbrev Upholds (P : Promise σ) (N : String → Prop) (Q : α → Prop) (run : RunM σ α) : Prop :=
  RunM.Upholds P (Activation.Named N) Q run

theorem emit_upholds (text : String) : Upholds P N (fun _ => True) (emit text) :=
  RunM.Upholds.modify fun _ ha => ha.emit text

theorem closeContent_upholds : Upholds P N (fun _ => True) closeContent := by
  unfold closeContent
  refine RunM.Upholds.bind_get fun a ha => ?_
  rcases hcaptures : a.captures with _ | ⟨capture, captures⟩
  · exact .pure trivial
  · rcases hpending : a.pending with _ | ⟨call, calls⟩
    · exact (RunM.Upholds.set (ha.ended hcaptures rfl)).bind fun _ _ => .pure trivial
    · exact (RunM.Upholds.set (ha.ended hcaptures rfl)).bind fun _ _ => .pure trivial

/-- Where values may become global, the end of a block is as promised. -/
theorem closeBlock_upholds
    (hset : ∀ s name value,
      P.leads s { s with context := s.context.setGlobal name value }) :
    Upholds P N (fun _ => True) closeBlock := by
  unfold closeBlock
  refine RunM.Upholds.bind_get fun a ha => ?_
  rcases hcaptures : a.captures with _ | ⟨capture, captures⟩
  · exact .pure trivial
  · rcases hpending : a.pending with _ | ⟨call, calls⟩
    · exact (RunM.Upholds.set (ha.ended hcaptures rfl)).bind fun _ _ =>
        .modifyState fun s => hset s _ _
    · exact RunM.Upholds.set (ha.ended hcaptures rfl)

variable (h : x.Upholds P template)
include h

theorem eval_upholds (s : Statement) (e : Expr) :
    Upholds P N (fun _ => True) (eval x template s e) := by
  unfold eval
  refine RunM.Upholds.bind_get fun a _ => ?_
  refine (RunM.Upholds.lift (h.evaluate a.names e)).bind fun outcome _ => ?_
  cases outcome with
  | error error => exact .throw (P.evaluation _ _ _ _)
  | ok value => exact .pure trivial

/-- Expressions and the names of loops. -/
theorem flow_upholds :
    RunM.FlowCongruence x x template fun v _ => Upholds P N (fun _ => True) v where
  pure _ := .pure trivial
  throw _ _ := .throw (P.evaluation _ _ _ _)
  bind hv hf := hv.bind fun a _ => hf a
  bind_bound _ _ _ hf := RunM.Upholds.bind_get fun _ _ => hf _
  eval := eval_upholds h
  bindName _ _ := RunM.Upholds.modify fun _ ha => ha

theorem insert_upholds (path : String) (data : Members) :
    Upholds P N (fun _ => True) (insert x template path data) := by
  unfold insert
  have hrender := (h.render path).withFrame data
  exact (RunM.Upholds.lift hrender).bind fun text _ => emit_upholds text

section Calls

variable {s : Statement} (hs : s ∈ template.statements)
include hs

theorem tag_upholds {name : String} (hname : s.instruction.CallsTag name) (first : Value)
    (data : Members) : Upholds P N (fun _ => True) (tag x template s name first data) := by
  refine RunM.Upholds.bind_getState fun r => ?_
  exact (RunM.Upholds.lift (h.tag s hs name hname first data _)).bind fun text _ =>
    emit_upholds text

theorem shortcut_upholds {name : String} (hname : s.instruction.CallsShortcut name)
    (data : Members) : Upholds P N (fun _ => True) (shortcut x template s name data) := by
  refine RunM.Upholds.bind_getState fun r => ?_
  exact (RunM.Upholds.lift (h.shortcut s hs name hname data _)).bind fun text _ =>
    emit_upholds text

/-- Statements but those that publish text. -/
theorem step_upholds (hblock : s.instruction ≠ .closeBlock)
    (hlayout : s.instruction.isLayout = false) :
    Upholds P template.Captures (fun _ => True) (step x template s) := by
  have hflow := flow_upholds (N := template.Captures) h
  have hawait (call : Pending) :
      Upholds P template.Captures (fun _ => True) (modify (·.await call) : RunM σ Unit) :=
    RunM.Upholds.modify fun a ha => Activation.Named.begin ha (.inl rfl)
  unfold step
  cases hi : s.instruction with
  | literal text => exact emit_upholds text
  | emit e => exact (eval_upholds h s e).bind fun _ _ => emit_upholds _
  | emitEncoded e => exact (eval_upholds h s e).bind fun _ _ => emit_upholds _
  | put name =>
    refine RunM.Upholds.bind_get fun a _ => ?_
    cases a.bound? name with
    | none => exact .pure trivial
    | some value => exact emit_upholds _
  | block name =>
    exact RunM.Upholds.modify fun a ha => ha.begin (.inr ⟨s, hs, hi⟩)
  | closeBlock => exact (hblock hi).elim
  | layout path => simp [hi, Instruction.isLayout] at hlayout
  | insert target arguments content =>
    refine (hflow.path s target).bind fun path _ => (hflow.data s arguments).bind fun data _ => ?_
    cases content with
    | true => exact hawait _
    | false => exact insert_upholds h path data
  | closeInsert =>
    refine closeContent_upholds.bind fun call _ => ?_
    rcases call with _ | ⟨path, data⟩ | _ | _
    · exact .pure trivial
    · exact insert_upholds h path data
    · exact .pure trivial
    · exact .pure trivial
  | tag name first arguments content =>
    refine (eval_upholds h s first).bind fun first _ =>
      (hflow.data s arguments).bind fun data _ => ?_
    cases content with
    | true => exact hawait _
    | false => exact tag_upholds h hs (hi ▸ .call _ _ _) first data
  | closeTag name =>
    refine closeContent_upholds.bind fun call _ => ?_
    rcases call with _ | _ | ⟨first, data⟩ | _
    · exact .pure trivial
    · exact .pure trivial
    · exact tag_upholds h hs (hi ▸ .close) first data
    · exact .pure trivial
  | shortcut name arguments content =>
    refine (hflow.data s arguments).bind fun data _ => ?_
    cases content with
    | true => exact hawait _
    | false => exact shortcut_upholds h hs (hi ▸ .call _ _) data
  | closeShortcut name =>
    refine closeContent_upholds.bind fun call _ => ?_
    rcases call with _ | _ | _ | data
    · exact .pure trivial
    · exact .pure trivial
    · exact .pure trivial
    · exact shortcut_upholds h hs (hi ▸ .close) data
  | branch | elseBranch | otherwise | loop | close | comment => exact .pure trivial

end Calls

/-- Where values may become global, a layout is as promised. -/
theorem layout_upholds
    (hset : ∀ s name value,
      P.leads s { s with context := s.context.setGlobal name value }) (s : Statement) (e : Expr) :
    Upholds P N (fun _ => True) (layout x template s e) := by
  unfold layout
  refine ((flow_upholds h).path s e).bind fun path _ => RunM.Upholds.bind_get fun a _ => ?_
  have hwrite (text : String) :
      Upholds P N (fun _ => True) (modify ({ · with output := text }) : RunM σ Unit) :=
    RunM.Upholds.modify fun _ ha => ha
  refine (hwrite "").bind fun _ _ => ?_
  refine (RunM.Upholds.modifyState fun s => hset s _ _).bind fun _ _ => ?_
  exact (RunM.Upholds.lift (h.render path)).bind fun text _ => hwrite text

/-- A template is run as promised when its statements are carried out so. -/
theorem textIn_upholds {perform : Nat → Statement → RunM σ Unit}
    (hperform : ∀ i s, template.statements[i]? = some s →
      Upholds P template.Captures (fun _ => True) (perform i s)) :
    RenderM.Upholds P (fun _ => True) (textIn template x perform) := by
  unfold textIn
  refine RenderM.Upholds.bind_get fun s => ?_
  have hstart : Activation.Named template.Captures { names := s.context.flatten } := by
    intro c hc
    cases hc
  have hwalk : Upholds P template.Captures (fun _ => True)
      (execIn x template perform 0 template.statements.length) :=
    @RunM.FlowCongruence.execIn _ _ _ _ _ _ (flow_upholds h) perform perform hperform 0 _
  exact (hwalk _ hstart).bind fun _ _ => .pure trivial

end Run

/-- The tag hands on only such failures, where renders only fail so. -/
def TagAction.HandsOn (fails : Failure → Prop) : TagAction → Prop
  | finish result => ∀ failure, result = .error (.handedOn failure) → fails failure
  | render _ _ next => ∀ outcome, (∀ failure, outcome = .error failure → fails failure) →
    (next outcome).HandsOn fails
  | renderText _ _ next => ∀ outcome, (∀ failure, outcome = .error failure → fails failure) →
    (next outcome).HandsOn fails

theorem Promise.Ends.fails_of_error {outcome : Except Failure α} (h : P.Ends Q outcome) :
    ∀ failure, outcome = .error failure → P.fails failure := by
  rintro failure rfl
  exact h

section Rendering

variable {e : Engine} {render : Request → RenderM σ String} {depth : Nat}

theorem TagAction.perform_upholds
    (h : ∀ members request,
      RenderM.Upholds P (fun _ => True) (RenderM.within (.ofData members depth) (render request)))
    {action : TagAction} (haction : action.HandsOn P.fails) :
    RenderM.Upholds P (fun result => ∀ failure, result = .error (.handedOn failure) →
      P.fails failure) (action.perform e render depth) := by
  induction action with
  | finish result => exact .pure haction
  | render path data next ih =>
    exact (h _ _).attempt.bind fun outcome houtcome =>
      ih outcome (haction outcome houtcome.fails_of_error)
  | renderText source data next ih =>
    exact (h _ _).attempt.bind fun outcome houtcome =>
      ih outcome (haction outcome houtcome.fails_of_error)

namespace Engine

/-- A tag that there is. -/
theorem renderTag_upholds {name : String} {first : Value} {data : Members} {site : CallSite}
    (h : ∀ members request, RenderM.Upholds P (fun _ => True)
      (RenderM.within (.ofData members site.depth) (render request)))
    {tag : Tag} (htag : e.tags.get? name = some tag)
    (haction : ∀ call, (tag.run call).HandsOn P.fails) :
    RenderM.Upholds P (fun _ => True) (e.renderTag render name first data site) := by
  unfold renderTag
  rw [htag]
  refine RenderM.Upholds.bind (Q := fun _ => True) ?_ fun first _ => ?_
  · intro s
    refine ⟨P.refl s, ?_⟩
    change P.Ends _ (e.firstArgument tag first site)
    unfold firstArgument
    split
    · split
      · trivial
      · exact P.evaluation _ _ _ _
    · trivial
  · refine RenderM.Upholds.bind (Q := fun _ => True) (fun s => ⟨P.numbered s _, trivial⟩)
      fun identity _ => ?_
    refine (TagAction.perform_upholds h (haction _)).bind fun result hresult => ?_
    rcases result with failure | text
    · refine .throw ?_
      cases failure with
      | handedOn failure => exact hresult failure rfl
      | own text => exact P.tag _ _ _ _
    · exact .pure trivial

theorem activation_upholdsAt (path : String) {loaded : RenderM σ Template}
    {run : Template → RenderM σ String} {Q : Template → Prop} {s : RenderState σ}
    (hloaded : loaded.UpholdsAt P Q s)
    (hrun : ∀ template t, loaded.run.run s = (.ok template, t) → Q template →
      (run template).UpholdsAt P (fun _ => True)
        { t with context := { t.context with depth := t.context.depth + 1 } }) :
    (e.activation path loaded run).UpholdsAt P (fun _ => True) s := by
  by_cases hdeep : e.config.maxDepth ≤ s.context.depth
  · unfold RenderM.UpholdsAt
    rw [e.activation_of_deep _ _ _ hdeep]
    exact ⟨P.refl s, P.tooDeep _ _⟩
  · unfold RenderM.UpholdsAt
    rw [e.activation_of_lt _ _ _ (Nat.lt_of_not_le hdeep)]
    refine hloaded.bind fun template t ht htemplate => ?_
    obtain ⟨hleads, hends⟩ := hrun template t ht htemplate
    exact ⟨P.deeper hleads, hends⟩

end Engine

end Rendering

end Templating
