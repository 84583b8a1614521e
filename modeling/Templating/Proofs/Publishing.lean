import Templating.Proofs.Progress

/-!
Renders with a ledger of what templates publish: the texts of their blocks, and the text of a page
for its layout. What is published holds in one context; the renders that a tag asks for have others.
-/
namespace Templating

variable {σ α : Type}

/-- A text that has become global under a name. It comes from the end of a block in the template, or
it is the text of the template itself, at its layout. -/
structure Publication where
  name : String
  text : String
  template : Template
  index : Nat

/-- A template begins, in a context in which so much has been published. `page` is the text that
it has been given when it is the layout of another. -/
structure Beginning where
  template : Template
  context : Context
  published : List Publication
  page : Option Publication

/-- The latest come first. Only what has been published in the innermost context is there. -/
structure Ledger where
  published : List Publication := []
  beginnings : List Beginning := []

namespace RenderState

def ledger (r : RenderState (σ × Ledger)) : Ledger := r.engine.cache.2

def withLedger (ledger : Ledger) (r : RenderState (σ × Ledger)) : RenderState (σ × Ledger) :=
  { r with engine := { r.engine with cache := (r.engine.cache.1, ledger) } }

def publish (p : Publication) (r : RenderState (σ × Ledger)) : RenderState (σ × Ledger) :=
  withLedger { r.ledger with published := p :: r.ledger.published }
    { r with context := r.context.setGlobal p.name (.string p.text) }

def enter (page : Option Publication) (template : Template) (r : RenderState (σ × Ledger)) :
    RenderState (σ × Ledger) :=
  r.withLedger { r.ledger with
    beginnings := ⟨template, r.context, r.ledger.published, page⟩ :: r.ledger.beginnings }

end RenderState

def RenderM.apart (action : RenderM (σ × Ledger) α) : RenderM (σ × Ledger) α :=
  ExceptT.mk do
    let outer := (← get).ledger.published
    modify fun s => s.withLedger { s.ledger with published := [] }
    let result ← action.run
    modify fun s => s.withLedger { s.ledger with published := outer }
    return result

namespace Run

section Recorded

variable (template : Template) (index : Nat)

def closeBlockRecorded : RunM (σ × Ledger) Unit := do
  let a ← get
  match a.captures with
  | [] => return
  | capture :: captures =>
    let value := Value.string capture.text
    match a.pending with
    | call :: calls =>
      set { a with captures, pending := call.setData capture.name value :: calls }
    | [] =>
      set ({ a with captures }.bind capture.name value)
      modifyThe (RenderState (σ × Ledger)) (·.publish ⟨capture.name, capture.text, template, index⟩)

variable (surroundings : Surroundings (σ × Ledger))
  (render : Option Publication → Request → RenderM (σ × Ledger) String)

def layoutRecorded (s : Statement) (e : Expr) : RunM (σ × Ledger) Unit := do
  let path ← path surroundings template s e
  let page : Publication := ⟨contentName, (← get).output, template, index⟩
  modify fun a => { a with output := "" }
  modifyThe (RenderState (σ × Ledger)) (·.publish page)
  let text ← render (some page) (.path path template.path)
  modify fun a => { a with output := text }

def recorded (s : Statement) : RunM (σ × Ledger) Unit :=
  match s.instruction with
  | .closeBlock => closeBlockRecorded template index
  | .layout e => layoutRecorded template index surroundings render s e
  | _ => step surroundings template s

end Recorded

end Run

namespace Engine

variable (e : Engine)

section

variable (render : Option Publication → Request → RenderM (σ × Ledger) String)

/-- The surroundings of a template. Tags ask for renders in contexts of their own. -/
def surroundingsRecorded : Surroundings (σ × Ledger) where
  evaluate := RenderM.evaluate e.host
  render := render none
  tag := e.renderTag fun request => RenderM.apart (render none request)
  shortcut := e.renderShortcut fun request => RenderM.apart (render none request)

def runRecorded (page : Option Publication) (template : Template) :
    RenderM (σ × Ledger) String := do
  modify (·.enter page template)
  Run.textIn template (e.surroundingsRecorded render) fun index =>
    Run.recorded template index (e.surroundingsRecorded render) render

end

variable (load : Loader σ)

def recordBy (render : Option Publication → Request → RenderM (σ × Ledger) String)
    (page : Option Publication) (request : Request) : RenderM (σ × Ledger) String :=
  e.activation (e.requestPath request) (RenderM.ofStore (load request)).beside
    (e.runRecorded render page)

/-- A render with a ledger, of a layout when a page is given. -/
def record : Nat → Option Publication → Request → RenderM (σ × Ledger) String
  | 0, _, request => throw (.tooDeep (e.requestPath request) e.config.maxDepth)
  | room + 1, page, request => e.recordBy load (record room) page request

end Engine

abbrev Ledgered : σ × Ledger → σ → Prop := Beside fun _ => True

theorem RenderState.Matches.withLedger {s : RenderState (σ × Ledger)} {t : RenderState σ}
    (h : s.Matches Ledgered t) (ledger : Ledger) : (s.withLedger ledger).Matches Ledgered t :=
  ⟨h.context, h.identity, h.cache.1, trivial⟩

theorem RenderM.Simulates.apart {x : RenderM (σ × Ledger) α} {y : RenderM σ α}
    (h : RenderM.Simulates Ledgered x y) : RenderM.Simulates Ledgered (RenderM.apart x) y := by
  intro s t hst
  obtain ⟨hresult, hend⟩ := h (hst.withLedger { s.ledger with published := [] })
  exact ⟨hresult, hend.withLedger _⟩

namespace Run

variable {template : Template} {index : Nat}

theorem publish_simulates (p : Publication) :
    RunM.Simulates Ledgered Eq
      (modifyThe (RenderState (σ × Ledger)) (·.publish p) : RunM (σ × Ledger) Unit)
      (modifyThe (RenderState σ) fun r =>
        { r with context := r.context.setGlobal p.name (.string p.text) } : RunM σ Unit) :=
  RunM.Simulates.modifyState fun _ _ hr =>
    (hr.withContext (·.setGlobal p.name (.string p.text))).withLedger _

theorem closeBlockRecorded_simulates :
    RunM.Simulates (σ := σ × Ledger) Ledgered Eq (closeBlockRecorded template index)
      closeBlock := by
  unfold closeBlockRecorded closeBlock
  refine RunM.Simulates.bind_get fun a _ hab => ?_
  subst hab
  rcases a.captures with _ | ⟨capture, captures⟩
  · exact RunM.Simulates.pure ()
  · rcases a.pending with _ | ⟨call, calls⟩
    · exact (RunM.Simulates.set rfl).bind fun _ => publish_simulates _
    · exact RunM.Simulates.set rfl

variable {x : Surroundings (σ × Ledger)} {y : Surroundings σ} (h : x.Simulates Ledgered y)
  {render : Option Publication → Request → RenderM (σ × Ledger) String}
  (hrender : ∀ page request, RenderM.Simulates Ledgered (render page request) (y.render request))
include h hrender

theorem layoutRecorded_simulates (s : Statement) (e : Expr) :
    RunM.Simulates Ledgered Eq (layoutRecorded template index x render s e)
      (layout y template s e) := by
  unfold layoutRecorded layout
  have hwrite (text : String) : RunM.Simulates Ledgered Eq
      (modify ({ · with output := text }) : RunM (σ × Ledger) Unit)
      (modify ({ · with output := text }) : RunM σ Unit) :=
    RunM.Simulates.modify fun hab => by rw [hab]
  refine ((fullCongruence template h).path s e).bind fun path => ?_
  refine RunM.Simulates.bind_get fun a _ hab => ?_
  subst hab
  refine (hwrite "").bind fun _ => (publish_simulates _).bind fun _ => ?_
  exact (RunM.Simulates.lift (hrender _ _)).bind fun text => hwrite text

theorem recorded_simulates (s : Statement) :
    RunM.Simulates Ledgered Eq (recorded template index x render s) (step y template s) := by
  unfold recorded
  split
  · rename_i hs
    have hstep : step y template s = closeBlock := by
      unfold step
      rw [hs]
    rw [hstep]
    exact closeBlockRecorded_simulates
  · rename_i e hs
    have hstep : step y template s = layout y template s e := by
      unfold step
      rw [hs]
    rw [hstep]
    exact layoutRecorded_simulates h hrender s e
  · exact (fullCongruence template h).step s

theorem textRecorded_simulates :
    RenderM.Simulates Ledgered (textIn template x fun index => recorded template index x render)
      (text y template) := by
  rw [← textIn_step]
  unfold textIn
  refine RenderM.Relates.bind_get fun s t hst => ?_
  rw [hst.context]
  have hstep (i : Nat) (s : Statement) : RunM.Simulates Ledgered Eq
      (recorded template i x render s) (step y template s) := recorded_simulates h hrender s
  have hwalk := (congruence template h .eq).execIn (fun i s _ => hstep i s) 0
    template.statements.length
  refine RenderM.Relates.bind (hwalk rfl) ?_
  rintro ⟨_, a⟩ ⟨_, b⟩ ⟨-, hab⟩
  exact RenderM.Relates.pure (congrArg _ hab)

end Run

namespace Engine

variable (e : Engine) (load : Loader σ)

section

variable {render : Option Publication → Request → RenderM (σ × Ledger) String}
  {render' : Request → RenderM σ String}
  (h : ∀ page request, RenderM.Simulates Ledgered (render page request) (render' request))
include h

theorem surroundingsRecorded_simulates :
    (e.surroundingsRecorded render).Simulates Ledgered (e.surroundings render') where
  evaluate names expr := RenderM.Simulates.evaluate e.host names expr
  render := h none
  tag := e.renderTag_simulates fun request => (h none request).apart
  shortcut := e.renderShortcut_simulates fun request => (h none request).apart

theorem recordBy_simulates (page : Option Publication) (request : Request) :
    RenderM.Simulates Ledgered (e.recordBy load render page request)
      (e.activateBy load render' request) := by
  refine e.activation_simulates _ (RenderM.beside_simulates (fun _ => True) _) fun template => ?_
  intro s t hst
  exact Run.textRecorded_simulates (e.surroundingsRecorded_simulates h) h (hst.withLedger _)

end

/-- With its ledger, a render comes to what the program's does. -/
theorem record_simulates (room : Nat) (page : Option Publication) (request : Request) :
    RenderM.Simulates Ledgered (e.record load room page request)
      (e.activate load room request) := by
  induction room generalizing page request with
  | zero => exact RenderM.Simulates.throw _
  | succ room ih => exact e.recordBy_simulates load ih page request

end Engine

end Templating
