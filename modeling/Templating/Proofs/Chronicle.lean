import Templating.Proofs.Scopes
import Templating.Proofs.Depth
import Templating.Proofs.Moments

/-!
Renders with a chronicle. It has the templates that are being run and the tags that are being
called, inside one another, all that happens to them, and how names are looked up meanwhile.
-/
namespace Templating

variable {σ α : Type}

/-- A template that is being run: the context in which it began, the names written since then, the
latest first, and the statement that is being carried out. -/
structure Running where
  template : Template
  entry : Context
  written : Env := []
  index : Nat := 0

namespace Running

def reach (index : Nat) (r : Running) : Running := { r with index }

def write (name : String) (value : Value) (r : Running) : Running :=
  { r with written := (name, value) :: r.written }

/-- What a name is bound to outside functions: the last value written to it, else that in the
innermost frame of data that held the name in the beginning, else a global from before. -/
def lookup (r : Running) (name : String) : Option Value :=
  (r.written.lookup name).or
    ((r.entry.frames.findSome? fun frame => frame.reverse.lookup name).or
      (r.entry.globals.lookup name))

end Running

/-- A run of a template or a call of a tag. `since` tells calls of the same tag apart: it is how
much had been noted before. -/
inductive Layer where
  | template (r : Running)
  | tag (name : String) (first : Value) (site : CallSite) (since : Nat)

namespace Layer

def depth : List Layer → Nat
  | [] => 0
  | .template _ :: layers => depth layers + 1
  | .tag _ _ _ _ :: layers => depth layers

end Layer

inductive Happening where
  | asked (request : Request)
  | begun
  | reached
  | evaluated (outcome : Except EvalError Value)
  | sought (aliasName : String)
  | finished (result : Except TagFailure String)
  | left (failure : Option Failure)

/-- Something that happens in the innermost layer, which comes first. -/
structure Scene where
  happening : Happening
  layers : List Layer
  depth : Nat

/-- What has been noted so far, the latest first. -/
structure Record where
  scenes : List Scene := []
  names : CallHistory Running := {}

structure Chronicle where
  layers : List Layer := []
  record : Record := {}

namespace Chronicle

def note (happening : Happening) (depth : Nat) (c : Chronicle) : Chronicle :=
  { c with record.scenes := ⟨happening, c.layers, depth⟩ :: c.record.scenes }

def change (f : Running → Running) (c : Chronicle) : Chronicle :=
  { c with layers := c.layers.modifyHead fun
      | .template r => .template (f r)
      | layer => layer }

end Chronicle

namespace RenderState

def chronicle (r : RenderState (σ × Chronicle)) : Chronicle := r.engine.cache.2

def withChronicle (f : Chronicle → Chronicle) (r : RenderState (σ × Chronicle)) :
    RenderState (σ × Chronicle) :=
  { r with engine := { r.engine with cache := (r.engine.cache.1, f r.engine.cache.2) } }

def tell (happening : Happening) (r : RenderState (σ × Chronicle)) : RenderState (σ × Chronicle) :=
  r.withChronicle (·.note happening r.context.depth)

def push (layer : Layer) (r : RenderState (σ × Chronicle)) : RenderState (σ × Chronicle) :=
  (r.withChronicle fun c => { c with layers := layer :: c.layers }).tell .begun

def pop (failure : Option Failure) (r : RenderState (σ × Chronicle)) :
    RenderState (σ × Chronicle) :=
  (r.tell (.left failure)).withChronicle fun c => { c with layers := c.layers.tail }

end RenderState

open RenderState

def failure? : Except Failure α → Option Failure
  | .ok _ => none
  | .error failure => some failure

def RenderM.during (layer : RenderState (σ × Chronicle) → Layer)
    (action : RenderM (σ × Chronicle) α) : RenderM (σ × Chronicle) α :=
  ExceptT.mk do
    modify fun s => s.push (layer s)
    let result ← action.run
    modify (·.pop (failure? result))
    return result

namespace Run

structure Actions (σ : Type) where
  test : Nat → Statement → Condition → RunM σ Bool
  value : Nat → Statement → Expr → RunM σ Value
  visits : Nat → Statement → LoopKind → Expr → RunM σ (List (Value × Value))
  bind : String → Option String → Value × Value → RunM σ Unit
  step : Nat → Statement → RunM σ Unit

section Walk

variable (actions : Actions σ) (template : Template)

def chooseWith (index : Nat) : RunM σ Nat :=
  match _h : template.statements[index]? with
  | some s =>
    match s.instruction with
    | .elseBranch test (some next) _ => do
      let value ← actions.value index s test
      if value.isTruthy then return index + 1
      else if index < next then chooseWith next
      else return index + 1
    | _ => pure (index + 1)
  | none => pure (index + 1)
termination_by template.statements.length - index
decreasing_by
  have := (List.getElem?_eq_some_iff.mp _h).1
  omega

def walk (index stop : Nat) : RunM σ Unit :=
  if index < stop then
    match _h : template.statements[index]? with
    | none => pure ()
    | some s =>
      match s.instruction with
      | .branch condition next => do
        let holds ← actions.test index s condition
        let target ← if holds then pure (index + 1) else
          match next with
          | some next => chooseWith actions template next
          | none => pure (index + 1)
        if index < target then walk target stop
      | .elseBranch _ _ (some target) => if index < target then walk target stop else pure ()
      | .otherwise (some target) => if index < target then walk target stop else pure ()
      | .loop kind valueName keyName source (some target) => do
        let visits ← actions.visits index s kind source
        visits.forM fun visit => do
          actions.bind valueName keyName visit
          walk (index + 1) target
        if index ≤ target then walk (target + 1) stop
      | _ => do
        actions.step index s
        walk (index + 1) stop
  else pure ()
termination_by template.statements.length - index
decreasing_by
  all_goals
    have := (List.getElem?_eq_some_iff.mp _h).1
    omega

section Equations

variable {template} {index stop : Nat} {s : Statement}

theorem chooseWith_of_getElem? (hs : template.statements[index]? = some s) :
    chooseWith actions template index =
      match s.instruction with
      | .elseBranch test (some next) _ => do
        let value ← actions.value index s test
        if value.isTruthy then return index + 1
        else if index < next then chooseWith actions template next
        else return index + 1
      | _ => pure (index + 1) := by
  rw [chooseWith]
  split
  · rename_i s' hs'
    obtain rfl : s' = s := Option.some.inj (hs'.symm.trans hs)
    rfl
  · rename_i hs'
    simp [hs] at hs'

theorem walk_of_getElem? (hs : template.statements[index]? = some s) (hstop : index < stop) :
    walk actions template index stop =
      (match s.instruction with
      | .branch condition next => do
        let holds ← actions.test index s condition
        let target ← if holds then pure (index + 1) else
          match next with
          | some next => chooseWith actions template next
          | none => pure (index + 1)
        if index < target then walk actions template target stop
      | .elseBranch _ _ (some target) =>
        if index < target then walk actions template target stop else pure ()
      | .otherwise (some target) =>
        if index < target then walk actions template target stop else pure ()
      | .loop kind valueName keyName source (some target) => do
        let visits ← actions.visits index s kind source
        visits.forM fun visit => do
          actions.bind valueName keyName visit
          walk actions template (index + 1) target
        if index ≤ target then walk actions template (target + 1) stop
      | _ => do
        actions.step index s
        walk actions template (index + 1) stop) := by
  rw [walk, if_pos hstop]
  split
  · rename_i hs'
    simp [hs] at hs'
  · rename_i s' hs'
    obtain rfl : s' = s := Option.some.inj (hs'.symm.trans hs)
    rfl

end Equations

end Walk

def reach (index : Nat) : RunM (σ × Chronicle) Unit :=
  modifyThe (RenderState (σ × Chronicle)) fun r =>
    (r.withChronicle (·.change (·.reach index))).tell .reached

def write (name : String) (value : Value) : RunM (σ × Chronicle) Unit :=
  modifyThe (RenderState (σ × Chronicle)) fun r =>
    r.withChronicle (·.change (·.write name value))

/-- A block whose text does not go to a call writes its name. -/
def writeBlock (s : Statement) : RunM (σ × Chronicle) Unit := do
  let a ← get
  match s.instruction, a.captures, a.pending with
  | .closeBlock, capture :: _, [] => write capture.name (.string capture.text)
  | _, _, _ => pure ()

section Noted

variable (surroundings : Surroundings (σ × Chronicle)) (template : Template)

/-- The actions of the program, with notes of the statements and the names written. -/
def noting : Actions (σ × Chronicle) where
  test index s condition := do
    reach index
    test surroundings template s condition
  value index s e := do
    reach index
    eval surroundings template s e
  visits index s kind source := do
    reach index
    loopVisits surroundings template s kind source
  bind valueName keyName visit := do
    bindVisit valueName keyName visit
    write valueName visit.2
    match keyName with
    | some name => write name visit.1
    | none => pure ()
  step index s := do
    reach index
    writeBlock s
    step surroundings template s

def textNoted : RenderM (σ × Chronicle) String := do
  let names := (← get).context.flatten
  let (_, a) ←
    (walk (noting surroundings template) template 0 template.statements.length).run { names }
  return a.output

end Noted

end Run

namespace Engine

variable (e : Engine)

def evaluateNoted (names : Env) (expr : Expr) :
    RenderM (σ × Chronicle) (Except EvalError Value) := do
  let s ← get
  match s.chronicle.layers with
  | .template r :: _ =>
    let (outcome, t) :=
      expr.evaluateNoting e.host r s.chronicle.record.names names s.engine.identity
    modify fun s => (s.withChronicle ({ · with record.names := t.store.history })).tell
      (.evaluated outcome)
    match outcome with
    | .error error => return .error error
    | .ok value =>
      modify fun s => { s with engine := { s.engine with identity := t.identity } }
      return .ok value
  | _ => (RenderM.evaluate e.host names expr).beside

def tagAction {σ : Type} (name : String) (first : Value) (data : Members) (site : CallSite) :
    RenderM σ TagAction := do
  match e.tags.get? name with
  | none => throw (.configuration (.unknownTag name))
  | some tag =>
    let first ← e.firstArgument tag first site
    let identity ← modifyGet fun s =>
      (s.engine.identity, { s with engine := { s.engine with identity := s.engine.identity + 1 } })
    return tag.run
      { first, data := .object identity data, caller := site.path, line := site.line,
        depth := site.depth, resolve := fun path => e.resolve path site.path,
        handle := fun path => e.source.handle (e.resolve path site.path) }

section

variable (render : Request → RenderM (σ × Chronicle) String)

def callNoted (name : String) (first : Value) (data : Members) (site : CallSite) :
    RenderM (σ × Chronicle) String := do
  let action ← e.tagAction name first data site
  let result ← action.perform e render site.depth
  modify (·.tell (.finished result))
  match result with
  | .ok text => return text
  | .error failure => throw (failure.at site name)

def tagNoted (name : String) (first : Value) (data : Members) (site : CallSite) :
    RenderM (σ × Chronicle) String :=
  RenderM.during (fun s => .tag name first site s.chronicle.record.scenes.length)
    (e.callNoted render name first data site)

def shortcutNoted (aliasName : String) (data : Members) (site : CallSite) :
    RenderM (σ × Chronicle) String := do
  modify (·.tell (.sought aliasName))
  match e.config.shortcuts.lookup aliasName with
  | none => throw (.configuration (.unknownShortcut aliasName))
  | some target => e.tagNoted render target.tag (.string target.path) data site

def surroundingsNoted : Surroundings (σ × Chronicle) where
  evaluate := e.evaluateNoted
  render
  tag := e.tagNoted render
  shortcut := e.shortcutNoted render

def runTemplate (template : Template) : RenderM (σ × Chronicle) String := do
  let entry := (← get).context
  RenderM.during (fun _ => .template { template, entry })
    (Run.textNoted (e.surroundingsNoted render) template)

end

/-- Notes what is asked for. Data with which no template asks for it are the host's. -/
def ask (request : Request) (r : RenderState (σ × Chronicle)) : RenderState (σ × Chronicle) :=
  let r := r.tell (.asked request)
  match r.chronicle.layers with
  | .template _ :: _ => r
  | _ => r.withChronicle fun c => { c with
      record.names.given := r.context.frames.flatMap (·.map (·.2)) ++ c.record.names.given }

variable (load : Loader σ)

def chronicleBy (render : Request → RenderM (σ × Chronicle) String) (request : Request) :
    RenderM (σ × Chronicle) String := do
  modify (ask request)
  e.activation (e.requestPath request) (RenderM.ofStore (load request)).beside
    (e.runTemplate render)

def chronicle : Nat → Request → RenderM (σ × Chronicle) String
  | 0, request => do
    modify (ask request)
    throw (.tooDeep (e.requestPath request) e.config.maxDepth)
  | room + 1, request => e.chronicleBy load (chronicle room) request

/-- A render that the host asks for, in a context of its own, and its record from the beginning. -/
def renderNoted (request : Request) (data : Value) (state : EngineState σ) :
    (Except Failure String × EngineState σ) × Record :=
  let (result, s) := (e.chronicle load e.config.maxDepth request).run.run
    { context := .ofData data.members 0, engine := ⟨(state.cache, {}), state.identity⟩ }
  ((result, ⟨s.engine.cache.1, s.engine.identity⟩), s.chronicle.record)

end Engine

end Templating
