import Templating.Render.State
import Templating.Text.Reference

/-!
Running the statements of a template. A run has its own names, its output, the captures of blocks
and contents that are open, and the calls that wait for their content. Text goes to the innermost
capture, or to the output when there is none.
-/
namespace Templating

structure Capture where
  name : String
  text : String := ""

/-- A call that waits for its content. -/
inductive Pending where
  | insert (path : String) (data : Members)
  | tag (first : Value) (data : Members)
  | shortcut (data : Members)

def Pending.setData (key : String) (value : Value) : Pending → Pending
  | insert path data => insert path (data.set key value)
  | tag first data => tag first (data.set key value)
  | shortcut data => shortcut (data.set key value)

/-- The innermost captures and pending calls come first. -/
structure Activation where
  names : Env
  output : String := ""
  captures : List Capture := []
  pending : List Pending := []

abbrev RunM (σ : Type) := StateT Activation (RenderM σ)

structure CallSite where
  path : String
  line : Nat
  directive : String
  depth : Nat

/-- What a run needs from outside: expressions are evaluated, and templates and tags rendered,
elsewhere. -/
structure Surroundings (σ : Type) where
  evaluate : Env → Expr → RenderM σ (Except EvalError Value)
  render : Request → RenderM σ String
  tag : String → Value → Members → CallSite → RenderM σ String
  shortcut : String → Members → CallSite → RenderM σ String

/-- The name under which a layout finds the text of the page, and a call its content. -/
def contentName : String := "content"

namespace Activation

def emit (text : String) (a : Activation) : Activation :=
  match a.captures with
  | [] => { a with output := a.output ++ text }
  | capture :: outer =>
    { a with captures := { capture with text := capture.text ++ text } :: outer }

def beginCapture (name : String) (a : Activation) : Activation :=
  { a with captures := { name } :: a.captures }

def await (call : Pending) (a : Activation) : Activation :=
  Activation.beginCapture contentName { a with pending := call :: a.pending }

/-- The value bound to a name, unless it is undefined. -/
def bound? (a : Activation) (name : String) : Option Value :=
  (a.names.lookup name).filter (!·.isUndefined)

def bind (name : String) (value : Value) (a : Activation) : Activation :=
  { a with names := Env.bind a.names name value }

end Activation

namespace Run

variable {σ : Type} (surroundings : Surroundings σ) (template : Template)

def emit (text : String) : RunM σ Unit := modify (·.emit text)

def evaluation (s : Statement) (e : EvalError) : Failure :=
  .evaluation template.path s.line s.directive e

def eval (s : Statement) (e : Expr) : RunM σ Value := do
  let names := (← get).names
  match ← surroundings.evaluate names e with
  | .error error => throw (evaluation template s error)
  | .ok value => return value

def path (s : Statement) (e : Expr) : RunM σ String := do
  match ← eval surroundings template s e with
  | .string path => return path
  | other => throw (evaluation template s (.invalidPath other.kind))

/-- The data of a call: the members of an object, and none for any other value. -/
def data (s : Statement) (e : Option Expr) : RunM σ Members :=
  match e with
  | some e => do return (← eval surroundings template s e).members
  | none => pure []

def test (s : Statement) : Condition → RunM σ Bool
  | .holds e => do return (← eval surroundings template s e).isTruthy
  | .bound name => do return ((← get).bound? name).isSome
  | .unbound name => do return ((← get).bound? name).isNone

def site (s : Statement) : RunM σ CallSite := do
  let depth := (← getThe (RenderState σ)).context.depth
  return ⟨template.path, s.line, s.directive, depth⟩

/-- Renders a template in the same context with one more frame of data. -/
def insert (path : String) (data : Members) : RunM σ Unit := do
  let text ← RenderM.around (fun c => { c with frames := data :: c.frames })
    (fun c => { c with frames := c.frames.tail })
    (surroundings.render (.path path template.path))
  emit text

def tag (s : Statement) (name : String) (first : Value) (data : Members) : RunM σ Unit := do
  let text ← surroundings.tag name first data (← site template s)
  emit text

def shortcut (s : Statement) (name : String) (data : Members) : RunM σ Unit := do
  let text ← surroundings.shortcut name data (← site template s)
  emit text

/-- Ends a block. Its text goes to the innermost call that waits for content, or becomes a name of
this template and of all that come later. -/
def closeBlock : RunM σ Unit := do
  let a ← get
  match a.captures with
  | [] => return
  | capture :: captures =>
    let value := Value.string capture.text
    match a.pending with
    | call :: calls =>
      set { a with captures, pending := call.setData capture.name value :: calls }
    | [] =>
      set ({ a with captures }.bind capture.name value)
      modifyThe (RenderState σ) fun r => { r with context := r.context.setGlobal capture.name value }

def closeContent : RunM σ (Option Pending) := do
  let a ← get
  match a.captures with
  | [] => return none
  | capture :: captures =>
    match a.pending with
    | [] =>
      set { a with captures }
      return none
    | call :: calls =>
      set { a with captures, pending := calls }
      return some (call.setData contentName (.string capture.text))

/-- Renders the layout, with the text so far as its content. Its text takes the place of that text.
-/
def layout (s : Statement) (e : Expr) : RunM σ Unit := do
  let path ← path surroundings template s e
  let body := (← get).output
  modify fun a => { a with output := "" }
  modifyThe (RenderState σ) fun r =>
    { r with context := r.context.setGlobal contentName (.string body) }
  let text ← surroundings.render (.path path template.path)
  modify fun a => { a with output := text }

def visits (kind : LoopKind) (source : Value) : Except EvalError (List (Value × Value)) :=
  match kind with
  | .entries => .ok (source.entries.map fun (key, value) => (.string key, value))
  | .items => source.sequence.map fun values => values.mapIdx fun i value => (.nat i, value)

def bindVisit (valueName : String) (keyName : Option String) (visit : Value × Value) :
    RunM σ Unit := do
  modify (·.bind valueName visit.2)
  match keyName with
  | some name => modify (·.bind name visit.1)
  | none => pure ()

/-- Where a conditional goes on after a failed test that leads to `index`: in the first branch there
whose test holds, or after the statement that is no further test. -/
def chooseBranch (index : Nat) : RunM σ Nat :=
  match _h : template.statements[index]? with
  | some s =>
    match s.instruction with
    | .elseBranch test (some next) _ => do
      let value ← eval surroundings template s test
      if value.isTruthy then return index + 1
      else if index < next then chooseBranch next
      else return index + 1
    | _ => pure (index + 1)
  | none => pure (index + 1)
termination_by template.statements.length - index
decreasing_by
  have := (List.getElem?_eq_some_iff.mp _h).1
  omega

/-- A statement that leads to the one after it. -/
def step (s : Statement) : RunM σ Unit :=
  match s.instruction with
  | .literal text => emit text
  | .emit e => do
    let value ← eval surroundings template s e
    emit value.toText
  | .emitEncoded e => do
    let value ← eval surroundings template s e
    emit (String.ofList (Text.encode value.toText.toList))
  | .put name => do
    match (← get).bound? name with
    | some value => emit value.toText
    | none => pure ()
  | .block name => modify (·.beginCapture name)
  | .closeBlock => closeBlock
  | .layout path => layout surroundings template s path
  | .insert target arguments content => do
    let path ← path surroundings template s target
    let data ← data surroundings template s arguments
    if content then modify (·.await (.insert path data)) else insert surroundings template path data
  | .closeInsert => do
    match ← closeContent with
    | some (.insert path data) => insert surroundings template path data
    | _ => pure ()
  | .tag name first arguments content => do
    let first ← eval surroundings template s first
    let data ← data surroundings template s arguments
    if content then modify (·.await (.tag first data))
    else tag surroundings template s name first data
  | .closeTag name => do
    match ← closeContent with
    | some (.tag first data) => tag surroundings template s name first data
    | _ => pure ()
  | .shortcut name arguments content => do
    let data ← data surroundings template s arguments
    if content then modify (·.await (.shortcut data))
    else shortcut surroundings template s name data
  | .closeShortcut name => do
    match ← closeContent with
    | some (.shortcut data) => shortcut surroundings template s name data
    | _ => pure ()
  | _ => pure ()

/-- Runs the statements from `index` up to `stop`. Branches and loops only ever lead forward. -/
def exec (index stop : Nat) : RunM σ Unit :=
  if index < stop then
    match _h : template.statements[index]? with
    | none => pure ()
    | some s =>
      match s.instruction with
      | .branch condition next => do
        let holds ← test surroundings template s condition
        let target ← if holds then pure (index + 1) else
          match next with
          | some next => chooseBranch surroundings template next
          | none => pure (index + 1)
        if index < target then exec target stop
      | .elseBranch _ _ (some target) => if index < target then exec target stop else pure ()
      | .otherwise (some target) => if index < target then exec target stop else pure ()
      | .loop kind valueName keyName source (some target) => do
        let value ← eval surroundings template s source
        match visits kind value with
        | .error e => throw (evaluation template s e)
        | .ok visits =>
          visits.forM fun visit => do
            bindVisit valueName keyName visit
            exec (index + 1) target
          if index ≤ target then exec (target + 1) stop
      | _ => do
        step surroundings template s
        exec (index + 1) stop
  else pure ()
termination_by template.statements.length - index
decreasing_by
  all_goals
    have := (List.getElem?_eq_some_iff.mp _h).1
    omega

def text : RenderM σ String := do
  let names := (← get).context.flatten
  let (_, a) ← (exec surroundings template 0 template.statements.length).run { names }
  return a.output

end Run
end Templating
