import Templating.Proofs.Simulation

/-!
Running a nest without captures and pending calls. What a collector collects is the text that its body
writes, in the place of its own: a block gives it to the call around it, or to the names and globals,
and a call finds it among its data.
-/
namespace Templating

/-- What a nest writes on: the names, the text so far, and the data of the call around it if there is
one. -/
structure Sheet where
  names : Env
  text : String := ""
  call : Option Members := none

abbrev WriteM (σ : Type) := StateT Sheet (RenderM σ)

namespace WriteM

variable {σ α : Type}

/-- An action of a run on names and text, where nothing is captured and no call waits. -/
def alone (x : RunM σ α) : WriteM σ α := fun sheet => do
  let (v, a) ← x.run { names := sheet.names, output := sheet.text }
  return (v, { sheet with names := a.names, text := a.output })

def apart (body : WriteM σ Unit) : WriteM σ String := fun sheet => do
  let ((), inner) ← body.run { sheet with text := "" }
  return (inner.text, { inner with text := sheet.text })

/-- The data of a call with the body as its content. Blocks of the body are among them. -/
def content (data : Members) (body : WriteM σ Unit) : WriteM σ Members := fun sheet => do
  let ((), inner) ← body.run { names := sheet.names, call := some data }
  return ((inner.call.getD data).set contentName (.string inner.text),
    { sheet with names := inner.names })

/-- Gives the text of a block to the call around it, or else to this template and all later ones. -/
def publish (name text : String) : WriteM σ Unit := do
  let sheet ← get
  match sheet.call with
  | some data => set { sheet with call := some (data.set name (.string text)) }
  | none =>
    set { sheet with names := Env.bind sheet.names name (.string text) }
    modifyThe (RenderState σ) fun r =>
      { r with context := r.context.setGlobal name (.string text) }

theorem run_apart_bind {β : Type} (body : WriteM σ Unit) (next : String → WriteM σ β)
    (sheet : Sheet) : (apart body >>= next).run sheet =
      body.run { sheet with text := "" } >>= fun p =>
        (next p.2.text).run { p.2 with text := sheet.text } := by
  rw [StateT.run_bind]
  change (body.run { sheet with text := "" } >>= _) >>= _ = _
  rw [bind_assoc]
  rfl

theorem run_content_bind {β : Type} (data : Members) (body : WriteM σ Unit)
    (next : Members → WriteM σ β) (sheet : Sheet) : (content data body >>= next).run sheet =
      body.run { names := sheet.names, call := some data } >>= fun p =>
        (next ((p.2.call.getD data).set contentName (.string p.2.text))).run
          { sheet with names := p.2.names } := by
  rw [StateT.run_bind]
  change (body.run { names := sheet.names, call := some data } >>= _) >>= _ = _
  rw [bind_assoc]
  rfl

theorem run_publish_of_none {sheet : Sheet} (h : sheet.call = none) (name text : String) :
    (publish (σ := σ) name text).run sheet = (do
      modifyThe (RenderState σ) fun r =>
        { r with context := r.context.setGlobal name (.string text) }
      pure ((), { sheet with names := Env.bind sheet.names name (.string text) })) := by
  unfold publish
  rw [StateT.run_bind]
  change (pure (sheet, sheet) >>= _ : RenderM σ _) = _
  rw [pure_bind]
  simp only [h]
  rfl

theorem run_publish_of_some {sheet : Sheet} {data : Members} (h : sheet.call = some data)
    (name text : String) :
    (publish (σ := σ) name text).run sheet =
      pure ((), { sheet with call := some (data.set name (.string text)) }) := by
  unfold publish
  rw [StateT.run_bind]
  change (pure (sheet, sheet) >>= _ : RenderM σ _) = _
  rw [pure_bind]
  simp only [h]
  rfl

end WriteM

section Write

open WriteM

variable {σ : Type} (surroundings : Surroundings σ) (template : Template)

mutual

def Nest.write : Nest → WriteM σ Unit
  | .nil => pure ()
  | .plain s _ rest => do
    alone (Run.step surroundings template s)
    rest.write
  | .conditional s test _ body branches _ rest => do
    if ← alone (Run.test surroundings template s test) then body.write else branches.write
    rest.write
  | .loop s head _ body _ rest => do
    let visits ← alone (Run.loopVisits surroundings template s head.kind head.source)
    visits.forM fun visit => do
      alone (Run.bindVisit head.value head.key visit)
      body.write
    rest.write
  | .collecting _ (.block name) body _ rest => do
    publish name (← apart body.write)
    rest.write
  | .collecting s (.insert target arguments) body _ rest => do
    let path ← alone (Run.path surroundings template s target)
    let data ← alone (Run.data surroundings template s arguments)
    let data ← content data body.write
    alone (Run.insert surroundings template path data)
    rest.write
  | .collecting s (.tag name first arguments) body e rest => do
    let first ← alone (Run.eval surroundings template s first)
    let data ← alone (Run.data surroundings template s arguments)
    let data ← content data body.write
    alone (Run.tag surroundings template e name first data)
    rest.write
  | .collecting s (.shortcut name arguments) body e rest => do
    let data ← alone (Run.data surroundings template s arguments)
    let data ← content data body.write
    alone (Run.shortcut surroundings template e name data)
    rest.write

def Branches.write : Branches → WriteM σ Unit
  | .nil => pure ()
  | .elseBranch s test _ _ body more => do
    let value ← alone (Run.eval surroundings template s test)
    if value.isTruthy then body.write else more.write
  | .otherwise _ _ body => body.write

end

end Write

namespace Pending

def data : Pending → Members
  | insert _ data => data
  | tag _ data => data
  | shortcut data => data

def withData (data : Members) : Pending → Pending
  | insert path _ => insert path data
  | tag first _ => tag first data
  | shortcut _ => shortcut data

@[simp] theorem withData_data (call : Pending) : call.withData call.data = call := by
  cases call <;> rfl

@[simp] theorem data_withData (call : Pending) (data : Members) :
    (call.withData data).data = data := by
  cases call <;> rfl

@[simp] theorem withData_withData (call : Pending) (data data' : Members) :
    (call.withData data).withData data' = call.withData data' := by
  cases call <;> rfl

@[simp] theorem setData_withData (call : Pending) (data : Members) (key : String)
    (value : Value) :
    (call.withData data).setData key value = call.withData (data.set key value) := by
  cases call <;> rfl

end Pending

namespace Activation

/-- What an activation writes on: its innermost capture, or else its output, and the data of its
innermost call. -/
def sheet (a : Activation) : Sheet where
  names := a.names
  text := match a.captures with
    | [] => a.output
    | capture :: _ => capture.text
  call := a.pending.head?.map Pending.data

def withSheet (a : Activation) (sheet : Sheet) : Activation where
  names := sheet.names
  output := match a.captures with
    | [] => sheet.text
    | _ :: _ => a.output
  captures := match a.captures with
    | [] => []
    | capture :: outer => { capture with text := sheet.text } :: outer
  pending := match a.pending with
    | [] => []
    | call :: outer => call.withData (sheet.call.getD call.data) :: outer

variable (a : Activation) (sheet : Sheet)

@[simp] theorem withSheet_names : (a.withSheet sheet).names = sheet.names := rfl

@[simp] theorem withSheet_sheet : a.withSheet a.sheet = a := by
  obtain ⟨names, output, captures, pending⟩ := a
  cases captures <;> cases pending <;> simp [withSheet, Activation.sheet]

@[simp] theorem length_captures_withSheet :
    (a.withSheet sheet).captures.length = a.captures.length := by
  unfold withSheet
  cases a.captures <;> rfl

@[simp] theorem length_pending_withSheet :
    (a.withSheet sheet).pending.length = a.pending.length := by
  unfold withSheet
  cases a.pending <;> rfl

theorem emit_withSheet (text : String) :
    (a.withSheet sheet).emit text = a.withSheet { sheet with text := sheet.text ++ text } := by
  unfold withSheet emit
  cases a.captures <;> rfl

theorem bind_withSheet (name : String) (value : Value) :
    (a.withSheet sheet).bind name value =
      a.withSheet { sheet with names := Env.bind sheet.names name value } := rfl

end Activation

namespace Run

variable {σ : Type} {a : Activation} {capture : Capture} {captures : List Capture}

theorem closeBlock_of_no_call (hcaptures : a.captures = capture :: captures)
    (hpending : a.pending = []) :
    (closeBlock (σ := σ)).run a = (do
      modifyThe (RenderState σ) fun r =>
        { r with context := r.context.setGlobal capture.name (.string capture.text) }
      pure ((), ({ a with captures }).bind capture.name (.string capture.text))) := by
  unfold closeBlock
  rw [StateT.run_bind]
  change (pure (a, a) >>= _ : RenderM σ _) = _
  rw [pure_bind]
  simp only [hcaptures, hpending]
  rfl

theorem closeBlock_of_call {call : Pending} {calls : List Pending}
    (hcaptures : a.captures = capture :: captures) (hpending : a.pending = call :: calls) :
    (closeBlock (σ := σ)).run a =
      pure ((), { a with
        captures
        pending := call.setData capture.name (.string capture.text) :: calls }) := by
  unfold closeBlock
  rw [StateT.run_bind]
  change (pure (a, a) >>= _ : RenderM σ _) = _
  rw [pure_bind]
  simp only [hcaptures, hpending]
  rfl

theorem closeContent_of_call {call : Pending} {calls : List Pending}
    (hcaptures : a.captures = capture :: captures) (hpending : a.pending = call :: calls) :
    (closeContent (σ := σ)).run a =
      pure (some (call.setData contentName (.string capture.text)),
        { a with captures, pending := calls }) := by
  unfold closeContent
  rw [StateT.run_bind]
  change (pure (a, a) >>= _ : RenderM σ _) = _
  rw [pure_bind]
  simp only [hcaptures, hpending]
  rfl

theorem run_closeContent_bind {β : Type} {call : Pending} {calls : List Pending}
    (hcaptures : a.captures = capture :: captures) (hpending : a.pending = call :: calls)
    (next : Option Pending → RunM σ β) :
    (closeContent >>= next).run a =
      (next (some (call.setData contentName (.string capture.text)))).run
        { a with captures, pending := calls } := by
  rw [StateT.run_bind, closeContent_of_call hcaptures hpending, pure_bind]

end Run

end Templating
