import Templating.Proofs.Moments

/-!
Watched runs beside writing. An activation is a sheet with stacks around it, and a nest does to the
sheet what it writes and to the stacks nothing that lasts.
-/
namespace Templating

variable {σ α β : Type}

structure Shows (a b : Activation) (sheet : Sheet) : Prop where
  eq : b = a.withSheet sheet
  call : sheet.call.isSome = !a.pending.isEmpty

theorem Shows.self (a : Activation) : Shows a a a.sheet where
  eq := a.withSheet_sheet.symm
  call := by
    unfold Activation.sheet
    cases a.pending <;> rfl

namespace Shows

variable {a b b' : Activation} {sheet inner : Sheet}

theorem call_eq (h : Shows a b sheet) : sheet.call = b.pending.head?.map Pending.data := by
  obtain ⟨rfl, hcall⟩ := h
  unfold Activation.withSheet
  cases hp : a.pending with
  | nil => simpa [hp] using hcall
  | cons call outer =>
    obtain ⟨data, hdata⟩ := Option.isSome_iff_exists.mp (hcall.trans (by simp [hp]))
    simp [hdata]

theorem length_captures (h : Shows a b sheet) : b.captures.length = a.captures.length := by
  rw [h.eq, Activation.length_captures_withSheet]

theorem length_pending (h : Shows a b sheet) : b.pending.length = a.pending.length := by
  rw [h.eq, Activation.length_pending_withSheet]

theorem bind (h : Shows a b sheet) (name : String) (value : Value) :
    Shows a (b.bind name value) { sheet with names := Env.bind sheet.names name value } where
  eq := by rw [h.eq, Activation.bind_withSheet]
  call := h.call

/-- A member set in the data of the innermost call is one of the data on the sheet. -/
theorem setData (h : Shows a b sheet) {call : Pending} {calls : List Pending}
    (hpending : b.pending = call :: calls) (key : String) (value : Value) :
    Shows a { b with pending := call.setData key value :: calls }
      { sheet with call := some (call.data.set key value) } := by
  obtain ⟨rfl, hcall⟩ := h
  cases hp : a.pending with
  | nil => simp [Activation.withSheet, hp] at hpending
  | cons outermost outer =>
    simp only [Activation.withSheet, hp, List.cons.injEq] at hpending
    obtain ⟨rfl, rfl⟩ := hpending
    constructor
    · simp [Activation.withSheet, hp]
    · simp [hp]

/-- The body of a block begins with no text of its own. -/
theorem beginCapture (h : Shows a b sheet) (name : String) :
    Shows (b.beginCapture name) (b.beginCapture name) { sheet with text := "" } := by
  have hself := Shows.self (b.beginCapture name)
  have hsheet : (b.beginCapture name).sheet = { sheet with text := "" } := by
    have hcall : sheet.call = (b.beginCapture name).pending.head?.map Pending.data := h.call_eq
    rw [hcall, h.eq]
    rfl
  rwa [hsheet] at hself

/-- The content of a call begins with no text and the data of the call. -/
theorem await (h : Shows a b sheet) (call : Pending) :
    Shows (b.await call) (b.await call) { names := sheet.names, call := some call.data } := by
  have hself := Shows.self (b.await call)
  have hsheet : (b.await call).sheet = { names := sheet.names, call := some call.data } := by
    rw [h.eq]
    rfl
  rwa [hsheet] at hself

/-- After the body of a block its capture is on top, and without it the text goes on where it was. -/
theorem endCapture (h : Shows a b sheet) {name : String}
    (hinner : Shows (b.beginCapture name) b' inner) :
    b'.captures = { name, text := inner.text } :: b.captures ∧
      Shows a { b' with captures := b.captures } { inner with text := sheet.text } := by
  have hempty : (b.beginCapture name).pending.isEmpty = a.pending.isEmpty := by
    have hlength := h.length_pending
    cases hp : a.pending <;> cases hb : b.pending <;> simp_all [Activation.beginCapture]
  obtain ⟨rfl, hcall⟩ := h
  obtain ⟨rfl, hinnerCall⟩ := hinner
  rw [hempty] at hinnerCall
  refine ⟨rfl, ?_, hinnerCall⟩
  cases hp : a.pending with
  | nil => simp [Activation.withSheet, Activation.beginCapture, hp]
  | cons call outer =>
    obtain ⟨data, hdata⟩ := Option.isSome_iff_exists.mp (hinnerCall.trans (by simp [hp]))
    simp [Activation.withSheet, Activation.beginCapture, hp, hdata]

/-- After the content of a call its capture and the call are on top, and without them it goes on as
before but for the names. -/
theorem endContent (h : Shows a b sheet) {call : Pending} (hinner : Shows (b.await call) b' inner) :
    b'.captures = { name := contentName, text := inner.text } :: b.captures ∧
      b'.pending = call.withData (inner.call.getD call.data) :: b.pending ∧
      Shows a { b' with captures := b.captures, pending := b.pending }
        { sheet with names := inner.names } := by
  obtain ⟨rfl, hcall⟩ := h
  obtain ⟨rfl, -⟩ := hinner
  exact ⟨rfl, rfl, rfl, hcall⟩

end Shows

/-- A watched action and a writing one come to the same end, and the activation is `a` all along but
for what is written. The moments are as `P` says before and afterwards. -/
def Tracks (P : List Moment → Prop) (a : Activation) (x : RunM (σ × List Moment) α)
    (y : WriteM σ α) : Prop :=
  ∀ ⦃b sheet⦄, Shows a b sheet →
    RenderM.Relates (Beside P) (fun p q => p.1 = q.1 ∧ Shows a p.2 q.2) (x.run b) (y.run sheet)

namespace Tracks

variable {P : List Moment → Prop} {a : Activation}

protected theorem pure (v : α) : Tracks (σ := σ) P a (pure v) (pure v) := by
  intro b sheet h
  exact RenderM.Relates.pure ⟨rfl, h⟩

protected theorem bind {x : RunM (σ × List Moment) α} {y : WriteM σ α}
    {f : α → RunM (σ × List Moment) β} {g : α → WriteM σ β} (hxy : Tracks P a x y)
    (hfg : ∀ v, Tracks P a (f v) (g v)) : Tracks P a (x >>= f) (y >>= g) := by
  intro b sheet h
  refine RenderM.Relates.bind (hxy h) ?_
  rintro ⟨v, b'⟩ ⟨_, sheet'⟩ ⟨rfl, h'⟩
  exact hfg v h'

theorem forM {ι : Type} {f : ι → RunM (σ × List Moment) Unit} {g : ι → WriteM σ Unit}
    (hfg : ∀ i, Tracks P a (f i) (g i)) (is : List ι) : Tracks P a (is.forM f) (is.forM g) := by
  induction is with
  | nil => exact Tracks.pure _
  | cons i is ih => exact (hfg i).bind fun _ => ih

end Tracks

/-- An activation without stacks beside one that is `a` but for names and text. -/
structure Bare (a : Activation) (call : Option Members) (b c : Activation) : Prop where
  captures : c.captures = []
  pending : c.pending = []
  eq : b = a.withSheet { names := c.names, text := c.output, call }

namespace Bare

variable {a b c : Activation} {call : Option Members}

theorem emit (h : Bare a call b c) (text : String) : Bare a call (b.emit text) (c.emit text) := by
  have hc : c.emit text = { c with output := c.output ++ text } := by
    unfold Activation.emit
    rw [h.captures]
  rw [h.eq, Activation.emit_withSheet, hc]
  exact ⟨h.captures, h.pending, rfl⟩

theorem bind (h : Bare a call b c) (name : String) (value : Value) :
    Bare a call (b.bind name value) (c.bind name value) := by
  rw [h.eq, Activation.bind_withSheet]
  exact ⟨h.captures, h.pending, rfl⟩

theorem congruence (a : Activation) (call : Option Members) :
    Activation.Congruence (Bare a call) where
  names h := by rw [h.eq, Activation.withSheet_names]
  emit h text := h.emit text
  bind h name value := h.bind name value

/-- Where nothing is captured the text is the output itself. -/
theorem output (h : Bare a call b c) (ha : a.captures = []) : b.output = c.output := by
  rw [h.eq]
  unfold Activation.withSheet
  rw [ha]

theorem setOutput (h : Bare a call b c) (ha : a.captures = []) (text : String) :
    Bare a call { b with output := text } { c with output := text } := by
  refine ⟨h.captures, h.pending, ?_⟩
  rw [h.eq]
  unfold Activation.withSheet
  rw [ha]

end Bare

namespace Collector.Opens

variable {collector : Collector} {call : Pending}

theorem captureName (h : collector.Opens call) : collector.captureName = contentName := by
  cases collector with
  | block name => exact h.elim
  | _ => rfl

theorem withData (h : collector.Opens call) (data : Members) :
    collector.Opens (call.withData data) := by
  cases collector <;> cases call <;> first | exact h.elim | trivial

end Collector.Opens

section Statements

variable {P : List Moment → Prop} {a : Activation}

/-- What an action does to an activation with stacks and to one without is what it writes. -/
theorem Tracks.alone {x : RunM (σ × List Moment) α} {y : RunM σ α}
    (h : ∀ call, RunM.Simulates (Beside P) (Bare a call) x y) :
    Tracks P a x (WriteM.alone y) := by
  intro b sheet hshow
  have hbare : Bare a sheet.call b { names := sheet.names, output := sheet.text } :=
    ⟨rfl, rfl, hshow.eq⟩
  have hbind := RenderM.Relates.bind (h sheet.call hbare)
    (Q := fun p q => p.1 = q.1 ∧ Shows a p.2 q.2)
    (f := fun p => pure p)
    (g := fun p => pure (p.1, { sheet with names := p.2.names, text := p.2.output })) ?_
  · rw [bind_pure] at hbind
    exact hbind
  · rintro ⟨v, b'⟩ ⟨_, c'⟩ ⟨rfl, hbare'⟩
    exact RenderM.Relates.pure ⟨rfl, hbare'.eq, hshow.call⟩

variable (surroundings : Surroundings σ) (template : Template)

theorem run_watch (i : Nat) (s : Statement) (b : Activation)
    (state : RenderState (σ × List Moment)) :
    ((Run.watch surroundings template i s).run b).run.run state =
      ((Run.step surroundings.beside template s).run b).run.run (state.keep ⟨i, b⟩) := rfl

/-- Expressions and calls do the same with stacks below them and without. -/
theorem bare_congruence (P : List Moment → Prop) (a : Activation) (call : Option Members) :
    RunM.Congruence surroundings.beside surroundings template
      (RunM.Simulates (Beside P) (Bare a call)) :=
  Run.congruence template (Surroundings.beside_simulates P surroundings) (Bare.congruence a call)

variable {template} {base : List Moment} {i : Nat} {s : Statement}

/-- A moment that neither closes nor renders a layout fits any others. -/
theorem Moment.Fits.of_other {earlier : List Moment} {m : Moment}
    (hs : template.statements[m.index]? = some s) (hlayout : s.instruction.isLayout = false)
    (hclosing : s.instruction.isClosing = false) : m.Fits template earlier := by
  intro s' hs'
  obtain rfl : s = s' := Option.some.inj (hs.symm.trans hs')
  simp [hlayout, hclosing]

theorem isClosing_of_isPlain {instruction : Instruction} (h : instruction.isPlain = true) :
    instruction.isClosing = false := by
  cases instruction <;> first | rfl | cases h

theorem Shows.keep {b : Activation} {sheet : Sheet} (h : Shows a b sheet)
    {state : RenderState (σ × List Moment)} {t : RenderState σ}
    (hst : state.Matches (Beside (Kept template a base)) t)
    (hfit : Moment.Fits template ⟨i, b⟩ state.engine.cache.2) :
    (state.keep ⟨i, b⟩).Matches (Beside (Kept template a base)) t := by
  refine ⟨hst.context, hst.identity, hst.cache.1, hst.cache.2.cons hfit ?_ ?_⟩
  · rw [h.eq, Activation.length_captures_withSheet]
  · rw [h.eq, Activation.length_pending_withSheet]

/-- A plain statement does what it writes; one with a layout needs the stacks empty. -/
theorem tracks_plain (hs : template.statements[i]? = some s) (hplain : s.instruction.isPlain = true)
    (hempty : s.instruction.isLayout = true → a.captures = [] ∧ a.pending = []) :
    Tracks (Kept template a base) a (Run.watch surroundings template i s)
      (WriteM.alone (Run.step surroundings template s)) := by
  have hsurroundings := Surroundings.beside_simulates (Kept template a base) surroundings
  have hstep : Tracks (Kept template a base) a (Run.step surroundings.beside template s)
      (WriteM.alone (Run.step surroundings template s)) := by
    refine Tracks.alone fun call => ?_
    cases hlayout : s.instruction.isLayout with
    | false =>
      exact (bare_congruence surroundings template _ a call).step_of_plain hplain hlayout
    | true =>
      obtain ⟨hcaptures, -⟩ := hempty hlayout
      unfold Run.step
      cases hi : s.instruction with
      | layout e =>
        exact Run.layout_simulates template hsurroundings (Bare.congruence a call)
          (fun h => h.output hcaptures) (fun h text => h.setOutput hcaptures text) s e
      | _ => simp [hi, Instruction.isLayout] at hlayout
  intro b sheet hshow state t hst
  rw [run_watch]
  refine hstep hshow (hshow.keep hst ?_)
  intro s' hs'
  obtain rfl : s = s' := Option.some.inj (hs.symm.trans hs')
  refine ⟨fun hlayout => ?_, fun hclosing => ?_⟩
  · obtain ⟨hcaptures, hpending⟩ := hempty hlayout
    rw [hshow.eq]
    unfold Activation.withSheet
    rw [hcaptures, hpending]
    exact ⟨rfl, rfl⟩
  · rw [isClosing_of_isPlain hplain] at hclosing
    cases hclosing

/-- What has been on a stack since the moment that raised it to this height was pushed then. -/
theorem Kept.opener?_eq {earlier moments : List Moment} {a' b b' : Activation} {j : Nat}
    (h : Kept template a' (⟨i, b⟩ :: earlier) moments) {height : Activation → Nat}
    (hheight : ∀ n : Activation, a'.captures.length ≤ n.captures.length ∧
      a'.pending.length ≤ n.pending.length → height a' ≤ height n)
    (heq : height b' = height a') (hlower : height b < height a') :
    Moment.opener? height ⟨j, b'⟩ moments = some i := by
  obtain ⟨-, added, rfl, hadded⟩ := h
  refine Moment.opener?_eq (k := ⟨i, b⟩) (fun n hn => ?_) ?_
  · rw [heq]
    exact hheight _ (hadded n hn)
  · rw [heq]
    exact hlower

/-- The end of a block publishes the text of its body. -/
theorem relates_closeBlock {P : List Moment → Prop} {b b' : Activation} {sheet inner : Sheet}
    {name : String} (hshow : Shows a b sheet) (hinner : Shows (b.beginCapture name) b' inner) :
    RenderM.Relates (σ := σ × List Moment) (Beside P) (fun p q => p.1 = q.1 ∧ Shows a p.2 q.2)
      (Run.closeBlock.run b')
      ((WriteM.publish name inner.text).run { inner with text := sheet.text }) := by
  obtain ⟨hcaptures, hshow'⟩ := hshow.endCapture hinner
  have hcall : ({ inner with text := sheet.text } : Sheet).call =
      b'.pending.head?.map Pending.data := hshow'.call_eq
  cases hpending : b'.pending with
  | nil =>
    rw [hpending] at hcall
    rw [Run.closeBlock_of_no_call hcaptures hpending, WriteM.run_publish_of_none hcall]
    refine RenderM.Relates.bind (P := fun _ _ => True) ?_ ?_
    · intro state t hst
      exact ⟨.ok trivial, hst.withContext (·.setGlobal name (.string inner.text))⟩
    · rintro _ _ -
      exact RenderM.Relates.pure ⟨rfl, hshow'.bind name _⟩
  | cons call calls =>
    rw [hpending] at hcall
    rw [Run.closeBlock_of_call hcaptures hpending, WriteM.run_publish_of_some hcall]
    exact RenderM.Relates.pure ⟨rfl, hshow'.setData hpending name _⟩

/-- A block captures what its body writes and publishes it. -/
theorem tracks_block {name : String} {body : Nest} {e : Statement}
    (hat : (Nest.collecting s (.block name) body e .nil).At template.statements i)
    (hbody : ∀ a' base', Tracks (Kept template a' base') a'
      (body.watched surroundings template (i + 1))
      (body.write surroundings template)) :
    Tracks (Kept template a base) a
      (do
        Run.watch surroundings template i (s.as (.block name))
        body.watched surroundings template (i + 1)
        Run.watch surroundings template (i + 1 + body.size) (e.as .closeBlock))
      (do WriteM.publish name (← WriteM.apart (body.write surroundings template))) := by
  obtain ⟨hopen, hbodyAt, hclose, -⟩ := id hat
  intro b sheet hshow state t hst
  have hopening := hshow.keep hst (.of_other hopen rfl rfl)
  have hlower : b.captures.length < (b.beginCapture name).captures.length := Nat.lt_succ_self _
  have hinner : RenderM.Relates
      (Beside (Kept template (b.beginCapture name) (⟨i, b⟩ :: state.engine.cache.2)))
      (fun p q => p.1 = q.1 ∧ Shows a p.2 q.2)
      ((do
        body.watched surroundings template (i + 1)
        Run.watch surroundings template (i + 1 + body.size) (e.as .closeBlock)).run
          (b.beginCapture name))
      ((do WriteM.publish name (← WriteM.apart (body.write surroundings template))).run sheet) := by
    rw [StateT.run_bind, WriteM.run_apart_bind]
    refine RenderM.Relates.bind (hbody _ _ (hshow.beginCapture name)) ?_
    rintro ⟨_, b'⟩ ⟨_, inner⟩ ⟨-, hinner⟩
    intro state' t' hst'
    refine relates_closeBlock hshow hinner (hinner.keep (i := i + 1 + body.size) hst' ?_)
    obtain ⟨hcaptures, -⟩ := hshow.endCapture hinner
    intro s' hs'
    obtain rfl : e.as .closeBlock = s' := Option.some.inj (hclose.symm.trans hs')
    refine ⟨(by intro h; cases h), fun _ => ⟨i, .block name, rfl, ?_⟩⟩
    exact
      { encloses := ⟨s, body, e, hat, rfl⟩
        capture := ⟨_, _, hcaptures, rfl⟩
        captureOpener := hst'.cache.2.opener?_eq (fun _ h => h.1) hinner.length_captures hlower
        call := fun h => by cases h
        callOpener := fun h => by cases h }
  obtain ⟨hresult, hstate⟩ := hinner (s := state.keep ⟨i, b⟩) (t := t)
    ⟨hst.context, hst.identity, hst.cache.1, .refl hopening.cache.2.fit⟩
  refine ⟨hresult, hstate.context, hstate.identity, hstate.cache.1, ?_⟩
  refine hstate.cache.2.trans hopening.cache.2 ?_ ?_
  · rw [← hshow.length_captures]
    exact Nat.le_of_lt hlower
  · rw [← hshow.length_pending]
    exact Nat.le_refl _

/-- The content of a call is collected and the call finished with it. -/
theorem relates_content {collector : Collector} {body : Nest} {e : Statement}
    (hat : (Nest.collecting s collector body e .nil).At template.statements i)
    (hbody : ∀ a' base', Tracks (Kept template a' base') a'
      (body.watched surroundings template (i + 1))
      (body.write surroundings template))
    {call : Pending} (hopens : collector.Opens call)
    {finish : Members → RunM (σ × List Moment) Unit} {finish' : Members → RunM σ Unit}
    (hclosing : ∀ (b : Activation) (capture : Capture) (captures : List Capture) (data : Members)
      (calls : List Pending), b.captures = capture :: captures →
      b.pending = call.withData data :: calls →
      (Run.step surroundings.beside template (e.as collector.closing)).run b =
        (finish (data.set contentName (.string capture.text))).run
          { b with captures, pending := calls })
    (hfinish : ∀ P data, Tracks P a (finish data) (WriteM.alone (finish' data)))
    {b₀ b : Activation} {sheet : Sheet} (earlier : List Moment) (hshow : Shows a b sheet)
    (hcaptures₀ : b₀.captures.length = b.captures.length)
    (hpending₀ : b₀.pending.length = b.pending.length) :
    RenderM.Relates (Beside (Kept template (b.await call) (⟨i, b₀⟩ :: earlier)))
      (fun p q => p.1 = q.1 ∧ Shows a p.2 q.2)
      ((do
        body.watched surroundings template (i + 1)
        Run.watch surroundings template (i + 1 + body.size) (e.as collector.closing)).run
          (b.await call))
      ((do
        let data ← WriteM.content call.data (body.write surroundings template)
        WriteM.alone (finish' data)).run sheet) := by
  obtain ⟨hopen, hbodyAt, hclose, -⟩ := id hat
  rw [StateT.run_bind, WriteM.run_content_bind]
  refine RenderM.Relates.bind (hbody _ _ (hshow.await call)) ?_
  rintro ⟨_, b'⟩ ⟨_, inner⟩ ⟨-, hinner⟩
  obtain ⟨hcaptures, hpending, hshow'⟩ := hshow.endContent hinner
  intro state t hst
  have hkeep := hinner.keep (i := i + 1 + body.size) hst ?_
  · rw [run_watch, hclosing b' _ _ _ _ hcaptures hpending]
    exact hfinish _ _ hshow' hkeep
  · intro s' hs'
    obtain rfl : e.as collector.closing = s' := Option.some.inj (hclose.symm.trans hs')
    refine ⟨fun h => ?_, fun _ => ⟨i, collector, rfl, ?_⟩⟩
    · cases collector <;> cases h
    · exact
        { encloses := ⟨s, body, e, hat, rfl⟩
          capture := ⟨_, _, hcaptures, hopens.captureName.symm⟩
          captureOpener := hst.cache.2.opener?_eq (fun _ h => h.1) hinner.length_captures
            (Nat.lt_succ_of_le (Nat.le_of_eq hcaptures₀))
          call := fun _ => ⟨_, _, hpending, hopens.withData _⟩
          callOpener := fun _ => hst.cache.2.opener?_eq (fun _ h => h.2) hinner.length_pending
            (Nat.lt_succ_of_le (Nat.le_of_eq hpending₀)) }

variable (base) in
/-- A call with content evaluates its arguments, collects its content and is finished with it. -/
theorem tracks_call {collector : Collector} {body : Nest} {e : Statement}
    (hat : (Nest.collecting s collector body e .nil).At template.statements i)
    (hbody : ∀ a' base', Tracks (Kept template a' base') a'
      (body.watched surroundings template (i + 1))
      (body.write surroundings template))
    (call : α → Pending) (hopens : ∀ v, collector.Opens (call v))
    (arguments : RunM (σ × List Moment) α) (arguments' : WriteM σ α)
    (hopening : Run.step surroundings.beside template (s.as collector.opening) =
      arguments >>= fun v => modify (·.await (call v)))
    (harguments : ∀ P, Tracks P a arguments arguments')
    (finish : α → Members → RunM (σ × List Moment) Unit) (finish' : α → Members → RunM σ Unit)
    (hclosing : ∀ (v : α) (b : Activation) (capture : Capture) (captures : List Capture)
      (data : Members) (calls : List Pending), b.captures = capture :: captures →
      b.pending = (call v).withData data :: calls →
      (Run.step surroundings.beside template (e.as collector.closing)).run b =
        (finish v (data.set contentName (.string capture.text))).run
          { b with captures, pending := calls })
    (hfinish : ∀ P v data, Tracks P a (finish v data) (WriteM.alone (finish' v data))) :
    Tracks (Kept template a base) a
      (do
        Run.watch surroundings template i (s.as collector.opening)
        body.watched surroundings template (i + 1)
        Run.watch surroundings template (i + 1 + body.size) (e.as collector.closing))
      (do
        let v ← arguments'
        let data ← WriteM.content (call v).data (body.write surroundings template)
        WriteM.alone (finish' v data)) := by
  intro b₀ sheet₀ hshow₀ state t hst
  have hplain : ∀ instruction, collector.opening = instruction →
      instruction.isLayout = false ∧ instruction.isClosing = false := by
    rintro _ rfl
    cases collector <;> exact ⟨rfl, rfl⟩
  obtain ⟨hlayout, hclosing₀⟩ := hplain _ rfl
  have hkeep := hshow₀.keep hst (.of_other hat.1 hlayout hclosing₀)
  -- the opening statement keeps its moment, and then does what the call asks for
  have hrun : ((do
      Run.watch surroundings template i (s.as collector.opening)
      body.watched surroundings template (i + 1)
      Run.watch surroundings template (i + 1 + body.size) (e.as collector.closing)).run
        b₀).run.run state =
      ((do
      let v ← arguments
      modify fun b : Activation => b.await (call v)
      body.watched surroundings template (i + 1)
      Run.watch surroundings template (i + 1 + body.size) (e.as collector.closing)).run
        b₀).run.run (state.keep ⟨i, b₀⟩) := by
    have hstep := congrArg (fun x => ((x >>= fun _ => do
      body.watched surroundings template (i + 1)
      Run.watch surroundings template (i + 1 + body.size) (e.as collector.closing)).run
        b₀).run.run (state.keep ⟨i, b₀⟩)) hopening
    rw [bind_assoc] at hstep
    exact hstep
  rw [hrun]
  refine RenderM.Relates.bind_to (R := Beside (· = ⟨i, b₀⟩ :: state.engine.cache.2)) ?_
    (harguments _ hshow₀) ?_ ⟨hst.context, hst.identity, hst.cache.1, rfl⟩
  · rintro c d ⟨hstore, hmoments⟩
    refine ⟨hstore, ?_⟩
    rw [hmoments]
    exact hkeep.cache.2
  · rintro ⟨v, b⟩ ⟨_, sheet⟩ ⟨rfl, hshow⟩ state' t' hst'
    have hcaptures : b₀.captures.length = b.captures.length :=
      hshow₀.length_captures.trans hshow.length_captures.symm
    have hpending : b₀.pending.length = b.pending.length :=
      hshow₀.length_pending.trans hshow.length_pending.symm
    have hmatches : state'.Matches
        (Beside (Kept template (b.await (call v)) (⟨i, b₀⟩ :: state.engine.cache.2))) t' := by
      refine ⟨hst'.context, hst'.identity, hst'.cache.1, ?_⟩
      rw [hst'.cache.2]
      exact .refl hkeep.cache.2.fit
    obtain ⟨hresult, hstate⟩ := relates_content surroundings hat hbody (hopens v) (hclosing v)
      (fun P => hfinish P v) state.engine.cache.2 hshow hcaptures hpending hmatches
    refine ⟨hresult, hstate.context, hstate.identity, hstate.cache.1, ?_⟩
    refine hstate.cache.2.trans hkeep.cache.2 ?_ ?_
    · rw [← hshow.length_captures]
      exact Nat.le_succ _
    · rw [← hshow.length_pending]
      exact Nat.le_succ _

variable (template s) in
/-- An argument of a call and then its data. -/
theorem tracks_arguments {x : RunM (σ × List Moment) α} {x' : RunM σ α}
    (hx : ∀ call, RunM.Simulates (Beside P) (Bare a call) x x') (data : Option Expr) :
    Tracks P a
      (do
        let v ← x
        let data ← Run.data (surroundings.beside (μ := List Moment)) template s data
        pure (v, data))
      (do
        let v ← WriteM.alone x'
        let data ← WriteM.alone (Run.data surroundings template s data)
        pure (v, data)) := by
  refine Tracks.bind (Tracks.alone hx) fun v => ?_
  refine Tracks.bind (Tracks.alone fun call => ?_) fun data => Tracks.pure _
  exact (bare_congruence surroundings template P a call).data s _

section Calls

variable {body : Nest} {e : Statement} (hbody : ∀ a' base', Tracks (Kept template a' base') a'
  (body.watched surroundings template (i + 1))
  (body.write surroundings template))
include hbody

theorem tracks_insert {target : Expr} {data : Option Expr}
    (hat : (Nest.collecting s (.insert target data) body e .nil).At template.statements i) :
    Tracks (Kept template a base) a
      (do
        Run.watch surroundings template i (s.as (.insert target data true))
        body.watched surroundings template (i + 1)
        Run.watch surroundings template (i + 1 + body.size) (e.as .closeInsert))
      (do
        let path ← WriteM.alone (Run.path surroundings template s target)
        let data ← WriteM.alone (Run.data surroundings template s data)
        let data ← WriteM.content data (body.write surroundings template)
        WriteM.alone (Run.insert surroundings template path data)) := by
  have hpath : ∀ P call, RunM.Simulates (Beside P) (Bare a call)
      (Run.path surroundings.beside template s target) (Run.path surroundings template s target) :=
    fun P call => (bare_congruence surroundings template P a call).path s target
  have hcall := tracks_call (a := a) surroundings base hat hbody
    (fun v : String × Members => .insert v.1 v.2) (fun v => trivial) _ _ ?_
    (fun P => tracks_arguments surroundings template s (hpath P) data)
    (fun v data => Run.insert surroundings.beside template v.1 data)
    (fun v data => Run.insert surroundings template v.1 data) ?_ ?_
  · simp only [bind_assoc, pure_bind] at hcall
    exact hcall
  · simp only [bind_assoc, pure_bind]
    rfl
  · rintro ⟨path, data₀⟩ b capture captures data calls hcaptures hpending
    exact Run.run_closeContent_bind hcaptures hpending _
  · intro P v data
    exact Tracks.alone fun call => (bare_congruence surroundings template P a call).insert v.1 data

theorem tracks_tag {name : String} {first : Expr} {data : Option Expr}
    (hat : (Nest.collecting s (.tag name first data) body e .nil).At template.statements i) :
    Tracks (Kept template a base) a
      (do
        Run.watch surroundings template i (s.as (.tag name first data true))
        body.watched surroundings template (i + 1)
        Run.watch surroundings template (i + 1 + body.size) (e.as (.closeTag name)))
      (do
        let first ← WriteM.alone (Run.eval surroundings template s first)
        let data ← WriteM.alone (Run.data surroundings template s data)
        let data ← WriteM.content data (body.write surroundings template)
        WriteM.alone (Run.tag surroundings template e name first data)) := by
  have hfirst : ∀ P call, RunM.Simulates (Beside P) (Bare a call)
      (Run.eval surroundings.beside template s first) (Run.eval surroundings template s first) :=
    fun P call => (bare_congruence surroundings template P a call).eval s first
  have hcall := tracks_call (a := a) surroundings base hat hbody
    (fun v : Value × Members => .tag v.1 v.2) (fun v => trivial) _ _ ?_
    (fun P => tracks_arguments surroundings template s (hfirst P) data)
    (fun v data => Run.tag surroundings.beside template e name v.1 data)
    (fun v data => Run.tag surroundings template e name v.1 data) ?_ ?_
  · simp only [bind_assoc, pure_bind] at hcall
    exact hcall
  · simp only [bind_assoc, pure_bind]
    rfl
  · rintro ⟨first, data₀⟩ b capture captures data calls hcaptures hpending
    exact Run.run_closeContent_bind hcaptures hpending _
  · intro P v data
    exact Tracks.alone fun call =>
      (bare_congruence surroundings template P a call).tag e name v.1 data

theorem tracks_shortcut {name : String} {data : Option Expr}
    (hat : (Nest.collecting s (.shortcut name data) body e .nil).At template.statements i) :
    Tracks (Kept template a base) a
      (do
        Run.watch surroundings template i (s.as (.shortcut name data true))
        body.watched surroundings template (i + 1)
        Run.watch surroundings template (i + 1 + body.size) (e.as (.closeShortcut name)))
      (do
        let data ← WriteM.alone (Run.data surroundings template s data)
        let data ← WriteM.content data (body.write surroundings template)
        WriteM.alone (Run.shortcut surroundings template e name data)) := by
  refine tracks_call (a := a) surroundings base hat hbody .shortcut (fun v => trivial)
    (Run.data (surroundings.beside (μ := List Moment)) template s data)
    (WriteM.alone (Run.data surroundings template s data)) rfl ?_
    (fun _ data => Run.shortcut surroundings.beside template e name data)
    (fun _ data => Run.shortcut surroundings template e name data) ?_ ?_
  · intro P
    exact Tracks.alone fun call => (bare_congruence surroundings template P a call).data s _
  · intro data₀ b capture captures data calls hcaptures hpending
    exact Run.run_closeContent_bind hcaptures hpending _
  · intro P v data
    exact Tracks.alone fun call =>
      (bare_congruence surroundings template P a call).shortcut e name data

end Calls

/-- A nest may render a layout only where nothing is captured and no call waits, and that is at the
end of the list. -/
def MayEnd (template : Template) (a : Activation) (stop : Nat) : Prop :=
  a.captures = [] ∧ a.pending = [] ∨ stop < template.statements.length

theorem getElem?_lt {l : List Statement} (h : l[i]? = some s) : i < l.length :=
  (List.getElem?_eq_some_iff.mp h).1

def Template.LayoutLast (template : Template) : Prop :=
  ∀ ⦃i s⦄, template.statements[i]? = some s → s.instruction.isLayout = true →
    i + 1 = template.statements.length

mutual

/-- Walking through a nest is writing it, and the moments fit. -/
theorem Nest.tracks : ∀ (n : Nest) {i : Nat} {a : Activation} {base : List Moment},
    template.LayoutLast → n.At template.statements i → MayEnd template a (i + n.size) →
    Tracks (Kept template a base) a
      (n.watched surroundings template i)
      (n.write surroundings template)
  | .nil, i, a, base, hlayout, h, hend => Tracks.pure ()
  | .plain s hplain rest, i, a, base, hlayout, h, hend => by
    rw [Nest.size_plain] at hend
    -- a layout is the last statement of all, so the nest ends there and the stacks are empty
    have hempty : s.instruction.isLayout = true → a.captures = [] ∧ a.pending = [] := by
      intro hs
      have := hlayout h.1 hs
      rcases hend with hempty | hlt
      · exact hempty
      · omega
    refine Tracks.bind (tracks_plain surroundings h.1 hplain hempty) fun _ => ?_
    refine rest.tracks hlayout h.2 ?_
    rwa [Nat.add_right_comm]
  | .conditional s test next body branches e rest, i, a, base, hlayout, h, hend => by
    obtain ⟨hs, hbody, hbranches, he, hrest⟩ := h
    rw [Nest.size_conditional] at hend
    have hlt := getElem?_lt he
    refine Tracks.bind (Tracks.alone fun call => ?_) fun holds => ?_
    · exact (bare_congruence surroundings template _ a call).test s test
    have htail : Tracks (Kept template a base) a
        (rest.watched surroundings template (i + 1 + body.size + branches.size + 1))
        (rest.write surroundings template) :=
      rest.tracks hlayout hrest (hend.imp_right fun hlt => by omega)
    cases holds with
    | true => exact (body.tracks hlayout hbody (.inr (by omega))).bind fun _ => htail
    | false => exact (branches.tracks hlayout hbranches hlt).bind fun _ => htail
  | .loop s head stop body e rest, i, a, base, hlayout, h, hend => by
    obtain ⟨hs, hbody, he, hrest⟩ := h
    rw [Nest.size_loop] at hend
    have hlt := getElem?_lt he
    refine Tracks.bind (Tracks.alone fun call => ?_) fun visits => ?_
    · exact (bare_congruence surroundings template _ a call).loopVisits s _ _
    refine Tracks.bind (Tracks.forM (fun visit => ?_) visits) fun _ => ?_
    · refine Tracks.bind (Tracks.alone fun call => ?_) fun _ => ?_
      · exact (bare_congruence surroundings template _ a call).bindVisit _ _ visit
      · exact body.tracks hlayout hbody (.inr hlt)
    · refine rest.tracks hlayout hrest (hend.imp_right fun hlt => ?_)
      omega
  | .collecting s collector body e rest, i, a, base, hlayout, h, hend => by
    obtain ⟨hs, hbodyAt, he, hrest⟩ := id h
    rw [Nest.size_collecting] at hend
    have hat : (Nest.collecting s collector body e .nil).At template.statements i :=
      ⟨hs, hbodyAt, he, trivial⟩
    have hbody : ∀ a' base', Tracks (Kept template a' base') a'
        (body.watched surroundings template (i + 1)) (body.write surroundings template) :=
      fun a' base' => body.tracks hlayout hbodyAt (.inr (getElem?_lt he))
    have htail : Tracks (Kept template a base) a
        (rest.watched surroundings template (i + 1 + body.size + 1))
        (rest.write surroundings template) :=
      rest.tracks hlayout hrest (hend.imp_right fun hlt => by omega)
    -- a block publishes its text, and all other collectors give theirs to a call
    cases collector with
    | block name =>
      have hblock := (tracks_block surroundings hat hbody).bind fun _ => htail
      simp only [bind_assoc] at hblock
      exact hblock
    | insert target data =>
      have hcall := (tracks_insert surroundings hbody hat).bind fun _ => htail
      simp only [bind_assoc] at hcall
      exact hcall
    | tag name first data =>
      have hcall := (tracks_tag surroundings hbody hat).bind fun _ => htail
      simp only [bind_assoc] at hcall
      exact hcall
    | shortcut name data =>
      have hcall := (tracks_shortcut surroundings hbody hat).bind fun _ => htail
      simp only [bind_assoc] at hcall
      exact hcall

theorem Branches.tracks : ∀ (b : Branches) {j stop : Nat} {a : Activation} {base : List Moment},
    template.LayoutLast → b.At template.statements j stop →
    j + b.size < template.statements.length →
    Tracks (Kept template a base) a
      (b.watched surroundings template j)
      (b.write surroundings template)
  | .nil, j, stop, a, base, hlayout, h, hlt => Tracks.pure ()
  | .elseBranch s test next stop' body more, j, stop, a, base, hlayout, h, hlt => by
    obtain ⟨hs, hbody, hmore⟩ := h
    rw [Branches.size_elseBranch] at hlt
    refine Tracks.bind (Tracks.alone fun call => ?_) fun value => ?_
    · exact (bare_congruence surroundings template _ a call).eval s test
    cases value.isTruthy with
    | true => exact body.tracks hlayout hbody (.inr (by omega))
    | false => exact more.tracks hlayout hmore (by omega)
  | .otherwise s stop' body, j, stop, a, base, hlayout, h, hlt => by
    rw [Branches.size_otherwise] at hlt
    exact body.tracks hlayout h.2 (.inr (by omega))

end

end Statements

end Templating
