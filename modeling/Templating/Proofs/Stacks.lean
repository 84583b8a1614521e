import Templating.Proofs.Tracking

/-!
The stacks of the runs of compiled templates.
-/
namespace Templating

namespace Instruction

/-- Whether an instruction runs the statements after it as a body or passes over them. -/
def hasBody : Instruction → Bool
  | branch _ _ | elseBranch _ _ _ | otherwise _ | loop _ _ _ _ _ => true
  | _ => false

def bodyEnd? : Instruction → Option Nat
  | branch _ next => next
  | elseBranch _ next _ => next
  | otherwise stop => stop
  | loop _ _ _ _ stop => stop
  | _ => none

theorem hasBody_of_isPlain {instruction : Instruction} (h : instruction.isPlain = true) :
    instruction.hasBody = false := by
  cases instruction <;> first | rfl | cases h

end Instruction

theorem hasBody_opening (collector : Collector) : collector.opening.hasBody = false := by
  cases collector <;> rfl

theorem hasBody_closing (collector : Collector) : collector.closing.hasBody = false := by
  cases collector <;> rfl

/-- The statement at `i` leads to `stop`, and between the two is a nest. -/
def BodyAt (l : List Statement) (i stop : Nat) : Prop :=
  ∃ body : Nest, body.At l (i + 1) ∧ i + 1 + body.size = stop ∧ stop < l.length

/-- Every statement between two places that has a body has it in the list. -/
def BodiesAt (l : List Statement) (i j : Nat) : Prop :=
  ∀ ⦃k s⦄, i ≤ k → k < j → l[k]? = some s → s.instruction.hasBody = true →
    ∃ stop, s.instruction.bodyEnd? = some stop ∧ BodyAt l k stop

namespace BodiesAt

variable {l : List Statement} {i j k : Nat} {s : Statement}

theorem nil : BodiesAt l i i := by
  intro k s hik hki
  omega

theorem append (hij : BodiesAt l i j) (hjk : BodiesAt l j k) : BodiesAt l i k := by
  intro m s him hmk
  rcases Nat.lt_or_ge m j with hmj | hjm
  · exact hij him hmj
  · exact hjk hjm hmk

theorem single {stop : Nat} (hs : l[i]? = some s) (hstop : s.instruction.bodyEnd? = some stop)
    (h : BodyAt l i stop) : BodiesAt l i (i + 1) := by
  intro k s' hik hki hs' _
  obtain rfl : i = k := by omega
  obtain rfl := Option.some.inj (hs.symm.trans hs')
  exact ⟨stop, hstop, h⟩

theorem none (hs : l[i]? = some s) (h : s.instruction.hasBody = false) :
    BodiesAt l i (i + 1) := by
  intro k s' hik hki hs' hbody
  obtain rfl : i = k := by omega
  obtain rfl := Option.some.inj (hs.symm.trans hs')
  rw [h] at hbody
  cases hbody

end BodiesAt

mutual

theorem Nest.bodiesAt {l : List Statement} : ∀ (n : Nest) {i : Nat}, n.At l i →
    BodiesAt l i (i + n.size)
  | .nil, i, h => .nil
  | .plain s hplain rest, i, h => by
    have hrest := rest.bodiesAt h.2
    rw [Nat.add_right_comm] at hrest
    exact (BodiesAt.none h.1 (Instruction.hasBody_of_isPlain hplain)).append hrest
  | .conditional s test next body branches e rest, i, h => by
    obtain ⟨hs, hbody, hbranches, he, hrest⟩ := h
    have hlt := getElem?_lt he
    have hopen := BodiesAt.single hs rfl ⟨body, hbody, rfl, by omega⟩
    have hclose := BodiesAt.none he rfl
    have hbranches := branches.bodiesAt hbranches rfl hlt
    have hall := (((hopen.append (body.bodiesAt hbody)).append hbranches).append hclose).append
      (rest.bodiesAt hrest)
    have hsize : i + 1 + body.size + branches.size + 1 + rest.size =
        i + (Nest.conditional s test next body branches e rest).size := by
      rw [Nest.size_conditional]
      omega
    rwa [hsize] at hall
  | .loop s head stop body e rest, i, h => by
    obtain ⟨hs, hbody, he, hrest⟩ := h
    have hopen := BodiesAt.single hs rfl ⟨body, hbody, rfl, getElem?_lt he⟩
    have hclose := BodiesAt.none he rfl
    have hall := ((hopen.append (body.bodiesAt hbody)).append hclose).append (rest.bodiesAt hrest)
    have hsize : i + 1 + body.size + 1 + rest.size =
        i + (Nest.loop s head stop body e rest).size := by
      rw [Nest.size_loop]
      omega
    rwa [hsize] at hall
  | .collecting s collector body e rest, i, h => by
    obtain ⟨hs, hbody, he, hrest⟩ := h
    have hopen := BodiesAt.none hs (hasBody_opening collector)
    have hclose := BodiesAt.none he (hasBody_closing collector)
    have hall := ((hopen.append (body.bodiesAt hbody)).append hclose).append (rest.bodiesAt hrest)
    have hsize : i + 1 + body.size + 1 + rest.size =
        i + (Nest.collecting s collector body e rest).size := by
      rw [Nest.size_collecting]
      omega
    rwa [hsize] at hall

theorem Branches.bodiesAt {l : List Statement} : ∀ (b : Branches) {j last : Nat}, b.At l j last →
    j + b.size = last → last < l.length → BodiesAt l j last
  | .nil, j, last, h, hlast, hlt => by
    obtain rfl : j = last := hlast
    exact .nil
  | .elseBranch s test next stop' body more, j, last, h, hlast, hlt => by
    obtain ⟨hs, hbody, hmore⟩ := h
    rw [Branches.size_elseBranch] at hlast
    have hopen := BodiesAt.single hs rfl ⟨body, hbody, rfl, by omega⟩
    have hmore := more.bodiesAt hmore (by omega) hlt
    exact (hopen.append (body.bodiesAt hbody)).append hmore
  | .otherwise s stop' body, j, last, h, hlast, hlt => by
    obtain ⟨hs, hbody⟩ := h
    rw [Branches.size_otherwise] at hlast
    have hend : j + 1 + body.size = last := by omega
    have hopen := BodiesAt.single hs rfl ⟨body, hbody, hend, hlt⟩
    have hbody := body.bodiesAt hbody
    rw [hend] at hbody
    exact hopen.append hbody

end

section Runs

variable {σ : Type} (surroundings : Surroundings σ) {template : Template}

/-- Keeping moments changes nothing else about a run. -/
theorem watched_simulates (template : Template) (index stop : Nat) :
    RunM.Simulates (Beside fun _ => True) Eq (Run.watched surroundings template index stop)
      (Run.exec surroundings template index stop) := by
  have hsurroundings :=
    Surroundings.beside_simulates (μ := List Moment) (fun _ => True) surroundings
  rw [← Run.execIn_step]
  have hcongruence := Run.fullCongruence template hsurroundings
  refine hcongruence.execIn (fun i s _ => ?_) index stop
  rintro a _ rfl state t hst
  exact hcongruence.step s rfl ⟨hst.context, hst.identity, hst.cache.1, trivial⟩

theorem watched_nest {n : Nest} {i : Nat} (h : n.At template.statements i) :
    Run.watched surroundings template i (i + n.size) = n.watched surroundings template i := by
  unfold Run.watched
  rw [Run.execIn_nest _ _ n h rfl (Nat.le_refl _), Run.execIn_of_le _ _ (Nat.le_refl _),
    bind_pure_unit]
  rfl

def RenderState.unwatched (t : RenderState σ) : RenderState (σ × List Moment) :=
  ⟨t.context, (t.engine.cache, []), t.engine.identity⟩

/-- Only one state has nothing kept beside it. -/
theorem RenderState.Matches.unique {μ : Type} {P Q : μ → Prop} {s : RenderState (σ × μ)}
    {t t' : RenderState σ} (h : s.Matches (Beside P) t) (h' : s.Matches (Beside Q) t') : t = t' := by
  obtain ⟨context, cache, identity⟩ := t
  obtain ⟨context', cache', identity'⟩ := t'
  obtain rfl : context = context' := h.context.symm.trans h'.context
  obtain rfl : identity = identity' := h.identity.symm.trans h'.identity
  obtain rfl : cache = cache' := h.cache.1.symm.trans h'.cache.1
  rfl

section Within

variable (hlayout : template.LayoutLast) {n : Nest} {i : Nat} {a : Activation}
  (h : n.At template.statements i) (hend : MayEnd template a (i + n.size))
include hlayout h hend

/-- A nest writes on the sheet of an activation and leaves the stacks around it. -/
theorem exec_eq_write :
    (Run.exec surroundings template i (i + n.size)).run a = (do
      let p ← (n.write surroundings template).run a.sheet
      pure ((), a.withSheet p.2)) := by
  refine ExceptT.ext (StateT.ext fun t => ?_)
  have hmatches : ∀ P : List Moment → Prop, P [] → t.unwatched.Matches (Beside P) t :=
    fun P h => ⟨rfl, rfl, rfl, h⟩
  obtain ⟨hran, hstate⟩ := watched_simulates surroundings template i (i + n.size) (rfl : a = a)
    (hmatches _ trivial)
  obtain ⟨hwrote, hstate'⟩ := n.tracks surroundings hlayout h hend (.self a)
    (hmatches _ (.refl trivial))
  rw [watched_nest surroundings h] at hran hstate
  rcases hx : ((n.watched surroundings template i).run a).run.run t.unwatched with ⟨outcome, s⟩
  rcases hy : ((Run.exec surroundings template i (i + n.size)).run a).run.run t with ⟨ran, t₁⟩
  rcases hz : ((n.write surroundings template).run a.sheet).run.run t with ⟨wrote, t₂⟩
  rw [hx, hy] at hran hstate
  rw [hx, hz] at hwrote hstate'
  obtain rfl : t₁ = t₂ := hstate.unique hstate'
  cases outcome with
  | error failure =>
    cases hran
    cases hwrote
    exact (run_bind_error hz).symm
  | ok p =>
    rcases hran with ⟨-, hp⟩
    rcases hwrote with ⟨-, hshow⟩
    rw [run_bind_ok hz, ← hshow.eq, hp]
    rfl

/-- The stacks are as high after a nest as before it. -/
theorem length_stacks_of_exec {b : Activation} {r r' : RenderState σ}
    (hrun : ((Run.exec surroundings template i (i + n.size)).run a).run.run r = (.ok ((), b), r')) :
    b.captures.length = a.captures.length ∧ b.pending.length = a.pending.length := by
  rw [exec_eq_write surroundings hlayout h hend] at hrun
  rcases hwrite : ((n.write surroundings template).run a.sheet).run.run r with ⟨wrote, r₁⟩
  cases wrote with
  | error failure =>
    rw [run_bind_error hwrite] at hrun
    cases hrun
  | ok p =>
    rw [run_bind_ok hwrite] at hrun
    obtain rfl : a.withSheet p.2 = b := by
      cases hrun
      rfl
    exact ⟨a.length_captures_withSheet _, a.length_pending_withSheet _⟩

end Within

/-- Running on after a nest is running the nest and then the rest. -/
theorem exec_nest {n : Nest} {i stop : Nat} (h : n.At template.statements i)
    (hstop : i + n.size ≤ stop) : Run.exec surroundings template i stop = (do
      Run.exec surroundings template i (i + n.size)
      Run.exec surroundings template (i + n.size) stop) := by
  simp only [← Run.execIn_step]
  rw [Run.execIn_nest _ _ n h rfl hstop, Run.execIn_nest _ _ n h rfl (Nat.le_refl _),
    Run.execIn_of_le _ _ (Nat.le_refl _), bind_pure_unit]

/-- The moments of the run of a nest fit. -/
theorem allFit_moments (hlayout : template.LayoutLast) {n : Nest}
    (h : n.At template.statements 0) (hsize : n.size = template.statements.length) (names : Env)
    (r : RenderState σ) : AllFit template (Run.moments surroundings template names r) := by
  have hwatched := watched_nest surroundings h
  rw [Nat.zero_add, hsize] at hwatched
  have hstart : r.unwatched.Matches (Beside (Kept template { names } [])) r :=
    ⟨rfl, rfl, rfl, .refl trivial⟩
  obtain ⟨-, hstate⟩ := n.tracks surroundings hlayout h (.inl ⟨rfl, rfl⟩) (.self { names }) hstart
  rw [← hwatched] at hstate
  exact hstate.cache.2.fit

end Runs

theorem Collector.Opens.setData {collector : Collector} {call : Pending}
    (h : collector.Opens call) (key : String) (value : Value) :
    collector.Opens (call.setData key value) := by
  cases collector <;> cases call <;> first | exact h.elim | trivial

namespace Activation

/-- The end of a block takes the capture off and gives its text to the innermost call and nothing
else, or where no call waits to the names and the globals. -/
def Publishes (σ : Type) (a : Activation) : Prop :=
  ∃ capture captures, a.captures = capture :: captures ∧
    (∀ call calls, a.pending = call :: calls → (Run.closeBlock (σ := σ)).run a =
      pure ((), { a with
        captures
        pending := call.setData capture.name (.string capture.text) :: calls })) ∧
    (a.pending = [] → (Run.closeBlock (σ := σ)).run a = (do
      modifyThe (RenderState σ) fun r =>
        { r with context := r.context.setGlobal capture.name (.string capture.text) }
      pure ((), ({ a with captures }).bind capture.name (.string capture.text))))

/-- The end of the content of a call takes the capture and the call off, gives the text to the call,
and finds a call of the kind that it finishes. -/
def Collects (σ : Type) (a : Activation) (collector : Collector) : Prop :=
  ∃ capture captures call calls, a.captures = capture :: captures ∧ a.pending = call :: calls ∧
    collector.Opens (call.setData contentName (.string capture.text)) ∧
    (Run.closeContent (σ := σ)).run a =
      pure (some (call.setData contentName (.string capture.text)),
        { a with captures, pending := calls })

def Ends (σ : Type) (a : Activation) (collector : Collector) : Prop :=
  if collector.isCall then a.Collects σ collector else a.Publishes σ

end Activation

theorem Moment.Closes.ends {template : Template} {m : Moment} {earlier : List Moment} {o : Nat}
    {collector : Collector} (h : m.Closes template earlier o collector) (σ : Type) :
    m.activation.Ends σ collector := by
  unfold Activation.Ends
  obtain ⟨capture, captures, hcaptures, -⟩ := h.capture
  split
  next hcall =>
    obtain ⟨call, calls, hpending, hopens⟩ := h.call hcall
    exact ⟨capture, captures, call, calls, hcaptures, hpending, hopens.setData _ _,
      Run.closeContent_of_call hcaptures hpending⟩
  next =>
    refine ⟨capture, captures, hcaptures, fun call calls hpending => ?_, fun hpending => ?_⟩
    · exact Run.closeBlock_of_call hcaptures hpending
    · exact Run.closeBlock_of_no_call hcaptures hpending

section Compiled

variable {σ : Type} (surroundings : Surroundings σ) (template : Template)

/-- A run of the template comes to a statement after the earlier moments. -/
def Run.Reaches (m : Moment) (earlier : List Moment) : Prop :=
  ∃ names r, m :: earlier <:+ Run.moments surroundings template names r

/-- Runs keep captures and pending calls in step with the statements, and no text is lost. -/
structure Template.KeepsStacks : Prop where
  /-- Moments are those of the run itself. -/
  watched : ∀ index stop, RunM.Simulates (Beside fun _ => True) Eq
    (Run.watched surroundings template index stop) (Run.exec surroundings template index stop)
  layout : ∀ {m earlier s}, Run.Reaches surroundings template m earlier →
    template.statements[m.index]? = some s → s.instruction.isLayout = true →
    m.activation.captures = [] ∧ m.activation.pending = []
  closing : ∀ {m earlier s}, Run.Reaches surroundings template m earlier →
    template.statements[m.index]? = some s → s.instruction.isClosing = true →
    ∃ o collector, s.instruction = collector.closing ∧ m.Closes template earlier o collector ∧
      m.activation.Ends σ collector
  /-- The body of a conditional or loop is run as a whole and leaves the stacks as high. -/
  body : ∀ {i s}, template.statements[i]? = some s → s.instruction.hasBody = true →
    ∃ stop, s.instruction.bodyEnd? = some stop ∧
      (∀ last, stop ≤ last → Run.exec surroundings template (i + 1) last = (do
        Run.exec surroundings template (i + 1) stop
        Run.exec surroundings template stop last)) ∧
      ∀ {a b r r'}, ((Run.exec surroundings template (i + 1) stop).run a).run.run r =
        (.ok ((), b), r') →
        b.captures.length = a.captures.length ∧ b.pending.length = a.pending.length
  /-- The whole run leaves both stacks empty and the text that its nest writes. -/
  text : ∃ n : Nest, n.At template.statements 0 ∧ n.size = template.statements.length ∧
    ∀ names, (Run.exec surroundings template 0 template.statements.length).run { names } = (do
      let p ← (n.write surroundings template).run { names }
      pure ((), { names := p.2.names, output := p.2.text }))

/-- Compiled templates keep the stacks, in all surroundings. -/
theorem compiled_keeps_stacks {grammar : Grammar} {path source : String} {template : Template}
    (h : Template.compile grammar path source = .ok template) {σ : Type}
    (surroundings : Surroundings σ) : template.KeepsStacks surroundings := by
  have hlayout : template.LayoutLast := fun i s => layout_is_last h
  obtain ⟨statements, linked, -, hlink, rfl⟩ := compile_eq_ok h
  obtain ⟨n, rfl⟩ := Balanced.of_link hlink
  obtain ⟨linked', hlink', hat⟩ := n.link_statements
  obtain rfl : linked' = linked := by simpa [hlink'] using hlink
  have hsize : n.size = linked'.length := (length_link hlink).symm
  have hfits : ∀ {m earlier}, Run.Reaches surroundings ⟨path, source, linked'⟩ m earlier →
      m.Fits ⟨path, source, linked'⟩ earlier := by
    rintro m earlier ⟨names, r, hreach⟩
    exact (allFit_moments surroundings hlayout hat hsize names r).of_suffix hreach
  refine ⟨fun index stop => watched_simulates surroundings _ index stop, ?_, ?_, ?_, ?_⟩
  · intro m earlier s hreach hs hs'
    exact (hfits hreach s hs).1 hs'
  · intro m earlier s hreach hs hs'
    obtain ⟨o, collector, hcollector, hcloses⟩ := (hfits hreach s hs).2 hs'
    exact ⟨o, collector, hcollector, hcloses, hcloses.ends σ⟩
  · intro i s hs hbody
    have hbodies := n.bodiesAt hat
    have hi : i < 0 + n.size := by
      rw [Nat.zero_add, hsize]
      exact getElem?_lt hs
    obtain ⟨stop, hstop, body, hbodyAt, rfl, hlt⟩ := hbodies (Nat.zero_le i) hi hs hbody
    refine ⟨_, hstop, fun last hlast => exec_nest surroundings hbodyAt hlast, fun hrun => ?_⟩
    exact length_stacks_of_exec surroundings hlayout hbodyAt (.inr hlt) hrun
  · refine ⟨n, hat, hsize, fun names => ?_⟩
    have hwrite := exec_eq_write surroundings hlayout hat (a := { names }) (.inl ⟨rfl, rfl⟩)
    rw [Nat.zero_add, hsize] at hwrite
    exact hwrite

end Compiled

/-- Content in a loop, with a block in one of its branches. -/
theorem block_of_content_keeps_stacks : ∃ template,
    Template.compile {} "/t"
      ("\x7b\x7beach v in list\x7d\x7d\x7b\x7binclude:content '/p'\x7d\x7da\x7b\x7bif v\x7d\x7d" ++
        "\x7b\x7bblock b\x7d\x7dc\x7b\x7bendblock\x7d\x7d\x7b\x7belse\x7d\x7dd\x7b\x7bend\x7d\x7d" ++
        "\x7b\x7bendinclude\x7d\x7d\x7b\x7bend\x7d\x7d") = .ok template ∧
      ∀ (σ : Type) (surroundings : Surroundings σ), template.KeepsStacks surroundings :=
  exists_compiled (by decide +kernel) fun _ h _ surroundings =>
    compiled_keeps_stacks h surroundings

end Templating
