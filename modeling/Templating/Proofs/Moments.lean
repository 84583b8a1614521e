import Templating.Proofs.LayoutLast
import Templating.Proofs.Writing

/-!
Runs that keep the moments at which their statements are carried out. At every one of them the stacks
are as the nest of the statements has them.
-/
namespace Templating

variable {σ α μ : Type}

/-- An action on a store with something kept beside it. -/
def RenderM.beside (x : RenderM σ α) : RenderM (σ × μ) α := ExceptT.mk fun s =>
  let (result, t) := x.run.run ⟨s.context, s.engine.cache.1, s.engine.identity⟩
  (result, ⟨t.context, (t.engine.cache, s.engine.cache.2), t.engine.identity⟩)

def Surroundings.beside (surroundings : Surroundings σ) : Surroundings (σ × μ) where
  evaluate names e := (surroundings.evaluate names e).beside
  render request := (surroundings.render request).beside
  tag name first data site := (surroundings.tag name first data site).beside
  shortcut name data site := (surroundings.shortcut name data site).beside

/-- A statement is about to be carried out on an activation. -/
structure Moment where
  index : Nat
  activation : Activation

def RenderState.keep (m : Moment) (r : RenderState (σ × List Moment)) :
    RenderState (σ × List Moment) :=
  { r with engine := { r.engine with cache := (r.engine.cache.1, m :: r.engine.cache.2) } }

namespace Run

variable (surroundings : Surroundings σ) (template : Template)

def watch (index : Nat) (s : Statement) : RunM (σ × List Moment) Unit := do
  let a ← get
  modifyThe (RenderState (σ × List Moment)) (·.keep ⟨index, a⟩)
  step surroundings.beside template s

def watched (index stop : Nat) : RunM (σ × List Moment) Unit :=
  execIn (surroundings.beside (μ := List Moment)) template (watch surroundings template) index stop

/-- The moments of the run of a template that begins with the given names, the last one first. They
are those up to the failure if it fails. -/
def moments (names : Env) (s : RenderState σ) : List Moment :=
  ((watched surroundings template 0 template.statements.length).run { names }).run.run
    ⟨s.context, (s.engine.cache, []), s.engine.identity⟩ |>.2.engine.cache.2

end Run

section Watched

variable (surroundings : Surroundings σ) (template : Template)

def Nest.watched (i : Nat) (n : Nest) : RunM (σ × List Moment) Unit :=
  n.walk (surroundings.beside (μ := List Moment)) template (Run.watch surroundings template) i

def Branches.watched (j : Nat) (b : Branches) : RunM (σ × List Moment) Unit :=
  b.walk (surroundings.beside (μ := List Moment)) template (Run.watch surroundings template) j

end Watched

/-- The same store, with something beside it that is as `P` says. -/
def Beside (P : μ → Prop) (w : σ × μ) (c : σ) : Prop := w.1 = c ∧ P w.2

/-- What is kept beside the store is left alone. -/
theorem RenderM.beside_simulates (P : μ → Prop) (x : RenderM σ α) :
    RenderM.Simulates (Beside P) x.beside x := by
  intro s t hst
  obtain ⟨hcontext, hidentity, hcache, hkept⟩ := hst
  have hstate : (⟨s.context, s.engine.cache.1, s.engine.identity⟩ : RenderState σ) = t := by
    rw [hcontext, hidentity, hcache]
  have hrun : (RenderM.beside (μ := μ) x).run.run s =
      ((x.run.run t).1, ⟨(x.run.run t).2.context, ((x.run.run t).2.engine.cache, s.engine.cache.2),
        (x.run.run t).2.engine.identity⟩) := by
    rw [← hstate]
    rfl
  rw [hrun]
  exact ⟨Agree.refl _, rfl, rfl, rfl, hkept⟩

theorem Surroundings.beside_simulates (P : μ → Prop) (surroundings : Surroundings σ) :
    Surroundings.Simulates (Beside P) surroundings.beside surroundings where
  evaluate _ _ := RenderM.beside_simulates P _
  render _ := RenderM.beside_simulates P _
  tag _ _ _ _ := RenderM.beside_simulates P _
  shortcut _ _ _ := RenderM.beside_simulates P _

/-- The statement that pushed what is now on top of a stack: the last one before which the stack was
lower. -/
def Moment.opener? (height : Activation → Nat) (m : Moment) (earlier : List Moment) : Option Nat :=
  (earlier.find? fun k => decide (height k.activation < height m.activation)).map (·.index)

/-- The statement at `o` opens the collector that the one at `i` closes, with a nest between. -/
def Template.Encloses (template : Template) (o : Nat) (collector : Collector) (i : Nat) : Prop :=
  ∃ s body e, (Nest.collecting s collector body e .nil).At template.statements o ∧
    o + 1 + body.size = i

def Instruction.isClosing : Instruction → Bool
  | closeBlock | closeInsert | closeTag _ | closeShortcut _ => true
  | _ => false

namespace Collector

def isCall : Collector → Bool
  | block _ => false
  | _ => true

def captureName : Collector → String
  | block name => name
  | _ => contentName

def Opens : Collector → Pending → Prop
  | insert _ _, .insert _ _ => True
  | tag _ _ _, .tag _ _ => True
  | shortcut _ _, .shortcut _ => True
  | _, _ => False

end Collector

namespace Moment

/-- On top of the stacks is what the opening statement of the collector pushed there. -/
structure Closes (template : Template) (m : Moment) (earlier : List Moment) (o : Nat)
    (collector : Collector) : Prop where
  encloses : template.Encloses o collector m.index
  capture : ∃ capture outer, m.activation.captures = capture :: outer ∧
    capture.name = collector.captureName
  captureOpener : m.opener? (·.captures.length) earlier = some o
  call : collector.isCall = true → ∃ call outer, m.activation.pending = call :: outer ∧
    collector.Opens call
  callOpener : collector.isCall = true → m.opener? (·.pending.length) earlier = some o

/-- A layout finds the stacks empty, and the end of a collector finds what its opening left. -/
def Fits (template : Template) (m : Moment) (earlier : List Moment) : Prop :=
  ∀ s, template.statements[m.index]? = some s →
    (s.instruction.isLayout = true → m.activation.captures = [] ∧ m.activation.pending = []) ∧
    (s.instruction.isClosing = true → ∃ o collector, s.instruction = collector.closing ∧
      m.Closes template earlier o collector)

end Moment

def AllFit (template : Template) : List Moment → Prop
  | [] => True
  | m :: earlier => m.Fits template earlier ∧ AllFit template earlier

theorem AllFit.of_suffix {template : Template} : ∀ {moments : List Moment} {m : Moment}
    {earlier : List Moment}, AllFit template moments → m :: earlier <:+ moments →
    m.Fits template earlier
  | [], m, earlier, _, h => by simp at h
  | k :: moments, m, earlier, hfit, h => by
    rcases List.suffix_cons_iff.mp h with heq | h
    · obtain ⟨rfl, rfl⟩ := List.cons.inj heq
      exact hfit.1
    · exact AllFit.of_suffix hfit.2 h

/-- The moments since `base`, all fitting, with the stacks never lower than those of `a`. -/
structure Kept (template : Template) (a : Activation) (base moments : List Moment) : Prop where
  fit : AllFit template moments
  since : ∃ added, moments = added ++ base ∧ ∀ m ∈ added,
    a.captures.length ≤ m.activation.captures.length ∧
      a.pending.length ≤ m.activation.pending.length

namespace Kept

variable {template : Template} {a a' b : Activation} {base moments earlier : List Moment} {i : Nat}

theorem refl (h : AllFit template base) : Kept template a base base :=
  ⟨h, [], rfl, by simp⟩

theorem cons (h : Kept template a base moments) {m : Moment} (hfit : m.Fits template moments)
    (hcaptures : a.captures.length ≤ m.activation.captures.length)
    (hpending : a.pending.length ≤ m.activation.pending.length) :
    Kept template a base (m :: moments) := by
  obtain ⟨hall, added, rfl, hadded⟩ := h
  refine ⟨⟨hfit, hall⟩, m :: added, rfl, fun k hk => ?_⟩
  rcases List.mem_cons.mp hk with rfl | hk
  · exact ⟨hcaptures, hpending⟩
  · exact hadded k hk

/-- Moments since a later one with higher stacks are moments since the earlier one. -/
theorem trans (h : Kept template a' earlier moments) (hbase : Kept template a base earlier)
    (hcaptures : a.captures.length ≤ a'.captures.length)
    (hpending : a.pending.length ≤ a'.pending.length) : Kept template a base moments := by
  obtain ⟨hall, added, rfl, hadded⟩ := h
  obtain ⟨-, before, rfl, hbefore⟩ := hbase
  refine ⟨hall, added ++ before, (List.append_assoc ..).symm, fun m hm => ?_⟩
  rcases List.mem_append.mp hm with hm | hm
  · have := hadded m hm
    omega
  · exact hbefore m hm

end Kept

/-- When a stack has not been lower since a moment before which it was, what is on top of it has been
pushed at that moment. -/
theorem Moment.opener?_eq {height : Activation → Nat} {m k : Moment} {added earlier : List Moment}
    (hadded : ∀ n ∈ added, height m.activation ≤ height n.activation)
    (hk : height k.activation < height m.activation) :
    m.opener? height (added ++ k :: earlier) = some k.index := by
  unfold Moment.opener?
  have hnone : added.find? (fun n => decide (height n.activation < height m.activation)) = none := by
    rw [List.find?_eq_none]
    intro n hn
    have := hadded n hn
    simpa using this
  rw [List.find?_append, hnone, Option.none_or, List.find?_cons_of_pos (by simpa using hk)]
  rfl

end Templating
