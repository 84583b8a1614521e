import Templating.Proofs.Execution

/-!
Relations between the runs of a template in two surroundings. One that holds of the runs of single
expressions and calls, and that sequencing keeps, holds of whole runs.
-/
namespace Templating

variable {σ τ : Type}

def Run.emitBound : Option Value → RunM σ Unit
  | some value => emit value.toText
  | none => pure ()

/-- A relation that expressions, names and sequencing keep. -/
structure RunM.FlowCongruence (x : Surroundings σ) (y : Surroundings τ) (template : Template)
    (Rel : ∀ {α : Type}, RunM σ α → RunM τ α → Prop) : Prop where
  pure {α : Type} (v : α) : Rel (pure v) (pure v)
  throw {α : Type} (s : Statement) (error : EvalError) :
    Rel (α := α) (throw (Run.evaluation template s error)) (throw (Run.evaluation template s error))
  bind {α β : Type} {v : RunM σ α} {w : RunM τ α} {f : α → RunM σ β} {g : α → RunM τ β} :
    Rel v w → (∀ a, Rel (f a) (g a)) → Rel (v >>= f) (w >>= g)
  bind_bound {β : Type} (name : String) {f : Option Value → RunM σ β}
    {g : Option Value → RunM τ β} :
    (∀ value, Rel (f value) (g value)) →
    Rel (get >>= fun a => f (a.bound? name)) (get >>= fun a => g (a.bound? name))
  eval (s : Statement) (e : Expr) : Rel (Run.eval x template s e) (Run.eval y template s e)
  bindName (name : String) (value : Value) :
    Rel (modify (·.bind name value)) (modify (·.bind name value))

/-- A relation that texts and calls keep as well. -/
structure RunM.Congruence (x : Surroundings σ) (y : Surroundings τ) (template : Template)
    (Rel : ∀ {α : Type}, RunM σ α → RunM τ α → Prop) : Prop
    extends RunM.FlowCongruence x y template Rel where
  emit (text : String) : Rel (Run.emit text) (Run.emit text)
  insert (path : String) (data : Members) :
    Rel (Run.insert x template path data) (Run.insert y template path data)
  tag (s : Statement) (name : String) (first : Value) (data : Members) :
    Rel (Run.tag x template s name first data) (Run.tag y template s name first data)
  shortcut (s : Statement) (name : String) (data : Members) :
    Rel (Run.shortcut x template s name data) (Run.shortcut y template s name data)

/-- A relation that reading and setting activations keep as well. -/
structure RunM.FullCongruence (x : Surroundings σ) (y : Surroundings τ) (template : Template)
    (Rel : ∀ {α : Type}, RunM σ α → RunM τ α → Prop) : Prop
    extends RunM.Congruence x y template Rel where
  bind_get {β : Type} {f : Activation → RunM σ β} {g : Activation → RunM τ β} :
    (∀ a, Rel (f a) (g a)) → Rel (get >>= f) (get >>= g)
  set (a : Activation) : Rel (set a) (set a)
  modify (f : Activation → Activation) : Rel (modify f) (modify f)
  setGlobal (name : String) (value : Value) :
    Rel (modifyThe (RenderState σ) fun r => { r with context := r.context.setGlobal name value })
      (modifyThe (RenderState τ) fun r => { r with context := r.context.setGlobal name value })
  render (request : Request) : Rel (liftM (x.render request)) (liftM (y.render request))

namespace RunM.FlowCongruence

variable {x : Surroundings σ} {y : Surroundings τ} {template : Template}
variable {Rel : ∀ {α : Type}, RunM σ α → RunM τ α → Prop} (h : FlowCongruence x y template Rel)
include h

theorem path (s : Statement) (e : Expr) :
    Rel (Run.path x template s e) (Run.path y template s e) := by
  unfold Run.path
  refine h.bind (h.eval s e) fun value => ?_
  cases value with
  | string path => exact h.pure path
  | _ => exact h.throw s _

theorem data (s : Statement) (e : Option Expr) :
    Rel (Run.data x template s e) (Run.data y template s e) := by
  cases e with
  | none => exact h.pure []
  | some e => exact h.bind (h.eval s e) fun value => h.pure _

theorem test (s : Statement) (condition : Condition) :
    Rel (Run.test x template s condition) (Run.test y template s condition) := by
  cases condition with
  | holds e => exact h.bind (h.eval s e) fun value => h.pure _
  | bound name => exact h.bind_bound name fun value => h.pure value.isSome
  | unbound name => exact h.bind_bound name fun value => h.pure value.isNone

theorem loopVisits (s : Statement) (kind : LoopKind) (source : Expr) :
    Rel (Run.loopVisits x template s kind source) (Run.loopVisits y template s kind source) := by
  unfold Run.loopVisits
  refine h.bind (h.eval s source) fun value => ?_
  cases Run.visits kind value with
  | error e => exact h.throw s _
  | ok visits => exact h.pure visits

theorem bindVisit (valueName : String) (keyName : Option String) (visit : Value × Value) :
    Rel (Run.bindVisit valueName keyName visit) (Run.bindVisit valueName keyName visit) := by
  refine h.bind (h.bindName _ _) fun _ => ?_
  cases keyName with
  | none => exact h.pure ()
  | some name => exact h.bindName _ _

theorem forM {ι : Type} {f : ι → RunM σ Unit} {g : ι → RunM τ Unit}
    (hfg : ∀ i, Rel (f i) (g i)) (is : List ι) : Rel (is.forM f) (is.forM g) := by
  induction is with
  | nil => exact h.pure _
  | cons i is ih => exact h.bind (hfg i) fun _ => ih

theorem guarded {p : Prop} [Decidable p] {v : RunM σ Unit} {w : RunM τ Unit} (hvw : p → Rel v w) :
    Rel (if p then v else Pure.pure ()) (if p then w else Pure.pure ()) := by
  split
  · rename_i hp
    exact hvw hp
  · exact h.pure ()

theorem chooseBranch (index : Nat) :
    Rel (Run.chooseBranch x template index) (Run.chooseBranch y template index) := by
  fun_induction Run.chooseBranch x template index with
  | case1 index s hs test next stop hi ih =>
    rw [← Run.chooseIn_self y, Run.chooseIn_of_getElem? y hs, hi]
    refine h.bind (h.eval s test) fun value => ?_
    split
    · exact h.pure _
    · split
      · rename_i hlt
        rw [Run.chooseIn_self]
        exact ih hlt
      · exact h.pure _
  | case2 index s hs hi =>
    rw [← Run.chooseIn_self y, Run.chooseIn_of_getElem? y hs]
    split
    · rename_i test next stop heq
      exact (hi test next stop heq).elim
    · exact h.pure _
  | case3 index hs =>
    rw [Run.chooseBranch]
    split
    · rename_i s hs'
      simp [hs] at hs'
    · exact h.pure _

/-- Walks that perform each statement as related are related. -/
theorem execIn {perform : Nat → Statement → RunM σ Unit} {perform' : Nat → Statement → RunM τ Unit}
    (hperform : ∀ i s, template.statements[i]? = some s → Rel (perform i s) (perform' i s))
    (index stop : Nat) :
    Rel (Run.execIn x template perform index stop) (Run.execIn y template perform' index stop) := by
  fun_induction Run.execIn x template perform index stop with
  | case1 index stop hlt hs =>
    rw [Run.execIn, if_pos hlt]
    split
    · exact h.pure ()
    · rename_i s hs'
      simp [hs] at hs'
  | case2 index stop hlt s hs condition next hi ih =>
    rw [Run.execIn_of_getElem? y _ hs hlt, hi]
    have hjump (target : Nat) := h.guarded (ih target)
    refine h.bind (h.test s condition) fun holds => ?_
    cases holds with
    | true => exact h.bind (h.pure _) hjump
    | false =>
      cases next with
      | none => exact h.bind (h.pure _) hjump
      | some next =>
        refine h.bind ?_ hjump
        rw [Run.chooseIn_self, Run.chooseIn_self]
        exact h.chooseBranch next
  | case3 index stop hlt s hs test next target hi hjump ih =>
    rw [Run.execIn_of_getElem? y _ hs hlt, hi]
    simp only [if_pos hjump]
    exact ih
  | case4 index stop hlt s hs test next target hi hjump =>
    rw [Run.execIn_of_getElem? y _ hs hlt, hi]
    simp only [if_neg hjump]
    exact h.pure ()
  | case5 index stop hlt s hs target hi hjump ih =>
    rw [Run.execIn_of_getElem? y _ hs hlt, hi]
    simp only [if_pos hjump]
    exact ih
  | case6 index stop hlt s hs target hi hjump =>
    rw [Run.execIn_of_getElem? y _ hs hlt, hi]
    simp only [if_neg hjump]
    exact h.pure ()
  | case7 index stop hlt s hs kind valueName keyName source target hi ihbody ih =>
    rw [Run.execIn_of_getElem? y _ hs hlt, hi]
    refine h.bind (h.loopVisits s kind source) fun visits =>
      h.bind (h.forM (fun visit => ?_) visits) fun _ => h.guarded ih
    exact h.bind (h.bindVisit valueName keyName visit) fun _ => ihbody
  | case8 index stop hlt s hs hi ih =>
    rw [Run.execIn_of_getElem? y _ hs hlt, hi]
    exact ih
  | case9 index stop hlt s hs h1 h2 h3 h4 h5 ih =>
    rw [Run.execIn_of_getElem? y _ hs hlt]
    split
    · rename_i condition next heq
      exact (h1 condition next heq).elim
    · rename_i test next target heq
      exact (h2 test next target heq).elim
    · rename_i target heq
      exact (h3 target heq).elim
    · rename_i kind valueName keyName source target heq
      exact (h4 kind valueName keyName source target heq).elim
    · rename_i heq
      exact (h5 heq).elim
    · exact h.bind (hperform index s hs) fun _ => ih
  | case10 index stop hlt =>
    rw [Run.execIn, if_neg hlt]
    exact h.pure ()

end RunM.FlowCongruence

namespace RunM.Congruence

variable {x : Surroundings σ} {y : Surroundings τ} {template : Template}
variable {Rel : ∀ {α : Type}, RunM σ α → RunM τ α → Prop} (h : Congruence x y template Rel)
include h

/-- Statements that only write and bind. -/
theorem step_of_plain {s : Statement} (hplain : s.instruction.isPlain = true)
    (hlayout : s.instruction.isLayout = false) :
    Rel (Run.step x template s) (Run.step y template s) := by
  unfold Run.step
  cases hs : s.instruction with
  | literal text => exact h.emit text
  | emit e => exact h.bind (h.eval s e) fun value => h.emit _
  | emitEncoded e => exact h.bind (h.eval s e) fun value => h.emit _
  | put name =>
    have hbound (value : Option Value) : Rel (Run.emitBound value) (Run.emitBound value) := by
      cases value with
      | some value => exact h.emit _
      | none => exact h.pure ()
    exact h.bind_bound name hbound
  | insert target arguments content =>
    refine h.bind (h.path s target) fun path => h.bind (h.data s arguments) fun data => ?_
    cases content with
    | true => simp [hs, Instruction.isPlain] at hplain
    | false => exact h.insert path data
  | tag name first arguments content =>
    refine h.bind (h.eval s first) fun first => h.bind (h.data s arguments) fun data => ?_
    cases content with
    | true => simp [hs, Instruction.isPlain] at hplain
    | false => exact h.tag s name first data
  | shortcut name arguments content =>
    refine h.bind (h.data s arguments) fun data => ?_
    cases content with
    | true => simp [hs, Instruction.isPlain] at hplain
    | false => exact h.shortcut s name data
  | comment => exact h.pure ()
  | layout path => simp [hs, Instruction.isLayout] at hlayout
  | _ => simp [hs, Instruction.isPlain] at hplain

end RunM.Congruence

namespace RunM.FullCongruence

variable {x : Surroundings σ} {y : Surroundings τ} {template : Template}
variable {Rel : ∀ {α : Type}, RunM σ α → RunM τ α → Prop} (h : FullCongruence x y template Rel)
include h

theorem layout (s : Statement) (e : Expr) :
    Rel (Run.layout x template s e) (Run.layout y template s e) := by
  unfold Run.layout
  refine h.bind (h.path s e) fun path => h.bind_get fun a => ?_
  refine h.bind (h.modify _) fun _ => h.bind (h.setGlobal _ _) fun _ => ?_
  exact h.bind (h.render _) fun text => h.modify _

theorem closeBlock : Rel Run.closeBlock Run.closeBlock := by
  unfold Run.closeBlock
  refine h.bind_get fun a => ?_
  rcases a.captures with _ | ⟨capture, captures⟩
  · exact h.pure ()
  · rcases a.pending with _ | ⟨call, calls⟩
    · exact h.bind (h.set _) fun _ => h.setGlobal _ _
    · exact h.set _

theorem closeContent : Rel Run.closeContent Run.closeContent := by
  unfold Run.closeContent
  refine h.bind_get fun a => ?_
  rcases a.captures with _ | ⟨capture, captures⟩
  · exact h.pure none
  · rcases a.pending with _ | ⟨call, calls⟩
    · exact h.bind (h.set _) fun _ => h.pure none
    · exact h.bind (h.set _) fun _ => h.pure _

theorem step (s : Statement) : Rel (Run.step x template s) (Run.step y template s) := by
  cases hplain : s.instruction.isPlain && !s.instruction.isLayout with
  | true =>
    rw [Bool.and_eq_true, Bool.not_eq_true'] at hplain
    exact h.step_of_plain hplain.1 hplain.2
  | false =>
    unfold Run.step
    cases hs : s.instruction with
    | block name => exact h.modify _
    | closeBlock => exact h.closeBlock
    | layout path => exact h.layout s path
    | insert target arguments content =>
      obtain rfl : content = true := by
        simpa [hs, Instruction.isPlain, Instruction.isLayout] using hplain
      exact h.bind (h.path s target) fun path => h.bind (h.data s arguments) fun data => h.modify _
    | closeInsert =>
      refine h.bind h.closeContent fun call => ?_
      rcases call with _ | ⟨path, data⟩ | _ | _
      · exact h.pure ()
      · exact h.insert path data
      · exact h.pure ()
      · exact h.pure ()
    | tag name first arguments content =>
      obtain rfl : content = true := by
        simpa [hs, Instruction.isPlain, Instruction.isLayout] using hplain
      exact h.bind (h.eval s first) fun first => h.bind (h.data s arguments) fun data => h.modify _
    | closeTag name =>
      refine h.bind h.closeContent fun call => ?_
      rcases call with _ | _ | ⟨first, data⟩ | _
      · exact h.pure ()
      · exact h.pure ()
      · exact h.tag s name first data
      · exact h.pure ()
    | shortcut name arguments content =>
      obtain rfl : content = true := by
        simpa [hs, Instruction.isPlain, Instruction.isLayout] using hplain
      exact h.bind (h.data s arguments) fun data => h.modify _
    | closeShortcut name =>
      refine h.bind h.closeContent fun call => ?_
      rcases call with _ | _ | _ | data
      · exact h.pure ()
      · exact h.pure ()
      · exact h.pure ()
      · exact h.shortcut s name data
    | branch | elseBranch | otherwise | loop | close => exact h.pure ()
    | _ => simp [hs, Instruction.isPlain, Instruction.isLayout] at hplain

theorem exec (index stop : Nat) :
    Rel (Run.exec x template index stop) (Run.exec y template index stop) := by
  rw [← Run.execIn_step, ← Run.execIn_step]
  exact h.execIn (fun _ s _ => h.step s) index stop

end RunM.FullCongruence

end Templating
