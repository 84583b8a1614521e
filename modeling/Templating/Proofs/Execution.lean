import Mathlib.Data.Nat.Init
import Templating.Render.Activation
import Templating.Proofs.Linking

/-!
Running statements in any monad that runs can be lifted to. How a statement is performed is a
parameter, so that the same walk through the flat list serves runs and observations of runs; on a
list that holds a nest it is a walk through the nest.
-/
namespace Templating

namespace Run

variable {σ : Type} {m : Type → Type} [Monad m] [MonadLiftT (RunM σ) m]
variable (surroundings : Surroundings σ) (template : Template) (perform : Nat → Statement → m Unit)

def loopVisits (s : Statement) (kind : LoopKind) (source : Expr) :
    RunM σ (List (Value × Value)) := do
  let value ← eval surroundings template s source
  match visits kind value with
  | .error e => throw (evaluation template s e)
  | .ok visits => return visits

theorem bind_loopVisits (s : Statement) (kind : LoopKind) (source : Expr)
    (next : List (Value × Value) → RunM σ Unit) :
    loopVisits surroundings template s kind source >>= next =
      (eval surroundings template s source >>= fun value =>
        match visits kind value with
        | .error e => throw (evaluation template s e)
        | .ok visits => next visits) := by
  rw [loopVisits, bind_assoc]
  refine bind_congr fun value => ?_
  cases visits kind value with
  | error e => rfl
  | ok visits => rw [pure_bind]

def chooseIn (index : Nat) : m Nat :=
  match _h : template.statements[index]? with
  | some s =>
    match s.instruction with
    | .elseBranch test (some next) _ => do
      let value ← eval surroundings template s test
      if value.isTruthy then return index + 1
      else if index < next then chooseIn next
      else return index + 1
    | _ => pure (index + 1)
  | none => pure (index + 1)
termination_by template.statements.length - index
decreasing_by
  have := (List.getElem?_eq_some_iff.mp _h).1
  omega

/-- The walk of a run, with every statement that leads to the next one performed as given. -/
def execIn (index stop : Nat) : m Unit :=
  if index < stop then
    match _h : template.statements[index]? with
    | none => pure ()
    | some s =>
      match s.instruction with
      | .branch condition next => do
        let holds ← test surroundings template s condition
        let target ← if holds then pure (index + 1) else
          match next with
          | some next => chooseIn surroundings template next
          | none => pure (index + 1)
        if index < target then execIn target stop
      | .elseBranch _ _ (some target) => if index < target then execIn target stop else pure ()
      | .otherwise (some target) => if index < target then execIn target stop else pure ()
      | .loop kind valueName keyName source (some target) => do
        let visits ← loopVisits surroundings template s kind source
        visits.forM fun visit => do
          bindVisit (σ := σ) valueName keyName visit
          execIn (index + 1) target
        if index ≤ target then execIn (target + 1) stop
      | .close => execIn (index + 1) stop
      | _ => do
        perform index s
        execIn (index + 1) stop
  else pure ()
termination_by template.statements.length - index
decreasing_by
  all_goals
    have := (List.getElem?_eq_some_iff.mp _h).1
    omega

section Equations

variable {template} {index stop : Nat} {s : Statement}

theorem chooseIn_of_getElem? (hs : template.statements[index]? = some s) :
    chooseIn (m := m) surroundings template index =
      match s.instruction with
      | .elseBranch test (some next) _ => do
        let value ← eval surroundings template s test
        if value.isTruthy then return index + 1
        else if index < next then chooseIn surroundings template next
        else return index + 1
      | _ => pure (index + 1) := by
  rw [chooseIn]
  split
  · rename_i s' hs'
    obtain rfl : s' = s := Option.some.inj (hs'.symm.trans hs)
    rfl
  · rename_i hs'
    simp [hs] at hs'

theorem execIn_of_le (h : stop ≤ index) :
    execIn surroundings template perform index stop = pure () := by
  rw [execIn, if_neg (by omega)]

theorem execIn_of_getElem? (hs : template.statements[index]? = some s) (hstop : index < stop) :
    execIn surroundings template perform index stop =
      (match s.instruction with
      | .branch condition next => do
        let holds ← test surroundings template s condition
        let target ← if holds then pure (index + 1) else
          match next with
          | some next => chooseIn surroundings template next
          | none => pure (index + 1)
        if index < target then execIn surroundings template perform target stop
      | .elseBranch _ _ (some target) =>
        if index < target then execIn surroundings template perform target stop else pure ()
      | .otherwise (some target) =>
        if index < target then execIn surroundings template perform target stop else pure ()
      | .loop kind valueName keyName source (some target) => do
        let visits ← loopVisits surroundings template s kind source
        visits.forM fun visit => do
          bindVisit (σ := σ) valueName keyName visit
          execIn surroundings template perform (index + 1) target
        if index ≤ target then execIn surroundings template perform (target + 1) stop
      | .close => execIn surroundings template perform (index + 1) stop
      | _ => do
        perform index s
        execIn surroundings template perform (index + 1) stop) := by
  rw [execIn, if_pos hstop]
  split
  · rename_i hs'
    simp [hs] at hs'
  · rename_i s' hs'
    obtain rfl : s' = s := Option.some.inj (hs'.symm.trans hs)
    rfl

end Equations

/-- A run's own choice is the choice in the monad of runs. -/
theorem chooseIn_self (index : Nat) :
    chooseIn (m := RunM σ) surroundings template index =
      chooseBranch surroundings template index := by
  fun_induction chooseBranch surroundings template index with
  | case1 index s hs test next stop hi ih =>
    rw [chooseIn_of_getElem? surroundings hs, hi]
    refine bind_congr fun value => ?_
    split
    · rfl
    · split
      · rename_i hlt
        exact ih hlt
      · rfl
  | case2 index s hs hi =>
    rw [chooseIn_of_getElem? surroundings hs]
    split
    · rename_i test next stop heq
      exact (hi test next stop heq).elim
    · rfl
  | case3 index hs =>
    rw [chooseIn]
    split
    · rename_i s hs'
      simp [hs] at hs'
    · rfl

/-- A run is the walk that performs each statement by its step. -/
theorem execIn_step (index stop : Nat) :
    execIn surroundings template (fun _ s => step surroundings template s) index stop =
      exec surroundings template index stop := by
  fun_induction exec surroundings template index stop with
  | case1 index stop hlt hs =>
    rw [execIn, if_pos hlt]
    split
    · rfl
    · rename_i s hs'
      simp [hs] at hs'
  | case2 index stop hlt s hs condition next hi ih =>
    rw [execIn_of_getElem? surroundings _ hs hlt, hi]
    refine bind_congr fun holds => ?_
    have hjump : ∀ target, (if index < target then execIn surroundings template
        (fun _ s => step surroundings template s) target stop else pure ()) =
        if index < target then exec surroundings template target stop else pure () := by
      intro target
      split
      · rename_i hlt
        exact ih target hlt
      · rfl
    cases next <;> simp only [hjump, chooseIn_self]
  | case3 index stop hlt s hs test next target hi hjump ih =>
    rw [execIn_of_getElem? surroundings _ hs hlt, hi]
    simp only [if_pos hjump, ih]
  | case4 index stop hlt s hs test next target hi hjump =>
    rw [execIn_of_getElem? surroundings _ hs hlt, hi]
    simp only [if_neg hjump]
  | case5 index stop hlt s hs target hi hjump ih =>
    rw [execIn_of_getElem? surroundings _ hs hlt, hi]
    simp only [if_pos hjump, ih]
  | case6 index stop hlt s hs target hi hjump =>
    rw [execIn_of_getElem? surroundings _ hs hlt, hi]
    simp only [if_neg hjump]
  | case7 index stop hlt s hs kind valueName keyName source target hi ihbody ih =>
    rw [execIn_of_getElem? surroundings _ hs hlt, hi]
    refine Eq.trans ?_ (bind_loopVisits surroundings template s kind source _)
    refine bind_congr fun visits => ?_
    simp only [ihbody]
    refine bind_congr fun _ => ?_
    split
    · rename_i hjump
      exact ih hjump
    · rfl
  | case8 index stop hlt s hs h1 h2 h3 h4 ih =>
    rw [execIn_of_getElem? surroundings _ hs hlt]
    split
    · rename_i condition next heq
      exact (h1 condition next heq).elim
    · rename_i test next target heq
      exact (h2 test next target heq).elim
    · rename_i target heq
      exact (h3 target heq).elim
    · rename_i kind valueName keyName source target heq
      exact (h4 kind valueName keyName source target heq).elim
    · rename_i heq
      rw [ih]
      simp only [step, heq, pure_bind]
    · exact bind_congr fun _ => ih
  | case9 index stop hlt =>
    rw [execIn_of_le surroundings _ (by omega)]

end Run

section Walk

variable {σ : Type} {m : Type → Type} [Monad m] [MonadLiftT (RunM σ) m]
variable (surroundings : Surroundings σ) (template : Template) (perform : Nat → Statement → m Unit)

mutual

/-- The walk through a nest that begins at `i`, by its structure alone. -/
def Nest.walk : Nat → Nest → m Unit
  | _, .nil => pure ()
  | i, .plain s _ rest => do
    perform i s
    rest.walk (i + 1)
  | i, .conditional s test _ body branches _ rest => do
    let holds ← Run.test surroundings template s test
    if holds then body.walk (i + 1) else branches.walk (i + 1 + body.size)
    rest.walk (i + 1 + body.size + branches.size + 1)
  | i, .loop s head _ body _ rest => do
    let visits ← Run.loopVisits surroundings template s head.kind head.source
    visits.forM fun visit => do
      Run.bindVisit (σ := σ) head.value head.key visit
      body.walk (i + 1)
    rest.walk (i + 1 + body.size + 1)
  | i, .collecting s collector body e rest => do
    perform i (s.as collector.opening)
    body.walk (i + 1)
    perform (i + 1 + body.size) (e.as collector.closing)
    rest.walk (i + 1 + body.size + 1)

def Branches.walk : Nat → Branches → m Unit
  | _, .nil => pure ()
  | j, .elseBranch s test _ _ body more => do
    let value ← Run.eval surroundings template s test
    if value.isTruthy then body.walk (j + 1) else more.walk (j + 1 + body.size)
  | j, .otherwise _ _ body => body.walk (j + 1)

end

variable {template} {stop : Nat}

namespace Run

/-- Branches are passed over when they are reached in sequence. -/
theorem execIn_past_branches (b : Branches) {j last : Nat} {e : Statement}
    (h : b.At template.statements j last) (hlast : j + b.size = last)
    (he : template.statements[last]? = some (e.as .close)) (hstop : last < stop) :
    execIn surroundings template perform j stop =
      execIn surroundings template perform (last + 1) stop := by
  have hclose : execIn surroundings template perform last stop =
      execIn surroundings template perform (last + 1) stop :=
    execIn_of_getElem? surroundings perform he hstop
  cases b with
  | nil =>
    obtain rfl : j = last := hlast
    exact hclose
  | elseBranch s test next stop' body more =>
    simp only [Branches.size_elseBranch] at hlast
    rw [execIn_of_getElem? surroundings perform h.1 (by omega)]
    simp only [Statement.as]
    rw [if_pos (by omega), hclose]
  | otherwise s stop' body =>
    simp only [Branches.size_otherwise] at hlast
    rw [execIn_of_getElem? surroundings perform h.1 (by omega)]
    simp only [Statement.as]
    rw [if_pos (by omega), hclose]

section Performed

variable {i : Nat} {s : Statement}

theorem execIn_plain (hs : template.statements[i]? = some s) (h : s.instruction.isPlain = true)
    (hstop : i < stop) : execIn surroundings template perform i stop = (do
      perform i s
      execIn surroundings template perform (i + 1) stop) := by
  rw [execIn_of_getElem? surroundings perform hs hstop]
  cases hi : s.instruction <;> simp_all [Instruction.isPlain]

theorem execIn_opening {collector : Collector}
    (hs : template.statements[i]? = some (s.as collector.opening)) (hstop : i < stop) :
    execIn surroundings template perform i stop = (do
      perform i (s.as collector.opening)
      execIn surroundings template perform (i + 1) stop) := by
  rw [execIn_of_getElem? surroundings perform hs hstop]
  cases collector <;> rfl

theorem execIn_closing {collector : Collector}
    (hs : template.statements[i]? = some (s.as collector.closing)) (hstop : i < stop) :
    execIn surroundings template perform i stop = (do
      perform i (s.as collector.closing)
      execIn surroundings template perform (i + 1) stop) := by
  rw [execIn_of_getElem? surroundings perform hs hstop]
  cases collector <;> rfl

end Performed

variable [LawfulMonad m]

mutual

/-- The walk through a list that holds a nest goes through the nest and on from its end. -/
theorem execIn_nest : ∀ (n : Nest) {i last stop : Nat}, n.At template.statements i →
    i + n.size = last → last ≤ stop → execIn surroundings template perform i stop = (do
      n.walk surroundings template perform i
      execIn surroundings template perform last stop)
  | .nil, i, last, stop, h, hlast, hstop => by
    obtain rfl : i = last := hlast
    simp [Nest.walk]
  | .plain s hp rest, i, last, stop, h, hlast, hstop => by
    simp only [Nest.size_plain] at hlast
    rw [execIn_plain surroundings perform h.1 hp (by omega),
      execIn_nest rest h.2 (by omega) hstop]
    simp [Nest.walk]
  | .conditional s condition next body branches e rest, i, last, stop, h, hlast, hstop => by
    obtain ⟨hs, hbody, hbranches, he, hrest⟩ := h
    simp only [Nest.size_conditional] at hlast
    have hbodyEnd : i + 1 + body.size ≤ stop := by omega
    -- a branch that has been run leads past those after it to the end
    have hthen := execIn_nest body hbody rfl hbodyEnd
    have hend := execIn_nest rest hrest (by omega) hstop
    rw [execIn_past_branches surroundings perform branches hbranches rfl he (by omega), hend]
      at hthen
    have hlastLt : i + 1 + body.size + branches.size < stop := by omega
    have helse := execIn_branches branches (i := i) hbranches rfl he (by omega) hlastLt
    rw [hend] at helse
    rw [execIn_of_getElem? surroundings perform hs (by omega)]
    simp only [Statement.as, Nest.walk, bind_assoc]
    refine bind_congr fun holds => ?_
    cases holds with
    | true => simpa using hthen
    | false => simpa using helse
  | .loop s head stop' body e rest, i, last, stop, h, hlast, hstop => by
    obtain ⟨hs, hbody, he, hrest⟩ := h
    simp only [Nest.size_loop] at hlast
    -- every visit stops at the closing statement, and the loop goes on after it
    have honce := execIn_nest body hbody rfl (Nat.le_refl _)
    rw [execIn_of_le surroundings perform (Nat.le_refl _), bind_pure_unit] at honce
    have hclose := execIn_nest rest hrest (by omega) hstop
    rw [execIn_of_getElem? surroundings perform hs (by omega)]
    simp only [Statement.as, LoopHead.instruction, Nest.walk, bind_assoc, honce, hclose,
      show i ≤ i + 1 + body.size by omega, if_true]
    rfl
  | .collecting s collector body e rest, i, last, stop, h, hlast, hstop => by
    obtain ⟨hs, hbody, he, hrest⟩ := h
    simp only [Nest.size_collecting] at hlast
    rw [execIn_opening surroundings perform hs (by omega), execIn_nest body hbody rfl (by omega),
      execIn_closing surroundings perform he (by omega),
      execIn_nest rest hrest (by omega) hstop]
    simp [Nest.walk]

/-- The walk after a failed test goes through the branches and on after the conditional. -/
theorem execIn_branches : ∀ (b : Branches) {i j last stop : Nat} {e : Statement},
    b.At template.statements j last → j + b.size = last →
    template.statements[last]? = some (e.as .close) → i < j → last < stop → (do
      let target ← chooseIn surroundings template j
      if i < target then execIn surroundings template perform target stop else pure ()) = (do
      b.walk surroundings template perform j
      execIn surroundings template perform (last + 1) stop)
  | .nil, i, j, last, stop, e, h, hlast, he, hi, hstop => by
    obtain rfl : j = last := hlast
    rw [chooseIn_of_getElem? surroundings he]
    simp [Statement.as, Branches.walk, show i < j + 1 by omega]
  | .elseBranch s condition next stop' body more, i, j, last, stop, e, h, hlast, he, hi, hstop => by
    obtain ⟨hs, hbody, hmore⟩ := h
    simp only [Branches.size_elseBranch] at hlast
    have hbodyEnd : j + 1 + body.size ≤ stop := by omega
    have hthen := execIn_nest body hbody rfl hbodyEnd
    rw [execIn_past_branches surroundings perform more hmore (by omega) he hstop] at hthen
    have helse := execIn_branches more (i := i) hmore (by omega) he (by omega) hstop
    rw [chooseIn_of_getElem? surroundings hs]
    simp only [Statement.as, Branches.walk, bind_assoc]
    refine bind_congr fun value => ?_
    cases value.isTruthy with
    | true => simpa [show i < j + 1 by omega] using hthen
    | false => simpa [show j < j + 1 + body.size by omega] using helse
  | .otherwise s stop' body, i, j, last, stop, e, h, hlast, he, hi, hstop => by
    obtain ⟨hs, hbody⟩ := h
    simp only [Branches.size_otherwise] at hlast
    have hbodyEnd : j + 1 + body.size = last := by omega
    have hthen := execIn_nest body hbody hbodyEnd (Nat.le_of_lt hstop)
    rw [execIn_past_branches surroundings perform .nil trivial rfl he hstop] at hthen
    rw [chooseIn_of_getElem? surroundings hs]
    simpa [Statement.as, Branches.walk, show i < j + 1 by omega] using hthen

end

end Run

end Walk

end Templating
