import Templating.Template.Compile
import Templating.Proofs.Balance
import Templating.Proofs.Execution

/-!
Running a nest by its structure, and compiled templates as such runs. No target is looked at: a
conditional runs one of its branches, a loop its body for each visit, and every other statement is
performed where it stands.
-/
namespace Templating

section Run

variable {σ : Type} (surroundings : Surroundings σ) (template : Template)

mutual

/-- Runs a nest. Of the template only the path is used, for failures and places of calls. -/
def Nest.run : Nest → RunM σ Unit
  | .nil => pure ()
  | .plain s _ rest => do
    Run.step surroundings template s
    rest.run
  | .conditional s test _ body branches _ rest => do
    if ← Run.test surroundings template s test then body.run else branches.run
    rest.run
  | .loop s head _ body _ rest => do
    let visits ← Run.loopVisits surroundings template s head.kind head.source
    visits.forM fun visit => do
      Run.bindVisit head.value head.key visit
      body.run
    rest.run
  | .collecting s collector body e rest => do
    Run.step surroundings template (s.as collector.opening)
    body.run
    Run.step surroundings template (e.as collector.closing)
    rest.run

def Branches.run : Branches → RunM σ Unit
  | .nil => pure ()
  | .elseBranch s test _ _ body more => do
    let value ← Run.eval surroundings template s test
    if value.isTruthy then body.run else more.run
  | .otherwise _ _ body => body.run

end

def Nest.text (n : Nest) : RenderM σ String := do
  let names := (← get).context.flatten
  let (_, a) ← (n.run surroundings template).run { names }
  return a.output

mutual

theorem Nest.walk_step : ∀ (n : Nest) (i : Nat),
    n.walk surroundings template (fun _ s => Run.step surroundings template s) i =
      n.run surroundings template
  | .nil, i => rfl
  | .plain s h rest, i => by
    rw [Nest.walk, Nest.run, rest.walk_step]
  | .conditional s test next body branches e rest, i => by
    rw [Nest.walk, Nest.run, body.walk_step, branches.walk_step, rest.walk_step]
    rfl
  | .loop s head stop body e rest, i => by
    rw [Nest.walk, Nest.run, body.walk_step, rest.walk_step]
    rfl
  | .collecting s collector body e rest, i => by
    rw [Nest.walk, Nest.run, body.walk_step, rest.walk_step]

theorem Branches.walk_step : ∀ (b : Branches) (j : Nat),
    b.walk surroundings template (fun _ s => Run.step surroundings template s) j =
      b.run surroundings template
  | .nil, j => rfl
  | .elseBranch s test next stop body more, j => by
    rw [Branches.walk, Branches.run, body.walk_step, more.walk_step]
    rfl
  | .otherwise s stop body, j => by
    rw [Branches.walk, Branches.run, body.walk_step]

end

/-- The list of statements of the template is not looked at. -/
def Template.bare (template : Template) : Template := { template with statements := [] }

theorem step_bare (s : Statement) :
    Run.step surroundings template.bare s = Run.step surroundings template s := rfl

theorem eval_bare (s : Statement) :
    Run.eval surroundings template.bare s = Run.eval surroundings template s := rfl

theorem test_bare (s : Statement) :
    Run.test surroundings template.bare s = Run.test surroundings template s := by
  funext condition
  cases condition <;> rfl

theorem loopVisits_bare (s : Statement) :
    Run.loopVisits surroundings template.bare s = Run.loopVisits surroundings template s := rfl

mutual

theorem Nest.run_bare : ∀ n : Nest, n.run surroundings template.bare = n.run surroundings template
  | .nil => rfl
  | .plain s h rest => by
    rw [Nest.run, Nest.run, step_bare, rest.run_bare]
  | .conditional s test next body branches e rest => by
    rw [Nest.run, Nest.run, test_bare, body.run_bare, branches.run_bare, rest.run_bare]
  | .loop s head stop body e rest => by
    rw [Nest.run, Nest.run, loopVisits_bare, body.run_bare, rest.run_bare]
  | .collecting s collector body e rest => by
    rw [Nest.run, Nest.run, step_bare, step_bare, body.run_bare, rest.run_bare]

theorem Branches.run_bare : ∀ b : Branches,
    b.run surroundings template.bare = b.run surroundings template
  | .nil => rfl
  | .elseBranch s test next stop body more => by
    rw [Branches.run, Branches.run, eval_bare, body.run_bare, more.run_bare]
  | .otherwise s stop body => by
    rw [Branches.run, Branches.run, body.run_bare]

end

end Run

/-- The statements of a source, before they are linked. -/
def readStatements (grammar : Grammar) (path source : String) :
    Except SyntaxError (List Statement) :=
  (segmentsOf source).mapM (Segment.statement grammar path)

theorem compile_eq_ok {grammar : Grammar} {path source : String} {template : Template}
    (h : Template.compile grammar path source = .ok template) :
    ∃ statements linked, readStatements grammar path source = .ok statements ∧
      link statements = .ok linked ∧ template = ⟨path, source, linked⟩ := by
  unfold Template.compile at h
  cases hread : readStatements grammar path source with
  | error e =>
    rw [readStatements] at hread
    simp [hread, bind, Except.bind] at h
  | ok statements =>
    rw [readStatements] at hread
    simp only [hread, bind, Except.bind] at h
    cases hlink : link statements with
    | error e => simp [hlink, throw, throwThe, MonadExceptOf.throw] at h
    | ok linked =>
      simp only [hlink, pure, Except.pure, Except.ok.injEq] at h
      exact ⟨statements, linked, rfl, hlink, h.symm⟩

/-- A source that compiles, with what follows from that. -/
theorem exists_compiled {grammar : Grammar} {path source : String} {P : Template → Prop}
    (hsome : (Template.compile grammar path source).toOption.isSome = true)
    (hP : ∀ template, Template.compile grammar path source = .ok template → P template) :
    ∃ template, Template.compile grammar path source = .ok template ∧ P template := by
  cases hc : Template.compile grammar path source with
  | ok template => exact ⟨template, rfl, hP template hc⟩
  | error e => simp [hc, Except.toOption] at hsome

/-- Running the flat list of the template is running the nest, from any names, output, captures and
pending calls, in any context and surroundings, to the same end or failure. -/
def Template.RunsAs (template : Template) (n : Nest) : Prop :=
  ∀ (σ : Type) (surroundings : Surroundings σ),
    Run.exec surroundings template 0 template.statements.length =
      n.run surroundings template.bare ∧
    Run.text surroundings template = n.text surroundings template.bare

theorem Nest.At.runsAs {n : Nest} {template : Template} (h : n.At template.statements 0)
    (hsize : n.size = template.statements.length) : template.RunsAs n := by
  intro σ surroundings
  have hexec : Run.exec surroundings template 0 template.statements.length =
      n.run surroundings template.bare := by
    rw [← Run.execIn_step, Run.execIn_nest surroundings _ n h rfl (by omega), Nat.zero_add, hsize,
      Run.execIn_of_le surroundings _ (Nat.le_refl _), bind_pure_unit, n.walk_step, n.run_bare]
  refine ⟨hexec, ?_⟩
  rw [Run.text, hexec, Nest.text]

/-- The statements of a compiled template are balanced, and it runs as their nest does. -/
theorem compiled_runs_as_nest {grammar : Grammar} {path source : String} {template : Template}
    (h : Template.compile grammar path source = .ok template) :
    ∃ statements, readStatements grammar path source = .ok statements ∧ Balanced statements ∧
      ∀ n : Nest, n.statements = statements → template.RunsAs n := by
  obtain ⟨statements, linked, hread, hlink, rfl⟩ := compile_eq_ok h
  have hbalanced : Balanced statements := Balanced.of_link hlink
  refine ⟨statements, hread, hbalanced, ?_⟩
  rintro n rfl
  obtain ⟨linked', hlink', hat⟩ := n.link_statements
  obtain rfl : linked' = linked := by simpa [hlink'] using hlink
  exact hat.runsAs (length_link hlink).symm

/-- A loop around a conditional with three branches, with a block after it. -/
theorem loop_of_branches_runs_as_nest : ∃ template,
    Template.compile {} "/t"
      ("\x7b\x7beach v, i in list\x7d\x7d\x7b\x7bif v\x7d\x7da\x7b\x7belse if i\x7d\x7db" ++
        "\x7b\x7belse\x7d\x7dc\x7b\x7bend\x7d\x7d\x7b\x7bend\x7d\x7d\x7b\x7bblock d\x7d\x7de" ++
        "\x7b\x7bendblock\x7d\x7d") = .ok template ∧
      ∃ statements, Balanced statements ∧
        ∀ n : Nest, n.statements = statements → template.RunsAs n := by
  refine exists_compiled (by decide +kernel) fun template h => ?_
  obtain ⟨statements, -, hbalanced, hrun⟩ := compiled_runs_as_nest h
  exact ⟨statements, hbalanced, hrun⟩

end Templating
