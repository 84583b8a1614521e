import Templating.Template.Link

/-!
Nests: lists of statements as trees. Each constructor is a rule of the grammar of balanced lists, and
`statements` writes the list out again. Targets play no part in the grammar; `At` says of a linked
list that it holds a nest with all of them right.
-/
namespace Templating

/-- Neither opens, closes nor continues a construct. -/
def Instruction.isPlain : Instruction → Bool
  | literal _ | emit _ | emitEncoded _ | put _ | comment | layout _ => true
  | insert _ _ content | tag _ _ _ content | shortcut _ _ content => !content
  | _ => false

def Statement.as (s : Statement) (i : Instruction) : Statement := { s with instruction := i }

structure LoopHead where
  kind : LoopKind
  value : String
  key : Option String
  source : Expr

def LoopHead.instruction (head : LoopHead) (stop : Option Nat) : Instruction :=
  .loop head.kind head.value head.key head.source stop

/-- A construct that collects the text up to its closing directive: a block or a call with content.
-/
inductive Collector where
  | block (name : String)
  | insert (path : Expr) (data : Option Expr)
  | tag (name : String) (first : Expr) (data : Option Expr)
  | shortcut (name : String) (data : Option Expr)

namespace Collector

def opening : Collector → Instruction
  | block name => .block name
  | insert path data => .insert path data true
  | tag name first data => .tag name first data true
  | shortcut name data => .shortcut name data true

def closing : Collector → Instruction
  | block _ => .closeBlock
  | insert _ _ => .closeInsert
  | tag name _ _ => .closeTag name
  | shortcut name _ => .closeShortcut name

def opened (index : Nat) : Collector → Open
  | block _ => .block index
  | insert _ _ => .insert index
  | tag name _ _ => .tag index name
  | shortcut name _ => .shortcut index name

end Collector

mutual

/-- The rules for balanced lists: nothing, or a first statement or construct and what follows it. A
construct keeps its opening statement `s` and its closing one `e`. -/
inductive Nest where
  | nil
  | plain (s : Statement) (isPlain : s.instruction.isPlain = true) (rest : Nest)
  | conditional (s : Statement) (test : Condition) (next : Option Nat) (body : Nest)
      (branches : Branches) (e : Statement) (rest : Nest)
  | loop (s : Statement) (head : LoopHead) (stop : Option Nat) (body : Nest) (e : Statement)
      (rest : Nest)
  | collecting (s : Statement) (collector : Collector) (body : Nest) (e : Statement) (rest : Nest)

/-- The branches of a conditional after its first: any number with a test, and perhaps one without.
-/
inductive Branches where
  | nil
  | elseBranch (s : Statement) (test : Expr) (next stop : Option Nat) (body : Nest)
      (more : Branches)
  | otherwise (s : Statement) (stop : Option Nat) (body : Nest)

end

mutual

/-- The list that a nest is read from. -/
def Nest.statements : Nest → List Statement
  | .nil => []
  | .plain s _ rest => s :: rest.statements
  | .conditional s test next body branches e rest =>
    s.as (.branch test next) ::
      (body.statements ++ (branches.statements ++ e.as .close :: rest.statements))
  | .loop s head stop body e rest =>
    s.as (head.instruction stop) :: (body.statements ++ e.as .close :: rest.statements)
  | .collecting s collector body e rest =>
    s.as collector.opening :: (body.statements ++ e.as collector.closing :: rest.statements)

def Branches.statements : Branches → List Statement
  | .nil => []
  | .elseBranch s test next stop body more =>
    s.as (.elseBranch test next stop) :: (body.statements ++ more.statements)
  | .otherwise s stop body => s.as (.otherwise stop) :: body.statements

end

/-- Derivable in the grammar. -/
def Balanced (statements : List Statement) : Prop := ∃ n : Nest, n.statements = statements

def Nest.size (n : Nest) : Nat := n.statements.length

def Branches.size (b : Branches) : Nat := b.statements.length

section Size

variable (s e : Statement) (body rest : Nest) (branches : Branches)

@[simp] theorem Nest.size_nil : Nest.nil.size = 0 := rfl

@[simp] theorem Nest.size_plain (h : s.instruction.isPlain = true) :
    (Nest.plain s h rest).size = rest.size + 1 := rfl

@[simp] theorem Nest.size_conditional (test : Condition) (next : Option Nat) :
    (Nest.conditional s test next body branches e rest).size =
      body.size + branches.size + rest.size + 2 := by
  simp [Nest.size, Branches.size, Nest.statements]
  omega

@[simp] theorem Nest.size_loop (head : LoopHead) (stop : Option Nat) :
    (Nest.loop s head stop body e rest).size = body.size + rest.size + 2 := by
  simp [Nest.size, Nest.statements]
  omega

@[simp] theorem Nest.size_collecting (collector : Collector) :
    (Nest.collecting s collector body e rest).size = body.size + rest.size + 2 := by
  simp [Nest.size, Nest.statements]
  omega

@[simp] theorem Branches.size_nil : Branches.nil.size = 0 := rfl

@[simp] theorem Branches.size_elseBranch (test : Expr) (next stop : Option Nat) :
    (Branches.elseBranch s test next stop body branches).size =
      body.size + branches.size + 1 := by
  simp [Nest.size, Branches.size, Branches.statements]

@[simp] theorem Branches.size_otherwise (stop : Option Nat) :
    (Branches.otherwise s stop body).size = body.size + 1 := rfl

end Size

def Nest.append : Nest → Nest → Nest
  | .nil, m => m
  | .plain s h rest, m => .plain s h (rest.append m)
  | .conditional s test next body branches e rest, m =>
    .conditional s test next body branches e (rest.append m)
  | .loop s head stop body e rest, m => .loop s head stop body e (rest.append m)
  | .collecting s collector body e rest, m => .collecting s collector body e (rest.append m)

theorem Nest.statements_append : ∀ n m : Nest,
    (n.append m).statements = n.statements ++ m.statements
  | .nil, m => rfl
  | .plain s h rest, m => by simp [Nest.append, Nest.statements, rest.statements_append m]
  | .conditional s test next body branches e rest, m => by
    simp [Nest.append, Nest.statements, rest.statements_append m]
  | .loop s head stop body e rest, m => by
    simp [Nest.append, Nest.statements, rest.statements_append m]
  | .collecting s collector body e rest, m => by
    simp [Nest.append, Nest.statements, rest.statements_append m]

theorem Balanced.append {l m : List Statement} (hl : Balanced l) (hm : Balanced m) :
    Balanced (l ++ m) := by
  obtain ⟨n, rfl⟩ := hl
  obtain ⟨k, rfl⟩ := hm
  exact ⟨n.append k, n.statements_append k⟩

end Templating
