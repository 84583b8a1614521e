import Templating.Expr

/-!
Statements of a template: one for each literal run and each directive, in a flat list. Openers know
where to go on by positions in that list, which are missing until the list is linked.
-/
namespace Templating

inductive Condition where
  | holds (e : Expr)
  | bound (name : String)
  | unbound (name : String)

/-- Which values a loop visits: the entries of a value by their keys, or its items by their
positions. -/
inductive LoopKind where
  | entries
  | items
  deriving DecidableEq, Repr, Inhabited

def LoopKind.word : LoopKind → String
  | entries => "for"
  | items => "each"

/-- `next` is where a conditional goes on after a failed test, and `stop` the end of the construct.
-/
inductive Instruction where
  | literal (text : String)
  | emit (e : Expr)
  | emitEncoded (e : Expr)
  | put (name : String)
  | comment
  | branch (test : Condition) (next : Option Nat)
  | elseBranch (test : Expr) (next stop : Option Nat)
  | otherwise (stop : Option Nat)
  | loop (kind : LoopKind) (value : String) (key : Option String) (source : Expr)
      (stop : Option Nat)
  | close
  | block (name : String)
  | closeBlock
  | layout (path : Expr)
  | insert (path : Expr) (data : Option Expr) (content : Bool)
  | closeInsert
  | tag (name : String) (first : Expr) (data : Option Expr) (content : Bool)
  | closeTag (name : String)
  | shortcut (name : String) (data : Option Expr) (content : Bool)
  | closeShortcut (name : String)
  deriving Inhabited

/-- An instruction with the line and the byte offset of the directive that it comes from. The
directive of a literal run is empty. -/
structure Statement where
  line : Nat
  offset : Nat
  directive : String
  instruction : Instruction
  deriving Inhabited

structure Template where
  path : String
  source : String
  statements : List Statement
  deriving Inhabited

def Instruction.isLayout : Instruction → Bool
  | layout _ => true
  | _ => false

def Template.hasLayout (t : Template) : Bool :=
  t.statements.getLast?.any (·.instruction.isLayout)

end Templating
