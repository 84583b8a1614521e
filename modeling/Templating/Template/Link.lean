import Templating.Template.Error

/-!
Linking: openers and closers have to balance, and every branch and loop learns where to go on.
-/
namespace Templating

/-- A construct that is open, with the index of its opener. The branches of a conditional are those
after the opener, the latest first. -/
inductive Open where
  | conditional (opener : Nat) (branches : List Nat) (hasElse : Bool)
  | loop (opener : Nat)
  | block (opener : Nat)
  | insert (opener : Nat)
  | tag (opener : Nat) (name : String)
  | shortcut (opener : Nat) (name : String)
  deriving DecidableEq, Repr

namespace Open

def opener : Open → Nat
  | conditional i _ _ | loop i | block i | insert i | tag i _ | shortcut i _ => i

def closer : Open → Closer
  | conditional _ _ _ | loop _ => .close
  | block _ => .closeBlock
  | insert _ => .closeInsert
  | tag _ name | shortcut _ name => .closeNamed name

end Open

/-- Where the statement at `index` goes on: `next` after a failed test, `stop` at its end. -/
structure Target where
  index : Nat
  next : Nat
  stop : Nat
  deriving DecidableEq, Repr

/-- The targets of branches, the latest first, that come before the one at `next`. -/
def branchTargets (stop : Nat) : Nat → List Nat → List Target
  | _, [] => []
  | next, i :: branches => ⟨i, next, stop⟩ :: branchTargets stop i branches

/-- A closing directive that closes nothing, or not what is open. -/
def unbalanced (found : Closer) : List Open → SyntaxFault
  | [] => .nothingToClose found
  | innermost :: _ => .mismatched innermost.closer found

/-- What a statement does to the open constructs, and the targets that it settles. -/
def Instruction.balance (index : Nat) (stack : List Open) :
    Instruction → Except SyntaxFault (List Open × List Target)
  | branch _ _ => .ok (.conditional index [] false :: stack, [])
  | elseBranch _ _ _ =>
    match stack with
    | .conditional i branches false :: outer =>
      .ok (.conditional i (index :: branches) false :: outer, [])
    | _ => .error .misplacedElse
  | otherwise _ =>
    match stack with
    | .conditional i branches false :: outer =>
      .ok (.conditional i (index :: branches) true :: outer, [])
    | _ => .error .misplacedElse
  | loop _ _ _ _ _ => .ok (.loop index :: stack, [])
  | block _ => .ok (.block index :: stack, [])
  | insert _ _ true => .ok (.insert index :: stack, [])
  | tag name _ _ true => .ok (.tag index name :: stack, [])
  | shortcut name _ true => .ok (.shortcut index name :: stack, [])
  | close =>
    match stack with
    | .conditional i branches _ :: outer => .ok (outer, branchTargets index index (branches ++ [i]))
    | .loop i :: outer => .ok (outer, [⟨i, index, index⟩])
    | _ => .error (unbalanced .close stack)
  | closeBlock =>
    match stack with
    | .block _ :: outer => .ok (outer, [])
    | _ => .error (unbalanced .closeBlock stack)
  | closeInsert =>
    match stack with
    | .insert _ :: outer => .ok (outer, [])
    | _ => .error (unbalanced .closeInsert stack)
  | closeTag name =>
    match stack with
    | .tag i opened :: outer =>
      if opened = name then .ok (outer, [])
      else .error (unbalanced (.closeNamed name) (.tag i opened :: outer))
    | _ => .error (unbalanced (.closeNamed name) stack)
  | closeShortcut name =>
    match stack with
    | .shortcut i opened :: outer =>
      if opened = name then .ok (outer, [])
      else .error (unbalanced (.closeNamed name) (.shortcut i opened :: outer))
    | _ => .error (unbalanced (.closeNamed name) stack)
  | _ => .ok (stack, [])

/-- A fault of balance and the index of the statement that it is laid to. -/
structure LinkError where
  index : Nat
  fault : SyntaxFault
  deriving DecidableEq, Repr

def targetsFrom (index : Nat) (stack : List Open) :
    List Statement → Except LinkError (List Target)
  | [] =>
    match stack with
    | [] => .ok []
    | innermost :: _ => .error ⟨innermost.opener, .unclosed innermost.closer⟩
  | s :: statements =>
    match s.instruction.balance index stack with
    | .error fault => .error ⟨index, fault⟩
    | .ok (stack, targets) => (targetsFrom (index + 1) stack statements).map (targets ++ ·)

def Instruction.aimed (t : Target) : Instruction → Instruction
  | branch test _ => .branch test (some t.next)
  | elseBranch test _ _ => .elseBranch test (some t.next) (some t.stop)
  | otherwise _ => .otherwise (some t.stop)
  | loop kind value key source _ => .loop kind value key source (some t.stop)
  | other => other

def Statement.aimed (targets : List Target) (index : Nat) (s : Statement) : Statement :=
  match targets.find? (·.index == index) with
  | some t => { s with instruction := s.instruction.aimed t }
  | none => s

def link (statements : List Statement) : Except LinkError (List Statement) :=
  (targetsFrom 0 [] statements).map fun targets => statements.mapIdx (Statement.aimed targets)

theorem length_link {statements linked : List Statement} (h : link statements = .ok linked) :
    linked.length = statements.length := by
  unfold link at h
  cases ht : targetsFrom 0 [] statements with
  | error e => simp [ht, Except.map] at h
  | ok targets =>
    simp only [ht, Except.map, Except.ok.injEq] at h
    rw [← h, List.length_mapIdx]

end Templating
