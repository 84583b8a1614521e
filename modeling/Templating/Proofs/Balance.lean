import Templating.Proofs.Linking

/-!
What linking accepts and where it rejects. The stack of open constructs describes what has been read
so far: whole nests, and between them the openers of the constructs that are still open, each with
what it holds already.
-/
namespace Templating

def Instruction.closer? : Instruction → Option Closer
  | close => some .close
  | closeBlock => some .closeBlock
  | closeInsert => some .closeInsert
  | closeTag name | closeShortcut name => some (.closeNamed name)
  | _ => none

/-- A single construct from its opener to its end. -/
def Nest.IsConstruct : Nest → Prop
  | .conditional _ _ _ _ _ _ rest | .loop _ _ _ _ _ rest | .collecting _ _ _ _ rest => rest = .nil
  | _ => False

def Construct (l : List Statement) : Prop := ∃ n : Nest, n.IsConstruct ∧ n.statements = l

/-- Some list after it makes it balanced. -/
def Completable (l : List Statement) : Prop := ∃ rest, Balanced (l ++ rest)

/-- The construct that begins at the index lacks nothing but a closing directive of the given kind.
-/
def InnermostOpen (l : List Statement) (index : Nat) (closer : Closer) : Prop :=
  index < l.length ∧ ∃ e : Statement, e.instruction.closer? = some closer ∧
    Construct (l.drop index ++ [e])

namespace Open

def takesBranches : Open → Bool
  | conditional _ _ hasElse => !hasElse
  | _ => false

def closing : Open → Instruction
  | conditional _ _ _ | loop _ => .close
  | block _ => .closeBlock
  | insert _ => .closeInsert
  | tag _ name => .closeTag name
  | shortcut _ name => .closeShortcut name

theorem closer?_closing (o : Open) : o.closing.closer? = some o.closer := by
  cases o <;> rfl

/-- The lists that bring an open construct to its end. -/
inductive Finishes : Open → List Statement → Prop
  | branches {o : Open} (h : o.takesBranches = true) (m : Nest) (more : Branches) (e : Statement) :
    Finishes o (m.statements ++ (more.statements ++ [e.as o.closing]))
  | end {o : Open} (h : o.takesBranches = false) (m : Nest) (e : Statement) :
    Finishes o (m.statements ++ [e.as o.closing])

theorem finishes_closing (o : Open) (e : Statement) : o.Finishes [e.as o.closing] := by
  cases h : o.takesBranches with
  | true => exact Finishes.branches h .nil .nil e
  | false => exact Finishes.end h .nil e

theorem Finishes.append {o : Open} {tail : List Statement} (h : o.Finishes tail) (n : Nest) :
    o.Finishes (n.statements ++ tail) := by
  cases h with
  | branches h m more e =>
    rw [← List.append_assoc, ← n.statements_append]
    exact Finishes.branches h (n.append m) more e
  | «end» h m e =>
    rw [← List.append_assoc, ← n.statements_append]
    exact Finishes.end h (n.append m) e

end Open

namespace Instruction

/-- The moves of a statement at an index, from the open constructs before it to those after it. -/
inductive Moves (index : Nat) : Instruction → List Open → List Open → Prop
  | plain {instruction : Instruction} {stack : List Open} (h : instruction.isPlain = true) :
    Moves index instruction stack stack
  | branch (test : Condition) (next : Option Nat) (stack : List Open) :
    Moves index (.branch test next) stack (.conditional index [] false :: stack)
  | loop (head : LoopHead) (stop : Option Nat) (stack : List Open) :
    Moves index (head.instruction stop) stack (.loop index :: stack)
  | collect (collector : Collector) (stack : List Open) :
    Moves index collector.opening stack (collector.opened index :: stack)
  | elseBranch (test : Expr) (next stop : Option Nat) (i : Nat) (branches : List Nat)
      (outer : List Open) :
    Moves index (.elseBranch test next stop) (.conditional i branches false :: outer)
      (.conditional i (index :: branches) false :: outer)
  | otherwise (stop : Option Nat) (i : Nat) (branches : List Nat) (outer : List Open) :
    Moves index (.otherwise stop) (.conditional i branches false :: outer)
      (.conditional i (index :: branches) true :: outer)
  | close (o : Open) (stack : List Open) : Moves index o.closing (o :: stack) stack

theorem moves_of_balance {instruction : Instruction} {index : Nat} {stack after : List Open}
    {ts : List Target} (h : instruction.balance index stack = .ok (after, ts)) :
    instruction.Moves index stack after := by
  cases instruction with
  | branch test next =>
    cases h
    exact Moves.branch test next stack
  | loop kind value key source stop =>
    cases h
    exact Moves.loop ⟨kind, value, key, source⟩ stop stack
  | block name =>
    cases h
    exact Moves.collect (.block name) stack
  | insert path data content =>
    cases content with
    | true => cases h; exact Moves.collect (.insert path data) stack
    | false => cases h; exact Moves.plain rfl
  | tag name first data content =>
    cases content with
    | true => cases h; exact Moves.collect (.tag name first data) stack
    | false => cases h; exact Moves.plain rfl
  | shortcut name data content =>
    cases content with
    | true => cases h; exact Moves.collect (.shortcut name data) stack
    | false => cases h; exact Moves.plain rfl
  | elseBranch test next stop =>
    simp only [balance] at h
    split at h
    · cases h; exact Moves.elseBranch test next stop _ _ _
    · cases h
  | otherwise stop =>
    simp only [balance] at h
    split at h
    · cases h; exact Moves.otherwise stop _ _ _
    · cases h
  | close =>
    simp only [balance] at h
    split at h
    · cases h; exact Moves.close (.conditional _ _ _) _
    · cases h; exact Moves.close (.loop _) _
    · cases h
  | closeBlock =>
    simp only [balance] at h
    split at h
    · cases h; exact Moves.close (.block _) _
    · cases h
  | closeInsert =>
    simp only [balance] at h
    split at h
    · cases h; exact Moves.close (.insert _) _
    · cases h
  | closeTag name =>
    simp only [balance] at h
    split at h
    · split at h
      · rename_i heq
        cases h; cases heq; exact Moves.close (.tag _ _) _
      · cases h
    · cases h
  | closeShortcut name =>
    simp only [balance] at h
    split at h
    · split at h
      · rename_i heq
        cases h; cases heq; exact Moves.close (.shortcut _ _) _
      · cases h
    · cases h
  | _ =>
    cases h
    exact Moves.plain rfl

inductive Refused (stack : List Open) : Instruction → SyntaxFault → Prop
  | misplaced (instruction : Instruction) : Refused stack instruction .misplacedElse
  | closer {instruction : Instruction} {found : Closer} (h : instruction.closer? = some found) :
    Refused stack instruction (unbalanced found stack)

theorem refused_of_balance {instruction : Instruction} {index : Nat} {stack : List Open}
    {fault : SyntaxFault} (h : instruction.balance index stack = .error fault) :
    Refused stack instruction fault := by
  cases instruction with
  | elseBranch test next stop =>
    simp only [balance] at h
    split at h
    · cases h
    · cases h; exact Refused.misplaced _
  | otherwise stop =>
    simp only [balance] at h
    split at h
    · cases h
    · cases h; exact Refused.misplaced _
  | close | closeBlock | closeInsert =>
    simp only [balance] at h
    split at h <;> cases h
    exact Refused.closer rfl
  | closeTag name | closeShortcut name =>
    simp only [balance] at h
    split at h
    · split at h <;> cases h
      exact Refused.closer rfl
    · cases h; exact Refused.closer rfl
  | insert path data content | tag name first data content | shortcut name data content =>
    cases content <;> cases h
  | _ => cases h

end Instruction

theorem Statement.as_of_eq {s : Statement} {instruction : Instruction}
    (h : s.instruction = instruction) : s.as instruction = s := by
  subst h
  rfl

/-- The statements that have been read, when these constructs are open. Whatever finishes an open
construct makes one of its opener and all that was read after it. -/
inductive Spine : List Statement → List Open → Prop
  | bottom (n : Nest) : Spine n.statements []
  | inside {before : List Statement} {stack : List Open} (outer : Spine before stack) (o : Open)
      (s : Statement) (inner : List Statement) (place : o.opener = before.length)
      (finish : ∀ tail, o.Finishes tail → Construct (s :: (inner ++ tail))) :
    Spine (before ++ s :: inner) (o :: stack)

namespace Spine

variable {before : List Statement} {stack after : List Open}

/-- A whole nest may follow at any time. -/
theorem append (h : Spine before stack) (n : Nest) : Spine (before ++ n.statements) stack := by
  cases h with
  | bottom m =>
    rw [← m.statements_append]
    exact Spine.bottom _
  | inside outer o s inner place finish =>
    rw [List.append_assoc, List.cons_append]
    refine Spine.inside outer o s _ place fun tail htail => ?_
    rw [List.append_assoc]
    exact finish _ (htail.append n)

theorem balanced (h : Spine before []) : Balanced before := by
  cases h with
  | bottom n => exact ⟨n, rfl⟩

/-- An opener that is the last statement read. -/
theorem push (h : Spine before stack) (o : Open) (s : Statement) (place : o.opener = before.length)
    (finish : ∀ tail, o.Finishes tail → Construct (s :: tail)) :
    Spine (before ++ [s]) (o :: stack) :=
  Spine.inside h o s [] place finish

/-- A tail that finishes the innermost open construct leaves the others open. -/
theorem pop {o : Open} (h : Spine before (o :: stack)) {tail : List Statement}
    (htail : o.Finishes tail) : Spine (before ++ tail) stack := by
  cases h with
  | @inside before stack outer o s inner place finish =>
    obtain ⟨n, -, hn⟩ := finish tail htail
    have happend := outer.append n
    rw [hn] at happend
    rwa [List.append_assoc, List.cons_append]

/-- A further branch of the innermost open construct. -/
theorem branch {i : Nat} {branches : List Nat} {o : Open} {s : Statement}
    (h : Spine before (.conditional i branches false :: stack)) (place : o.opener = i)
    (finish : ∀ tail, o.Finishes tail → (Open.conditional i branches false).Finishes (s :: tail)) :
    Spine (before ++ [s]) (o :: stack) := by
  cases h with
  | inside outer _ s₀ inner place₀ finish₀ =>
    rw [List.append_assoc, List.cons_append]
    refine Spine.inside outer o s₀ _ (place.trans place₀) fun tail htail => ?_
    rw [List.append_assoc]
    exact finish₀ _ (finish tail htail)

/-- Reading one more statement. -/
theorem step {s : Statement} (h : Spine before stack)
    (hmove : s.instruction.Moves before.length stack after) : Spine (before ++ [s]) after := by
  generalize hs : s.instruction = instruction at hmove
  cases hmove with
  | plain hplain =>
    subst hs
    exact h.append (.plain s hplain .nil)
  | branch test next =>
    refine h.push _ s rfl fun tail htail => ?_
    rw [← Statement.as_of_eq hs]
    cases htail with
    | branches _ m more e => exact ⟨.conditional s test next m more e .nil, rfl, rfl⟩
    | «end» hno => cases hno
  | loop head stop =>
    refine h.push _ s rfl fun tail htail => ?_
    rw [← Statement.as_of_eq hs]
    cases htail with
    | branches hno => cases hno
    | «end» _ m e => exact ⟨.loop s head stop m e .nil, rfl, rfl⟩
  | collect collector =>
    refine h.push _ s (by cases collector <;> rfl) fun tail htail => ?_
    rw [← Statement.as_of_eq hs]
    have hclosing : (collector.opened before.length).closing = collector.closing := by
      cases collector <;> rfl
    cases htail with
    | branches hno => cases collector <;> cases hno
    | «end» _ m e =>
      rw [hclosing]
      exact ⟨.collecting s collector m e .nil, rfl, rfl⟩
  | elseBranch test next stop i branches outer =>
    refine h.branch rfl fun tail htail => ?_
    rw [← Statement.as_of_eq hs]
    cases htail with
    | branches _ m more e =>
      have hfinish := Open.Finishes.branches (o := .conditional i branches false) rfl .nil
        (.elseBranch s test next stop m more) e
      simpa [Branches.statements, Nest.statements, Open.closing] using hfinish
    | «end» hno => cases hno
  | otherwise stop i branches outer =>
    refine h.branch rfl fun tail htail => ?_
    rw [← Statement.as_of_eq hs]
    cases htail with
    | branches hno => cases hno
    | «end» _ m e =>
      have hfinish := Open.Finishes.branches (o := .conditional i branches false) rfl .nil
        (.otherwise s stop m) e
      simpa [Branches.statements, Nest.statements, Open.closing] using hfinish
  | close o stack =>
    rw [← Statement.as_of_eq hs]
    exact h.pop (o.finishes_closing s)

/-- What is open can be closed. -/
theorem completable (h : Spine before stack) : Completable before := by
  induction stack generalizing before with
  | nil => exact ⟨[], by simpa using h.balanced⟩
  | cons o stack ih =>
    obtain ⟨rest, hrest⟩ := ih (h.pop (o.finishes_closing default))
    exact ⟨_, by simpa using hrest⟩

theorem innermostOpen {o : Open} (h : Spine before (o :: stack)) :
    InnermostOpen before o.opener o.closer := by
  cases h with
  | inside outer o s inner place finish =>
    have hconstruct := finish _ (o.finishes_closing default)
    refine ⟨by simp [place], (default : Statement).as o.closing, o.closer?_closing, ?_⟩
    rw [place, List.drop_left]
    exact hconstruct

end Spine

def LinkError.Holds (l : List Statement) (e : LinkError) : Prop :=
  match e.fault with
  | .unclosed expected => Completable l ∧ InnermostOpen l e.index expected
  | .nothingToClose found =>
    Completable (l.take e.index) ∧ ¬ Completable (l.take (e.index + 1)) ∧
      Balanced (l.take e.index) ∧ (l[e.index]?.bind (·.instruction.closer?)) = some found
  | .mismatched expected found =>
    Completable (l.take e.index) ∧ ¬ Completable (l.take (e.index + 1)) ∧
      (∃ i, InnermostOpen (l.take e.index) i expected) ∧
      (l[e.index]?.bind (·.instruction.closer?)) = some found
  | .misplacedElse =>
    Completable (l.take e.index) ∧ ¬ Completable (l.take (e.index + 1)) ∧ e.index < l.length
  | _ => False

/-- A list that reads to its end from what has been read before is balanced with it. -/
theorem Spine.balanced_append {before l : List Statement} {stack : List Open} {ts : List Target}
    (h : Spine before stack) (hl : targetsFrom before.length stack l = .ok ts) :
    Balanced (before ++ l) := by
  induction l generalizing before stack ts with
  | nil =>
    cases stack with
    | nil => simpa using h.balanced
    | cons o stack => cases hl
  | cons s l ih =>
    simp only [targetsFrom] at hl
    split at hl
    · cases hl
    · rename_i after us hbalance
      have hstep := h.step (Instruction.moves_of_balance hbalance)
      cases hrest : targetsFrom (before.length + 1) after l with
      | error e => simp [hrest, Except.map] at hl
      | ok vs =>
        have hbalanced := ih hstep (by simpa using hrest)
        simpa using hbalanced

/-- A statement that is refused can never be gone on from. -/
theorem not_completable {before : List Statement} {stack : List Open} {ts : List Target}
    {s : Statement} {fault : SyntaxFault} (hread : Reads 0 [] before stack ts)
    (hs : s.instruction.balance before.length stack = .error fault) :
    ¬ Completable (before ++ [s]) := by
  rintro ⟨rest, n, hn⟩
  obtain ⟨us, -, hnest⟩ := n.reads 0
  have hok := hnest [] []
  have herror := hread (s :: rest)
  rw [List.append_nil, hn, List.append_assoc, List.singleton_append, herror] at hok
  simp [targetsFrom, hs, Except.map] at hok

theorem Spine.holds_of_error {before l : List Statement} {stack : List Open} {ts : List Target}
    {e : LinkError} (h : Spine before stack) (hread : Reads 0 [] before stack ts)
    (herror : targetsFrom before.length stack l = .error e) : e.Holds (before ++ l) := by
  induction l generalizing before stack ts with
  | nil =>
    cases stack with
    | nil => cases herror
    | cons o stack =>
      cases herror
      rw [List.append_nil]
      exact ⟨h.completable, h.innermostOpen⟩
  | cons s l ih =>
    simp only [targetsFrom] at herror
    split at herror
    · rename_i fault hbalance
      cases herror
      have hbefore : (before ++ s :: l).take before.length = before := List.take_left
      have hupto : (before ++ s :: l).take (before.length + 1) = before ++ [s] := by
        simp [List.take_append, List.take_of_length_le]
      -- what was read before can be completed, and no longer with this statement
      have hcomplete := h.completable
      have hstuck := not_completable hread hbalance
      cases Instruction.refused_of_balance hbalance with
      | misplaced =>
        simp only [LinkError.Holds, hbefore, hupto]
        exact ⟨hcomplete, hstuck, by simp⟩
      | @closer found hfound =>
        cases stack with
        | nil =>
          simp only [LinkError.Holds, unbalanced, hbefore, hupto]
          exact ⟨hcomplete, hstuck, h.balanced, by simpa using hfound⟩
        | cons o stack =>
          simp only [LinkError.Holds, unbalanced, hbefore, hupto]
          exact ⟨hcomplete, hstuck, ⟨_, h.innermostOpen⟩, by simpa using hfound⟩
    · rename_i after us hbalance
      have hstep := h.step (Instruction.moves_of_balance hbalance)
      have hone : Reads before.length stack [s] after (us ++ []) := Reads.cons hbalance Reads.nil
      have hread' := hread.append (m := [s]) (by simpa using hone)
      cases hrest : targetsFrom (before.length + 1) after l with
      | ok vs => simp [hrest, Except.map] at herror
      | error e' =>
        obtain rfl : e' = e := by simpa [hrest, Except.map] using herror
        have hholds := ih hstep hread' (by simpa using hrest)
        simpa using hholds

theorem Balanced.of_link {l linked : List Statement} (h : link l = .ok linked) : Balanced l := by
  cases hl : targetsFrom 0 [] l with
  | error e => simp [link, hl, Except.map] at h
  | ok ts => exact (Spine.bottom .nil).balanced_append hl

/-- Linking accepts exactly the balanced lists. An error of a closing directive or an `else` stands
at the first statement that no list can make good, and that of an unclosed construct at the opener
of the innermost one that is open at the end. -/
theorem link_accepts_balanced (l : List Statement) :
    ((∃ linked, link l = .ok linked) ↔ Balanced l) ∧ ∀ e, link l = .error e → e.Holds l := by
  refine ⟨⟨?_, ?_⟩, ?_⟩
  · rintro ⟨linked, hlinked⟩
    exact Balanced.of_link hlinked
  · rintro ⟨n, rfl⟩
    obtain ⟨linked, hlinked, -⟩ := n.link_statements
    exact ⟨linked, hlinked⟩
  · intro e he
    cases hl : targetsFrom 0 [] l with
    | ok ts => simp [link, hl, Except.map] at he
    | error e' =>
      obtain rfl : e' = e := by simpa [link, hl, Except.map] using he
      exact (Spine.bottom .nil).holds_of_error Reads.nil hl

end Templating
