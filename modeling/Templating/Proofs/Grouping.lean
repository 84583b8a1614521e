import Templating.Proofs.Spacing

/-!
How operators group. A tree without parentheses is spelled by the lexemes of its nodes in order. A
chain of operands with binary operators between them spells a tree that is grouped by the tiers of
its operators.
-/
namespace Templating

/-- The lexemes with blanks between them are the text of the expression. -/
structure Alone (e : Expr) (ls : List Lexeme) : Prop where
  tokens : ∀ l ∈ ls, IsToken l
  parses : Expr.parse (String.ofList (joined ls)) = .ok e

inductive Argument : Element → List Lexeme → Prop where
  | item {e : Expr} {ls : List Lexeme} (h : Alone e ls) : Argument (.item e) ls
  | spread {e : Expr} {ls : List Lexeme} (h : Alone e ls) :
      Argument (.spread e) (.punct .ellipsis :: ls)

/-- Arguments with commas between them. A comma may stand after the last. -/
inductive Arguments : List Element → List Lexeme → Prop where
  | nil : Arguments [] []
  | last {arg : Element} {ls : List Lexeme} (h : Argument arg ls) : Arguments [arg] ls
  | cons {arg : Element} {args : List Element} {ls ls' : List Lexeme} (h : Argument arg ls)
      (h' : Arguments args ls') : Arguments (arg :: args) (ls ++ .punct .comma :: ls')

/-- A member, an index or a call: what it makes of the expression before it, and its lexemes. -/
inductive Trailer : (Expr → Expr) → List Lexeme → Prop where
  | member {property : String} (h : isWordShaped property = true) (optional : Bool) :
      Trailer (fun e => .member e property optional)
        [.punct (if optional then .questionDot else .dot), .word property]
  | index {key : Expr} {ls : List Lexeme} (h : Alone key ls) (optional : Bool) :
      Trailer (fun e => .index e key optional) (optionalMark optional ++ delimited .bracket ls)
  | call {args : List Element} {ls : List Lexeme} (h : Arguments args ls) (optional : Bool) :
      Trailer (fun e => .call e args optional) (optionalMark optional ++ delimited .paren ls)

/-- The lexemes are those of the nodes of the tree in order. The key of an index and the arguments
of a call are expressions of their own. -/
inductive Spelled : Expr → List Lexeme → Prop where
  | name {id : String} (h : isName id = true) : Spelled (.name id) [.word id]
  | unary (op : UnaryOp) {e : Expr} {ls : List Lexeme} (h : Spelled e ls) :
      Spelled (.unary op e) (op.lexeme :: ls)
  | binary (op : BinaryOp) {e e' : Expr} {ls ls' : List Lexeme} (h : Spelled e ls)
      (h' : Spelled e' ls') : Spelled (.binary op e e') (ls ++ op.lexeme :: ls')
  | trailer {f : Expr → Expr} {e : Expr} {ls ls' : List Lexeme} (h : Spelled e ls)
      (h' : Trailer f ls') : Spelled (f e) (ls ++ ls')

section Tokens

variable {ls : List Lexeme}

theorem Phrase.isToken (h : Phrase ls) : ∀ l ∈ ls, IsToken l := fun l hl => (h.valid l hl).isToken

theorem isToken_punct (p : Punct) : IsToken (.punct p) := (Lexeme.Valid.punct p).isToken

theorem isToken_append {ls' : List Lexeme} (h : ∀ l ∈ ls, IsToken l) (h' : ∀ l ∈ ls', IsToken l) :
    ∀ l ∈ ls ++ ls', IsToken l := List.forall_mem_append.mpr ⟨h, h'⟩

theorem isToken_cons {l : Lexeme} (h : IsToken l) (h' : ∀ l ∈ ls, IsToken l) :
    ∀ l' ∈ l :: ls, IsToken l' := List.forall_mem_cons.mpr ⟨h, h'⟩

theorem isToken_delimited (d : Delimiter) (h : ∀ l ∈ ls, IsToken l) :
    ∀ l ∈ delimited d ls, IsToken l :=
  isToken_cons (isToken_punct _)
    (isToken_append h (List.forall_mem_singleton.mpr (isToken_punct _)))

theorem Argument.isToken {arg : Element} (h : Argument arg ls) : ∀ l ∈ ls, IsToken l := by
  cases h with
  | item h => exact h.tokens
  | spread h => exact isToken_cons (isToken_punct _) h.tokens

theorem Arguments.isToken {args : List Element} (h : Arguments args ls) : ∀ l ∈ ls, IsToken l := by
  induction h with
  | nil => exact fun l hl => absurd hl List.not_mem_nil
  | last h => exact h.isToken
  | cons h _ ih => exact isToken_append h.isToken (isToken_cons (isToken_punct _) ih)

theorem Trailer.isToken {f : Expr → Expr} (h : Trailer f ls) : ∀ l ∈ ls, IsToken l := by
  cases h with
  | member h optional => exact isToken_cons (isToken_punct _) (Phrase.word h).isToken
  | index h optional =>
    exact isToken_append (Phrase.optionalMark optional).isToken (isToken_delimited _ h.tokens)
  | call h optional =>
    exact isToken_append (Phrase.optionalMark optional).isToken (isToken_delimited _ h.isToken)

theorem Spelled.isToken {e : Expr} (h : Spelled e ls) : ∀ l ∈ ls, IsToken l := by
  induction h with
  | name h => exact (Phrase.name h).isToken
  | unary op _ ih =>
    exact isToken_cons (List.forall_mem_singleton.mp (Phrase.unary op).isToken) ih
  | binary op _ _ ih ih' =>
    exact isToken_append ih
      (isToken_cons (List.forall_mem_singleton.mp (Phrase.binary op).isToken) ih')
  | trailer _ h ih => exact isToken_append ih h.isToken

end Tokens

/-- The binary operators, the ones that bind most loosely first. -/
def tiers : List (List BinaryOp) :=
  [[.coalesce], [.or], [.and], [.eq, .notEq, .same, .notSame],
    [.less, .atMost, .greater, .atLeast, .isKey], [.add, .sub], [.mul, .div, .mod], [.pow]]

def BinaryOp.tier (op : BinaryOp) : Nat := tiers.findIdx (·.contains op)

theorem BinaryOp.level_eq (op : BinaryOp) : op.level = op.tier + 1 := by cases op <;> decide

/-- Powers have a tier of their own. -/
theorem BinaryOp.eq_pow_of_tier {op : BinaryOp} (h : op.tier = BinaryOp.pow.tier) : op = .pow := by
  revert h
  cases op <;> decide

namespace Expr

def isBinary : Expr → Bool
  | binary .. => true
  | _ => false

def isPrimary : Expr → Bool
  | unary .. | binary .. => false
  | _ => true

/-- A binary node on the left of the operator is of a higher tier, or of the same one unless it is
that of powers. -/
def FitsLeft (op : BinaryOp) : Expr → Prop
  | binary op' _ _ => op.tier < op'.tier ∨ op'.tier = op.tier ∧ op ≠ .pow
  | _ => True

/-- A binary node on the right of the operator is of a higher tier, or of the same one if it is that
of powers. -/
def FitsRight (op : BinaryOp) : Expr → Prop
  | binary op' _ _ => op.tier < op'.tier ∨ op'.tier = op.tier ∧ op = .pow
  | _ => True

/-- A prefix operator applies to no binary node and a trailer to no operator at all, and the
operands of a binary node fit it. -/
def Grouped : Expr → Prop
  | unary _ operand => operand.isBinary = false ∧ operand.Grouped
  | binary op left right => (left.FitsLeft op ∧ right.FitsRight op) ∧ left.Grouped ∧ right.Grouped
  | member target _ _ | index target _ _ | call target _ _ =>
    target.isPrimary = true ∧ target.Grouped
  | _ => True

variable {op op' : BinaryOp} {e left right : Expr}

theorem fitsLeft_binary : (binary op' left right).FitsLeft op ↔ op.level < op'.rightLevel := by
  unfold FitsLeft BinaryOp.rightLevel BinaryOp.groupsRight
  rw [op.level_eq, op'.level_eq]
  by_cases hpow : op' = .pow
  · subst hpow
    have hsame : op.tier = BinaryOp.pow.tier → op = .pow := BinaryOp.eq_pow_of_tier
    simp only [beq_self_eq_true, if_true]
    refine ⟨?_, fun hlt => .inl (by omega)⟩
    rintro (hlt | ⟨heq, hne⟩)
    · omega
    · exact absurd (hsame heq.symm) hne
  · have hsame : op = .pow → op'.tier ≠ op.tier :=
      fun heq htier => hpow (BinaryOp.eq_pow_of_tier (heq ▸ htier))
    rw [if_neg (by simpa using hpow)]
    constructor
    · omega
    · intro hlt
      by_cases heq : op'.tier = op.tier
      · exact .inr ⟨heq, fun h => hsame h heq⟩
      · exact .inl (by omega)

theorem fitsRight_binary : (binary op' left right).FitsRight op ↔ op.rightLevel ≤ op'.level := by
  unfold FitsRight BinaryOp.rightLevel BinaryOp.groupsRight
  rw [op.level_eq, op'.level_eq]
  by_cases hpow : op = .pow
  · simp only [hpow, beq_self_eq_true, if_true, and_true]
    omega
  · simp only [hpow, beq_iff_eq, if_false, and_false, or_false]
    omega

theorem fitsLeft_of_not_binary (h : e.isBinary = false) (op : BinaryOp) : e.FitsLeft op := by
  cases e <;> trivial

theorem fitsRight_of_not_binary (h : e.isBinary = false) (op : BinaryOp) : e.FitsRight op := by
  cases e <;> trivial

theorem not_binary_of_primary (h : e.isPrimary = true) : e.isBinary = false := by
  cases e <;> first | rfl | cases h

/-- The tree with an operator and an operand after everything else. The operator goes down the right
operands as long as it binds tightly enough to be a part of them. -/
def attach (e : Expr) (op : BinaryOp) (operand : Expr) : Expr :=
  match e with
  | binary op' left right =>
    if op'.rightLevel ≤ op.level then binary op' left (right.attach op operand)
    else binary op (binary op' left right) operand
  | e => binary op e operand

theorem attach_of_not_binary (h : e.isBinary = false) (op : BinaryOp) (operand : Expr) :
    e.attach op operand = .binary op e operand := by
  cases e <;> first | rfl | cases h

theorem FitsRight.attach (h : e.FitsRight op') (hlevel : op'.rightLevel ≤ op.level)
    (operand : Expr) : (e.attach op operand).FitsRight op' := by
  cases e with
  | binary op'' left right =>
    rw [fitsRight_binary] at h
    unfold Expr.attach
    split
    · exact fitsRight_binary.mpr h
    · exact fitsRight_binary.mpr hlevel
  | _ => exact fitsRight_binary.mpr hlevel

theorem Grouped.attach {operand : Expr} (h : e.Grouped) (h' : operand.Grouped)
    (hoperand : operand.isBinary = false) : (e.attach op operand).Grouped := by
  have hright (op : BinaryOp) : operand.FitsRight op := fitsRight_of_not_binary hoperand op
  fun_induction Expr.attach e op operand with
  | case1 op' left right hlevel ih =>
    -- the right operand still fits, as the operator that it may get binds tightly enough
    obtain ⟨⟨hleft, hfits⟩, hgrouped, hrest⟩ := h
    exact ⟨⟨hleft, hfits.attach hlevel operand⟩, hgrouped, ih hrest⟩
  | case2 op' left right hlevel =>
    exact ⟨⟨fitsLeft_binary.mpr (Nat.lt_of_not_le hlevel), hright op⟩, h, h'⟩
  | case3 e hnot =>
    have hplain : e.isBinary = false := by
      cases e <;> first | rfl | exact (hnot _ _ _ rfl).elim
    exact ⟨⟨fitsLeft_of_not_binary hplain op, hright op⟩, h, h'⟩

end Expr

theorem Trailer.isPrimary {f : Expr → Expr} {ls : List Lexeme} (h : Trailer f ls) (e : Expr) :
    (f e).isPrimary = true := by
  cases h <;> rfl

theorem Trailer.grouped_iff {f : Expr → Expr} {ls : List Lexeme} (h : Trailer f ls) (e : Expr) :
    (f e).Grouped ↔ e.isPrimary = true ∧ e.Grouped := by
  cases h <;> rfl

/-- The operator and its operand stand after everything else. -/
theorem Spelled.attach {e operand : Expr} {ls ls' : List Lexeme} (op : BinaryOp)
    (h : Spelled e ls) (h' : Spelled operand ls') :
    Spelled (e.attach op operand) (ls ++ op.lexeme :: ls') := by
  induction h with
  | name h => exact .binary op (.name h) h'
  | unary op' h => exact .binary op (.unary op' h) h'
  | binary op' hleft hright _ ih =>
    unfold Expr.attach
    split
    · rw [List.append_assoc, List.cons_append]
      exact .binary op' hleft ih
    · exact .binary op (.binary op' hleft hright) h'
  | @trailer f e _ _ h ht =>
    rw [Expr.attach_of_not_binary (Expr.not_binary_of_primary (ht.isPrimary e))]
    exact .binary op (h.trailer ht) h'

/-- A name with trailers after it and prefix operators before it. -/
def IsOperand (ls : List Lexeme) : Prop :=
  ∃ (ops : List UnaryOp) (id : String) (trailers : List (List Lexeme)),
    isName id = true ∧ (∀ ls ∈ trailers, ∃ f, Trailer f ls) ∧
      ls = ops.map UnaryOp.lexeme ++ .word id :: trailers.flatten

def chain (first : List Lexeme) (others : List (BinaryOp × List Lexeme)) : List Lexeme :=
  first ++ others.flatMap fun (op, ls) => op.lexeme :: ls

section Chains

theorem exists_trailed {trailers : List (List Lexeme)}
    (h : ∀ ls ∈ trailers, ∃ f, Trailer f ls) {e : Expr} {ls : List Lexeme} (hspelled : Spelled e ls)
    (hgrouped : e.Grouped) (hprimary : e.isPrimary = true) :
    ∃ e', Spelled e' (ls ++ trailers.flatten) ∧ e'.Grouped ∧ e'.isBinary = false := by
  induction trailers generalizing e ls with
  | nil =>
    rw [List.flatten_nil, List.append_nil]
    exact ⟨e, hspelled, hgrouped, Expr.not_binary_of_primary hprimary⟩
  | cons ls' trailers ih =>
    obtain ⟨⟨f, hf⟩, htrailers⟩ := List.forall_mem_cons.mp h
    rw [List.flatten_cons, ← List.append_assoc]
    exact ih htrailers (hspelled.trailer hf) ((hf.grouped_iff e).mpr ⟨hprimary, hgrouped⟩)
      (hf.isPrimary e)

theorem IsOperand.exists_grouped {ls : List Lexeme} (h : IsOperand ls) :
    ∃ e, Spelled e ls ∧ e.Grouped ∧ e.isBinary = false := by
  obtain ⟨ops, id, trailers, hid, htrailers, rfl⟩ := h
  induction ops with
  | nil => exact exists_trailed htrailers (.name hid) trivial rfl
  | cons op ops ih =>
    obtain ⟨e, hspelled, hgrouped, hbinary⟩ := ih
    exact ⟨.unary op e, .unary op hspelled, ⟨hbinary, hgrouped⟩, rfl⟩

theorem exists_attached {others : List (BinaryOp × List Lexeme)} {e : Expr} {ls : List Lexeme}
    (hspelled : Spelled e ls) (hgrouped : e.Grouped) (h : ∀ p ∈ others, IsOperand p.2) :
    ∃ e', Spelled e' (chain ls others) ∧ e'.Grouped := by
  induction others generalizing e ls with
  | nil =>
    rw [chain, List.flatMap_nil, List.append_nil]
    exact ⟨e, hspelled, hgrouped⟩
  | cons p others ih =>
    obtain ⟨op, ls'⟩ := p
    obtain ⟨hp, hothers⟩ := List.forall_mem_cons.mp h
    obtain ⟨operand, hoperand, hgrouped', hbinary⟩ := hp.exists_grouped
    have hchain : chain ls ((op, ls') :: others) = chain (ls ++ op.lexeme :: ls') others := by
      simp [chain]
    rw [hchain]
    exact ih (hspelled.attach op hoperand) (hgrouped.attach hgrouped' hbinary) hothers

/-- Every chain has a tree that is grouped. -/
theorem exists_grouped_of_chain {first : List Lexeme} {others : List (BinaryOp × List Lexeme)}
    (hfirst : IsOperand first) (h : ∀ p ∈ others, IsOperand p.2) :
    ∃ e, Spelled e (chain first others) ∧ e.Grouped := by
  obtain ⟨e, hspelled, hgrouped, -⟩ := hfirst.exists_grouped
  exact exists_attached hspelled hgrouped h

end Chains
end Templating
