import Templating.Proofs.ItemReading
import Templating.Proofs.Grouping

/-!
Chains of operators are read back as the trees that group them. The reader goes on with an operator
when it binds tightly enough, so that what is read of a tree, and what is left after it, goes by the
levels of its operators. The bound on the steps only has to be large enough.
-/
namespace Templating
namespace Parser

/-- Every bound that is large enough gives the value. -/
def Yields {α : Type} (r : Nat → Except ParseError α) (a : α) : Prop :=
  ∃ n, ∀ bound, n ≤ bound → r bound = .ok a

namespace Yields

variable {α β γ : Type} {r : Nat → Except ParseError α} {q : Nat → Except ParseError β}
  {s : Nat → Except ParseError γ} {a : α} {b : β} {c : γ}

/-- A reading that makes no other one. -/
theorem once (h : ∀ bound, r (bound + 1) = .ok a) : Yields r a := by
  refine ⟨1, fun bound hbound => ?_⟩
  obtain ⟨k, rfl⟩ : ∃ k, bound = k + 1 := ⟨bound - 1, by omega⟩
  exact h k

/-- A reading that makes another one, with one step less. -/
theorem step (h : Yields r a) (hstep : ∀ bound, r bound = .ok a → q (bound + 1) = .ok b) :
    Yields q b := by
  obtain ⟨n, hn⟩ := h
  refine ⟨n + 1, fun bound hbound => ?_⟩
  obtain ⟨k, rfl⟩ : ∃ k, bound = k + 1 := ⟨bound - 1, by omega⟩
  exact hstep k (hn k (by omega))

/-- A reading that makes two others. -/
theorem step₂ (h : Yields r a) (h' : Yields q b)
    (hstep : ∀ bound, r bound = .ok a → q bound = .ok b → s (bound + 1) = .ok c) :
    Yields s c := by
  obtain ⟨n, hn⟩ := h
  obtain ⟨m, hm⟩ := h'
  refine ⟨n + m + 1, fun bound hbound => ?_⟩
  obtain ⟨k, rfl⟩ : ∃ k, bound = k + 1 := ⟨bound - 1, by omega⟩
  exact hstep k (hn k (by omega)) (hm k (by omega))

end Yields

variable {size bound level : Nat} {places : Nat → Nat} {tokens rest : List Token} {e : Expr}
  {ls : List Lexeme} {p : WithRest Expr}

/-- What is read once is read of the same tokens elsewhere. -/
theorem yields_of_expression (h : expression size bound level tokens = .ok (e, []))
    (size' : Nat) (place : Nat → Nat) (hrest : Stops rest) :
    Yields (expression size' · level (tokens.map (Token.moved place) ++ rest)) (e, rest) := by
  refine ⟨8 * extents tokens + 3, fun bound' hbound => ?_⟩
  have hagain : Repeats (After ⟨place, rest, hrest⟩ (extents tokens))
      (expression size bound level tokens)
      (expression size' bound' level (moved ⟨place, rest, hrest⟩ tokens)) :=
    expression_repeats bound level hbound
  obtain ⟨⟨e', rest'⟩, hread, hsame, hafter, -⟩ := hagain _ h
  cases hsame
  cases hafter
  exact hread

/-- An expression alone is read wherever it stands, before what ends an expression. -/
theorem yields_of_alone (h : Alone e ls) (size : Nat) (places : Nat → Nat) (hrest : Stops rest) :
    Yields (expression size · 0 (placed places ls ++ rest)) (e, rest) := by
  obtain ⟨tokens, size', bound, htokens, hread⟩ := Expr.parse_eq_ok_iff.mp h.parses
  rw [tokenize, String.toList_ofList, tokensFrom_joined h.tokens] at htokens
  cases htokens
  obtain ⟨place, hplace⟩ := exists_move places 0 ls
  rw [hplace]
  exact yields_of_expression hread size place hrest

/-- No operand begins with what ends an expression, nor with what spreads one. -/
theorem operand_of_ending {t : Token} (h : t.kind ∈ TokenKind.punct .ellipsis :: endings) :
    ∃ e, operand size bound (t :: rest) = .error e := by
  obtain ⟨kind, text, start⟩ := t
  simp only [endings, List.mem_cons, List.not_mem_nil, or_false] at h
  cases bound with
  | zero => exact ⟨_, rfl⟩
  | succ bound =>
    cases bound with
    | zero => rcases h with rfl | rfl | rfl | rfl | rfl | rfl | rfl <;> exact ⟨_, rfl⟩
    | succ bound => rcases h with rfl | rfl | rfl | rfl | rfl | rfl | rfl <;> exact ⟨_, rfl⟩

theorem exists_head (h : expression size bound level tokens = .ok p) :
    ∃ t more, tokens = t :: more ∧ t.kind ∉ TokenKind.punct .ellipsis :: endings := by
  cases bound with
  | zero => cases h
  | succ bound =>
    rw [expression] at h
    obtain ⟨left, hleft, -⟩ := exists_of_bind h
    cases tokens with
    | nil => cases bound <;> cases hleft
    | cons t more =>
      refine ⟨t, more, rfl, fun hmem => ?_⟩
      obtain ⟨error, herror⟩ := operand_of_ending hmem
      rw [herror] at hleft
      cases hleft

theorem exists_head_of_alone (h : Alone e ls) :
    ∃ l more, ls = l :: more ∧ l.kind ∉ TokenKind.punct .ellipsis :: endings := by
  obtain ⟨n, hn⟩ := yields_of_alone h 0 id stops_nil
  obtain ⟨t, more, htokens, hhead⟩ := exists_head (hn n (Nat.le_refl n))
  rw [List.append_nil] at htokens
  cases ls with
  | nil => cases htokens
  | cons l ls =>
    obtain ⟨rfl, -⟩ := List.cons.inj htokens
    exact ⟨l, ls, rfl, hhead⟩

theorem element_item {t : Token} (h : t.kind ∉ TokenKind.punct .ellipsis :: endings) :
    element size (bound + 1) (t :: tokens) = (do
      let (inner, rest) ← expression size bound 0 (t :: tokens)
      return (.item inner, rest)) := by
  unfold element
  split <;> cases ‹bound + 1 = _›
  · rename_i heq
    cases heq
    exact absurd List.mem_cons_self h
  · rfl

variable {arg : Element} {args : List Element}

theorem exists_head_of_argument (h : Argument arg ls) :
    ∃ l more, ls = l :: more ∧ l.kind ∉ endings := by
  cases h with
  | item h =>
    obtain ⟨l, more, hls, hhead⟩ := exists_head_of_alone h
    exact ⟨l, more, hls, fun hmem => hhead (List.mem_cons_of_mem _ hmem)⟩
  | spread h => exact ⟨_, _, rfl, by decide⟩

theorem yields_of_argument (h : Argument arg ls) (size : Nat) (places : Nat → Nat)
    (hrest : Stops rest) :
    Yields (element size · (placed places ls ++ rest)) (arg, rest) := by
  cases h with
  | item h =>
    refine (yields_of_alone h size places hrest).step fun bound hread => ?_
    obtain ⟨l, more, rfl, hhead⟩ := exists_head_of_alone h
    rw [placed_cons, List.cons_append] at hread ⊢
    rw [element_item hhead, hread]
    rfl
  | @spread e ls h =>
    have hplaced := yields_of_alone h size (fun n => places (n + 1)) hrest
    refine hplaced.step fun bound hread => ?_
    change (do
      let (inner, rest) ← expression size bound 0 (placed (fun n => places (n + 1)) ls ++ rest)
      return (Element.spread inner, rest)) = _
    rw [hread]
    rfl

theorem yields_of_arguments (h : Arguments args ls) (size : Nat) (places : Nat → Nat)
    (text : String) (start : Nat) :
    Yields (elements size · .paren (placed places ls ++ ⟨.punct .parenClose, text, start⟩ :: rest))
      (args, rest) := by
  have hlisting := listing_elements .paren
  induction h generalizing places with
  | nil => exact .once fun bound => hlisting.none ..
  | last h =>
    have hstops : Stops (⟨.punct .parenClose, text, start⟩ :: rest) := stops_cons (by decide)
    refine (yields_of_argument h size places hstops).step fun bound hread => ?_
    obtain ⟨l, more, rfl, hhead⟩ := exists_head_of_argument h
    exact hlisting.last hhead hread
  | @cons arg args ls ls' h _ ih =>
    rw [placed_append, placed_cons, List.append_assoc, List.cons_append]
    have hothers := ih (fun n => places (n + 1 + ls.length))
    generalize placed _ ls' ++ _ = more at hothers ⊢
    have hcomma : Stops (⟨.punct .comma, String.ofList Punct.comma.spelling.toList,
        places (0 + ls.length)⟩ :: more) := stops_cons (by decide)
    have hfirst := yields_of_argument h size places hcomma
    refine hfirst.step₂ hothers fun bound hread hmore => ?_
    obtain ⟨l, ls, rfl, hhead⟩ := exists_head_of_argument h
    refine (hlisting.more hhead hread).trans ?_
    rw [hmore]
    rfl

theorem yields_of_key (h : Alone e ls) (size : Nat) (places : Nat → Nat) (text : String)
    (start : Nat) :
    Yields (indexKey size · (placed places ls ++ ⟨.punct .bracketClose, text, start⟩ :: rest))
      (e, rest) := by
  have hclose : Stops (⟨.punct .bracketClose, text, start⟩ :: rest) := stops_cons (by decide)
  refine (yields_of_alone h size places hclose).step fun bound hread => ?_
  rw [indexKey, hread]
  rfl

section Steps

variable {left right key : Expr} {optional : Bool} {text : String} {start : Nat}

theorem yields_expression (h : Yields (operand size · tokens) (left, rest))
    (hp : Yields (continued size · level left rest) p) :
    Yields (expression size · level tokens) p := by
  refine h.step₂ hp fun bound hread hmore => ?_
  rw [expression, hread]
  exact hmore

theorem yields_name {id : String} (h : isName id = true) (hrest : ArrowFree rest) (start : Nat) :
    Yields (operand size · (⟨(Lexeme.word id).kind, String.ofList (Lexeme.word id).text, start⟩ ::
      rest)) (.name id, rest) := by
  refine ⟨2, fun bound hbound => ?_⟩
  obtain ⟨b, rfl⟩ : ∃ b, bound = b + 2 := ⟨bound - 2, by omega⟩
  rw [kind_word h, text_word]
  exact operand_name hrest id start

theorem yields_unary (op : UnaryOp) (h : Yields (expression size · operandLevel tokens) (e, rest))
    (text : String) (start : Nat) :
    Yields (operand size · (⟨op.lexeme.kind, text, start⟩ :: tokens)) (.unary op e, rest) := by
  refine h.step fun bound hread => ?_
  rw [operand_unary, hread]
  rfl

theorem yields_binary {op : BinaryOp} (hlevel : level ≤ op.level)
    (h : Yields (expression size · op.rightLevel tokens) (right, rest))
    (hp : Yields (continued size · level (.binary op left right) rest) p) :
    Yields (continued size · level left (⟨op.lexeme.kind, text, start⟩ :: tokens)) p := by
  refine h.step₂ hp fun bound hread hmore => ?_
  rw [continued_binary hlevel, hread]
  exact hmore

theorem yields_member {property : String}
    (hp : Yields (continued size · level (.member left property optional) rest) p)
    (places : Nat → Nat) :
    Yields (continued size · level left (placed places
      [.punct (if optional then .questionDot else .dot), .word property] ++ rest)) p := by
  refine hp.step fun bound hread => ?_
  rw [← text_word property] at hread
  exact (continued_member level left property optional ..).trans hread

theorem yields_index (h : Yields (indexKey size · tokens) (key, rest))
    (hp : Yields (continued size · level (.index left key optional) rest) p) :
    Yields (continued size · level left (placed places (optionalMark optional) ++
      ⟨.punct .bracketOpen, text, start⟩ :: tokens)) p := by
  refine h.step₂ hp fun bound hread hmore => ?_
  rw [continued_index, hread]
  exact hmore

theorem yields_call (h : Yields (elements size · .paren tokens) (args, rest))
    (hp : Yields (continued size · level (.call left args optional) rest) p) :
    Yields (continued size · level left (placed places (optionalMark optional) ++
      ⟨.punct .parenOpen, text, start⟩ :: tokens)) p := by
  refine h.step₂ hp fun bound hread hmore => ?_
  rw [continued_call, hread]
  exact hmore

end Steps

theorem yields_of_trailer {f : Expr → Expr} (h : Trailer f ls) (places : Nat → Nat)
    (hp : Yields (continued size · level (f e) rest) p) :
    Yields (continued size · level e (placed places ls ++ rest)) p := by
  cases h with
  | member => exact yields_member hp places
  | index h optional =>
    rw [placed_append, List.append_assoc, placed_delimited]
    exact yields_index (yields_of_key h size ..) hp
  | call h optional =>
    rw [placed_append, List.append_assoc, placed_delimited]
    exact yields_call (yields_of_arguments h size ..) hp

theorem arrowFree_of_trailer {f : Expr → Expr} (h : Trailer f ls) (places : Nat → Nat) :
    ArrowFree (placed places ls ++ rest) := by
  cases h with
  | member _ optional => cases optional <;> rfl
  | index _ optional => cases optional <;> rfl
  | call _ optional => cases optional <;> rfl

/-- What ends an expression comes next, or an operator below the level. -/
def Below (level : Nat) (rest : List Token) : Prop :=
  Stops rest ∨ ∃ (op : BinaryOp) (text : String) (start : Nat) (more : List Token),
    rest = ⟨op.lexeme.kind, text, start⟩ :: more ∧ op.level < level

theorem below_operator {op : BinaryOp} (h : op.level < level) (text : String) (start : Nat) :
    Below level (⟨op.lexeme.kind, text, start⟩ :: rest) := .inr ⟨op, text, start, rest, rfl, h⟩

namespace Below

theorem mono {level' : Nat} (h : Below level rest) (hlevel : level ≤ level') :
    Below level' rest := by
  rcases h with hstops | ⟨op, text, start, more, rfl, hop⟩
  · exact .inl hstops
  · exact below_operator (Nat.lt_of_lt_of_le hop hlevel) text start

theorem arrowFree (h : Below level rest) : ArrowFree rest := by
  rcases h with hstops | ⟨op, text, start, more, rfl, -⟩
  · exact hstops.arrowFree
  · exact arrowFree_binary op text start

/-- An expression that is read at the level ends there. -/
theorem yields (h : Below level rest) (size : Nat) (e : Expr) :
    Yields (continued size · level e rest) (e, rest) := by
  refine .once fun bound => ?_
  rcases h with hstops | ⟨op, text, start, more, rfl, hop⟩
  · exact continued_of_stops hstops level e
  · rw [continued_operator, if_pos hop]

end Below

def EndsBefore (rest : List Token) : Expr → Prop
  | .binary op _ _ => Below op.rightLevel rest
  | .unary _ _ => Below operandLevel rest
  | _ => ArrowFree rest

def top : Expr → Nat
  | .binary op _ _ => op.level
  | _ => operandLevel

section Ends

variable {op : BinaryOp}

theorem rightLevel_le (op : BinaryOp) :
    op.level ≤ op.rightLevel ∧ op.rightLevel ≤ op.level + 1 ∧ op.rightLevel ≤ operandLevel := by
  cases op <;> decide

theorem top_le (e : Expr) : top e ≤ operandLevel := by
  cases e with
  | binary op => exact Nat.le_of_lt op.level_lt_operandLevel
  | _ => exact Nat.le_refl _

theorem le_top_of_not_binary (h : e.isBinary = false) (hlevel : level ≤ operandLevel) :
    level ≤ top e := by
  cases e with
  | binary => cases h
  | _ => exact hlevel

theorem endsBefore_of_stops (h : Stops rest) (e : Expr) : EndsBefore rest e := by
  cases e with
  | binary | unary => exact .inl h
  | _ => exact h.arrowFree

theorem endsBefore_of_not_binary (h : e.isBinary = false) (hrest : Below operandLevel rest) :
    EndsBefore rest e := by
  cases e with
  | binary => cases h
  | unary => exact hrest
  | _ => exact hrest.arrowFree

theorem endsBefore_of_primary (h : e.isPrimary = true) (hrest : ArrowFree rest) :
    EndsBefore rest e := by
  cases e with
  | binary | unary => cases h
  | _ => exact hrest

/-- A left operand ends before its operator. -/
theorem endsBefore_of_fitsLeft (h : e.FitsLeft op) (text : String) (start : Nat) :
    EndsBefore (⟨op.lexeme.kind, text, start⟩ :: rest) e := by
  cases e with
  | binary op' => exact below_operator (Expr.fitsLeft_binary.mp h) text start
  | unary => exact below_operator op.level_lt_operandLevel text start
  | _ => exact arrowFree_binary op text start

theorem le_top_of_fitsLeft (h : e.FitsLeft op) : op.level ≤ top e := by
  cases e with
  | binary op' =>
    have hlt := Expr.fitsLeft_binary.mp h
    have hle := (rightLevel_le op').2.1
    simp only [top]
    omega
  | _ => exact Nat.le_of_lt op.level_lt_operandLevel

theorem le_top_of_fitsRight (h : e.FitsRight op) : op.rightLevel ≤ top e := by
  cases e with
  | binary op' => exact Expr.fitsRight_binary.mp h
  | _ => exact (rightLevel_le op).2.2

/-- A right operand ends where the binary node does. -/
theorem endsBefore_of_fitsRight (h : e.FitsRight op) (hrest : Below op.rightLevel rest) :
    EndsBefore rest e := by
  cases e with
  | binary op' =>
    have hle := Expr.fitsRight_binary.mp h
    exact hrest.mono (Nat.le_trans hle (rightLevel_le op').1)
  | unary => exact hrest.mono (rightLevel_le op).2.2
  | _ => exact hrest.arrowFree

end Ends

/-- A tree that is grouped is read from its lexemes at every level up to that of its operator. The
reading goes on after it as it would with the tree on the left. -/
theorem yields_of_spelled (h : Spelled e ls) (hgrouped : e.Grouped) (places : Nat → Nat)
    (hlevel : level ≤ top e) (hrest : EndsBefore rest e)
    (hp : Yields (continued size · level e rest) p) :
    Yields (expression size · level (placed places ls ++ rest)) p := by
  -- what `continued` is left with after the tree is a hypothesis, so that a tree on the left of
  -- something is read before it
  induction h generalizing level places rest p with
  | name hid => exact yields_expression (yields_name hid hrest (places 0)) hp
  | unary op h ih =>
    obtain ⟨hbinary, hgrouped⟩ := hgrouped
    have htop := le_top_of_not_binary hbinary (Nat.le_refl operandLevel)
    have hends := endsBefore_of_not_binary hbinary hrest
    have hinner := ih hgrouped (fun n => places (n + 1)) htop hends (hrest.yields size _)
    exact yields_expression (yields_unary op hinner ..) hp
  | @binary op left right ls ls' _ _ ih ih' =>
    obtain ⟨⟨hleft, hright⟩, hgrouped, hgrouped'⟩ := hgrouped
    rw [placed_append, placed_cons, List.append_assoc, List.cons_append]
    have hsecond := ih' hgrouped' (fun n => places (n + 1 + ls.length)) (le_top_of_fitsRight hright)
      (endsBefore_of_fitsRight hright hrest) (hrest.yields size right)
    have htop := Nat.le_trans hlevel (le_top_of_fitsLeft hleft)
    exact ih hgrouped places htop (endsBefore_of_fitsLeft hleft ..)
      (yields_binary hlevel hsecond hp)
  | @trailer f e ls ls' _ ht ih =>
    obtain ⟨hprimary, hgrouped⟩ := (ht.grouped_iff e).mp hgrouped
    rw [placed_append, List.append_assoc]
    have htop := le_top_of_not_binary (Expr.not_binary_of_primary hprimary)
      (Nat.le_trans hlevel (top_le (f e)))
    exact ih hgrouped places htop (endsBefore_of_primary hprimary (arrowFree_of_trailer ht _))
      (yields_of_trailer ht _ hp)

end Parser

/-- A tree that is grouped is what its lexemes, with blanks between them, are read as. -/
theorem Spelled.parse {e : Expr} {ls : List Lexeme} (h : Spelled e ls) (hgrouped : e.Grouped) :
    Expr.parse (String.ofList (joined ls)) = .ok e := by
  have htokens := tokensFrom_joined h.isToken 0
  obtain ⟨places, hplaces⟩ := exists_places 0 ls
  have hend : Parser.Below 0 [] := .inl Parser.stops_nil
  obtain ⟨n, hn⟩ := Parser.yields_of_spelled h hgrouped places (Nat.zero_le _)
    (Parser.endsBefore_of_stops Parser.stops_nil e) (hend.yields 0 e)
  have hread := hn n (Nat.le_refl n)
  rw [List.append_nil, ← hplaces] at hread
  refine Expr.parse_eq_ok_iff.mpr ⟨_, 0, n, ?_, hread⟩
  rw [tokenize, String.toList_ofList, htokens]

theorem Spelled.alone {e : Expr} {ls : List Lexeme} (h : Spelled e ls) (hgrouped : e.Grouped) :
    Alone e ls := ⟨h.isToken, h.parse hgrouped⟩

/-- A chain of operands and operators is an expression: the one tree that its lexemes spell and that
is grouped by the tiers of the operators. -/
theorem Expr.parse_chain {first : List Lexeme} {others : List (BinaryOp × List Lexeme)}
    (hfirst : IsOperand first) (hothers : ∀ p ∈ others, IsOperand p.2) :
    ∃ e, Expr.parse (String.ofList (joined (chain first others))) = .ok e ∧
      ∀ e', Spelled e' (chain first others) ∧ e'.Grouped ↔ e' = e := by
  obtain ⟨e, hspelled, hgrouped⟩ := exists_grouped_of_chain hfirst hothers
  have hparse := hspelled.parse hgrouped
  refine ⟨e, hparse, fun e' => ⟨?_, ?_⟩⟩
  · rintro ⟨hspelled', hgrouped'⟩
    rw [hspelled'.parse hgrouped'] at hparse
    exact Except.ok.inj hparse
  · rintro rfl
    exact ⟨hspelled, hgrouped⟩

/-- Prefix operators and indices bind more tightly than powers, and powers, which group from the
right, more tightly than sums. -/
theorem Expr.parse_chain_of_powers : Expr.parse "- a . b ** c ** d + e [ k ]" =
    .ok (.binary .add
      (.binary .pow (.unary .minus (.member (.name "a") "b" false))
        (.binary .pow (.name "c") (.name "d")))
      (.index (.name "e") (.name "k") false)) := by
  have hnone : ∀ ls ∈ ([] : List (List Lexeme)), ∃ f, Trailer f ls := nofun
  have hb : isWordShaped "b" = true := by decide
  have ha : Spelled (.name "a") [.word "a"] := .name (by decide)
  have hc : Spelled (.name "c") [.word "c"] := .name (by decide)
  have hd : Spelled (.name "d") [.word "d"] := .name (by decide)
  have he : Spelled (.name "e") [.word "e"] := .name (by decide)
  have hk : Spelled (.name "k") [.word "k"] := .name (by decide)
  have hmember := Trailer.member hb false
  have hindex := Trailer.index (hk.alone trivial) false
  have hfirst : IsOperand [.punct .minus, .word "a", .punct .dot, .word "b"] :=
    ⟨[.minus], "a", [_], by decide, List.forall_mem_singleton.mpr ⟨_, hmember⟩, rfl⟩
  have hothers : ∀ p ∈ [(BinaryOp.pow, [Lexeme.word "c"]), (.pow, [.word "d"]),
      (.add, [.word "e", .punct .bracketOpen, .word "k", .punct .bracketClose])],
      IsOperand p.2 := by
    rw [List.forall_mem_cons, List.forall_mem_cons, List.forall_mem_singleton]
    refine ⟨⟨[], "c", [], by decide, hnone, rfl⟩, ⟨[], "d", [], by decide, hnone, rfl⟩, ?_⟩
    exact ⟨[], "e", [_], by decide, List.forall_mem_singleton.mpr ⟨_, hindex⟩, rfl⟩
  obtain ⟨e, hparse, hall⟩ := Expr.parse_chain hfirst hothers
  have hspelled := Spelled.binary .add
    (.binary .pow (.unary .minus (ha.trailer hmember)) (.binary .pow hc hd)) (he.trailer hindex)
  have hpowers : (Expr.binary .pow (.unary .minus (.member (.name "a") "b" false))
      (.binary .pow (.name "c") (.name "d"))).Grouped :=
    ⟨⟨trivial, .inr ⟨rfl, rfl⟩⟩, ⟨rfl, rfl, trivial⟩, ⟨trivial, trivial⟩, trivial, trivial⟩
  rw [(hall _).mp ⟨hspelled, ⟨.inl (by decide), trivial⟩, hpowers, rfl, trivial⟩]
  exact hparse

end Templating
