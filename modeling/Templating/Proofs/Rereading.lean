import Templating.Proofs.Relexing
import Templating.Proofs.Pairs

/-!
Expressions read again. What the parser gives depends on the kinds and texts of tokens alone: the
same tokens at other places, with another bound that covers them, give the same. So they do before
other tokens that end an expression.
-/
namespace Templating
open Text

namespace Parser

/-- Where the same tokens stand instead: at other places, and before tokens that end an expression.
-/
structure Elsewhere where
  place : Nat → Nat
  after : List Token
  stops : Stops after

def Elsewhere.alone (place : Nat → Nat) : Elsewhere := ⟨place, [], fun _ h => by cases h⟩

def moved (w : Elsewhere) (tokens : List Token) : List Token :=
  tokens.map (Token.moved w.place) ++ w.after

@[simp] theorem moved_nil (w : Elsewhere) : moved w [] = w.after := rfl

@[simp] theorem moved_cons (w : Elsewhere) (t : Token) (tokens : List Token) :
    moved w (t :: tokens) = t.moved w.place :: moved w tokens := rfl

theorem moved_append (w : Elsewhere) (tokens tokens' : List Token) :
    moved w (tokens ++ tokens') = tokens.map (Token.moved w.place) ++ moved w tokens' := by
  simp [moved]

theorem moved_alone (place : Nat → Nat) (tokens : List Token) :
    moved (.alone place) tokens = tokens.map (Token.moved place) := List.append_nil _

/-- The same tokens, elsewhere, with fewer than so many characters. -/
def Fewer (w : Elsewhere) (n : Nat) (rest rest' : List Token) : Prop :=
  rest' = moved w rest ∧ extents rest < n

def After {α : Type} (w : Elsewhere) (n : Nat) (p q : WithRest α) : Prop :=
  q.1 = p.1 ∧ Fewer w n p.2 q.2

section Parts

variable {w : Elsewhere} {size size' : Nat}

theorem Fewer.mono {n n' : Nat} {rest rest' : List Token} (h : Fewer w n rest rest')
    (hn : n ≤ n') : Fewer w n' rest rest' := ⟨h.1, Nat.lt_of_lt_of_le h.2 hn⟩

theorem extents_lt (t : Token) (rest : List Token) : extents rest < extents (t :: rest) := by
  have := t.extent_pos
  rw [extents_cons]
  omega

theorem fewer_tail (t : Token) (rest : List Token) :
    Fewer w (extents (t :: rest)) rest (moved w rest) := ⟨rfl, extents_lt t rest⟩

theorem expect_repeats (p : Punct) (tokens : List Token) :
    Repeats (Fewer w (extents tokens)) (expect size p tokens)
      (expect size' p (moved w tokens)) := by
  unfold expect
  split
  · split
    · rename_i hp
      simp only [moved_cons, Token.moved, if_pos hp]
      exact .ok (fewer_tail _ _)
    · exact .error _
  · exact .error _

theorem close_repeats (d : Delimiter) (tokens : List Token) :
    Repeats (Fewer w (extents tokens)) (close size d tokens)
      (close size' d (moved w tokens)) := by
  unfold close
  split
  · split
    · rename_i hp
      simp only [moved_cons, Token.moved, if_pos hp]
      exact .ok (fewer_tail _ _)
    · exact .error _
  · exact .error _

theorem conditionalColon_repeats (tokens : List Token) :
    Repeats (Fewer w (extents tokens)) (conditionalColon size tokens)
      (conditionalColon size' (moved w tokens)) := by
  unfold conditionalColon
  split
  · exact .ok (fewer_tail _ _)
  · exact .error _

theorem numberValue_repeats (t : Token) :
    Repeats Eq (numberValue t) (numberValue (t.moved w.place)) := by
  unfold numberValue
  dsimp only [Token.moved]
  split
  · exact .ok rfl
  · exact .error _

theorem liftLex_repeats {α β : Type} {R : α → β → Prop} {r : Except LexError α}
    {r' : Except LexError β} (h : Repeats R r r') : Repeats R (liftLex r) (liftLex r') := by
  cases r with
  | error e => exact .error _
  | ok a =>
    obtain ⟨b, rfl, hab⟩ := h a rfl
    exact .ok hab

/-- Elsewhere tokens do not begin with a token of a kind that they did not begin with. -/
theorem moved_ne {kind : TokenKind} {tokens : List Token} (hkind : kind ∉ endings)
    (h : ∀ text start rest, tokens = ⟨kind, text, start⟩ :: rest → False) :
    ∀ text start rest, moved w tokens = ⟨kind, text, start⟩ :: rest → False := by
  intro text start rest heq
  cases tokens with
  | nil =>
    have hhead : w.after.head? = some ⟨kind, text, start⟩ := by
      rw [moved_nil] at heq
      rw [heq]
      rfl
    exact hkind (w.stops _ hhead)
  | cons t tokens =>
    obtain ⟨kind', text', start'⟩ := t
    obtain ⟨hhead, -⟩ := List.cons.inj heq
    cases hhead
    exact h _ _ _ rfl

/-- The same for a kind that may follow an expression. -/
theorem moved_cons_ne {kind : TokenKind} {t : Token} {tokens : List Token}
    (h : ∀ text start rest, t :: tokens = ⟨kind, text, start⟩ :: rest → False) :
    ∀ text start rest, moved w (t :: tokens) = ⟨kind, text, start⟩ :: rest → False := by
  intro text start rest heq
  obtain ⟨kind', text', start'⟩ := t
  obtain ⟨hhead, -⟩ := List.cons.inj heq
  cases hhead
  exact h _ _ _ rfl

theorem arrowFollows_moved {depth : Nat} {tokens : List Token}
    (h : arrowFollows depth tokens = true) : arrowFollows depth (moved w tokens) = true := by
  fun_induction arrowFollows depth tokens with
  | case1 => cases h
  | case2 | case4 | case5 => simp_all [arrowFollows, Token.moved]
  | case3 =>
    rename_i rest _ _
    cases rest <;> simp_all [arrowFollows, Token.moved]
  | case6 depth t rest hpunct ih =>
    obtain ⟨kind, text, start⟩ := t
    rw [moved_cons, Token.moved, arrowFollows]
    · exact ih h
    · rintro p _ _ ⟨⟩
      exact hpunct _ _ _ rfl

theorem paired_moved {tokens : List Token} (h : Paired tokens) (place : Nat → Nat) :
    Paired (tokens.map (Token.moved place)) := by
  induction h with
  | nil => exact .nil
  | plain h => exact .plain h
  | delimited d ho hc _ ih =>
    rw [List.map_cons, List.map_append]
    exact .delimited d ho hc ih
  | append _ _ ih ih' =>
    rw [List.map_append]
    exact ih.append ih'

/-- No arrow follows a parenthesis elsewhere when the one that closes it has been read. -/
theorem arrowFollows_moved_of_closes {tokens rest : List Token} (h : Closes .paren tokens rest)
    (hnone : arrowFollows 0 tokens = false) : arrowFollows 0 (moved w tokens) = false := by
  obtain ⟨used, c, hused, hc, rfl⟩ := h
  obtain ⟨kind, text, start⟩ := c
  cases hc
  rw [hused.arrowFollows_append] at hnone
  rw [moved_append, (paired_moved hused w.place).arrowFollows_append]
  cases rest with
  | nil => exact w.stops.arrowFree
  | cons t rest => exact hnone

theorem parameterNames_repeats (tokens : List Token) :
    Repeats (After w (extents tokens)) (parameterNames size tokens)
      (parameterNames size' (moved w tokens)) := by
  fun_induction parameterNames size tokens with
  | case1 => exact .error _
  | case2 => exact .ok ⟨rfl, fewer_tail _ _⟩
  | case3 name _ _ _ rest ih =>
    refine ih.bind ?_
    rintro p q ⟨hnames, hrest⟩
    refine .ok ⟨congrArg (name :: ·) hnames, hrest.mono ?_⟩
    simp only [extents_cons]
    omega
  | case4 name start rest hcomma =>
    cases rest with
    | nil => exact .error _
    | cons t rest =>
      rw [moved_cons, Token.moved, parameterNames]
      · refine (close_repeats .paren (t :: rest)).bind fun _ _ hrest => .ok ⟨rfl, hrest.mono ?_⟩
        exact Nat.le_add_left _ _
      · exact moved_cons_ne hcomma
  | case5 => exact .error _

theorem parameters_repeats (tokens : List Token) :
    Repeats (After w (extents tokens)) (parameters size tokens)
      (parameters size' (moved w tokens)) := by
  refine (expect_repeats .parenOpen tokens).bind ?_
  rintro rest _ ⟨hrest, hlt⟩
  subst hrest
  exact (parameterNames_repeats rest).mono fun _ _ h => ⟨h.1, h.2.mono (Nat.le_of_lt hlt)⟩

theorem propertyName_repeats (tokens : List Token) :
    Repeats (After w (extents tokens)) (propertyName size tokens)
      (propertyName size' (moved w tokens)) := by
  unfold propertyName
  split
  · exact .error _
  · split
    · rename_i hname
      simp only [moved_cons, Token.moved, if_pos hname]
      exact .ok ⟨rfl, fewer_tail _ _⟩
    · exact .error _

section Bind

variable {α β γ : Type} {Q : β → γ → Prop} {n : Nat}

theorem fewer_bind {r r' : Except ParseError (List Token)} {f : List Token → Except ParseError β}
    {g : List Token → Except ParseError γ} (h : Repeats (Fewer w n) r r')
    (hf : ∀ rest, extents rest < n → Repeats Q (f rest) (g (moved w rest))) :
    Repeats Q (r >>= f) (r' >>= g) := by
  refine h.bind ?_
  rintro rest _ ⟨rfl, hlt⟩
  exact hf rest hlt

theorem after_bind {r r' : Except ParseError (WithRest α)} {f : WithRest α → Except ParseError β}
    {g : WithRest α → Except ParseError γ} (h : Repeats (After w n) r r')
    (hf : ∀ a rest, extents rest < n → Repeats Q (f (a, rest)) (g (a, moved w rest))) :
    Repeats Q (r >>= f) (r' >>= g) := by
  refine h.bind ?_
  rintro ⟨a, rest⟩ ⟨b, rest'⟩ ⟨hvalue, hrest, hlt⟩
  dsimp only at hvalue hrest hlt
  subst hvalue hrest
  exact hf b rest hlt

theorem function_bind {r r' : Except ParseError (List String × Body × List Token)}
    {f : List String × Body × List Token → Except ParseError β}
    {g : List String × Body × List Token → Except ParseError γ}
    (h : Repeats (fun p q => q.1 = p.1 ∧ After w n p.2 q.2) r r')
    (hf : ∀ params body rest, extents rest < n →
      Repeats Q (f (params, body, rest)) (g (params, body, moved w rest))) :
    Repeats Q (r >>= f) (r' >>= g) := by
  refine h.bind ?_
  rintro ⟨params, body, rest⟩ ⟨params', body', rest'⟩ ⟨hparams, hbody, hrest, hlt⟩
  dsimp only at hparams hbody hrest hlt
  subst hparams hbody hrest
  exact hf params' body' rest hlt

theorem after_ok (a : α) {rest : List Token} (h : extents rest < n) :
    Repeats (After w n) (.ok (a, rest) : Except ParseError (WithRest α))
      (.ok (a, moved w rest) : Except ParseError (WithRest α)) :=
  .ok ⟨rfl, rfl, h⟩

theorem after_mono {r r' : Except ParseError (WithRest α)} {m : Nat}
    (h : Repeats (After w n) r r') (hn : n ≤ m) : Repeats (After w m) r r' :=
  h.mono fun _ _ hafter => ⟨hafter.1, hafter.2.mono hn⟩

end Bind

end Parts

theorem statement_of_ne_return {size bound : Nat} {tokens : List Token} :
    (∀ text start rest, tokens = ⟨.keyword .returnWord, text, start⟩ :: rest → False) →
    statement size (bound + 1) tokens =
      match tokens with
      | ⟨.keyword k, text, start⟩ :: rest =>
        if k.declares then declaration size bound rest
        else do
          let (value, rest) ← expression size bound 0 (⟨.keyword k, text, start⟩ :: rest)
          return (.expr value, rest)
      | tokens => do
        let (value, rest) ← expression size bound 0 tokens
        return (.expr value, rest) := by
  intro h
  unfold statement
  split <;> cases ‹bound + 1 = _›
  · exact (h _ _ _ rfl).elim
  · rfl

theorem statement_return (size bound : Nat) (text : String) (start : Nat) (rest : List Token) :
    statement size (bound + 1) (⟨.keyword .returnWord, text, start⟩ :: rest) =
      match rest with
      | [] => .ok (.result none, rest)
      | ⟨.punct .semicolon, _, _⟩ :: _ => .ok (.result none, rest)
      | ⟨.punct .braceClose, _, _⟩ :: _ => .ok (.result none, rest)
      | _ => do
        let (value, rest) ← expression size bound 0 rest
        return (.result (some value), rest) := by
  unfold statement
  rfl

theorem declaration_word (size bound : Nat) (name : String) (start : Nat) (rest : List Token) :
    declaration size (bound + 1) (⟨.word, name, start⟩ :: rest) =
      match rest with
      | ⟨.punct .assign, _, _⟩ :: rest => do
        let (value, rest) ← expression size bound 0 rest
        return (.declare name (some value), rest)
      | rest => .ok (.declare name none, rest) := by
  unfold declaration
  rfl

theorem entries_nil (size bound : Nat) : ∃ e, entries size bound [] = .error e := by
  cases bound with
  | zero => exact ⟨_, rfl⟩
  | succ bound =>
    cases bound with
    | zero => exact ⟨_, rfl⟩
    | succ bound => exact ⟨_, rfl⟩

theorem namedEntry_nil (size bound : Nat) (key : String) :
    ∃ e, namedEntry size bound key [] = .error e := by
  cases bound with
  | zero => exact ⟨_, rfl⟩
  | succ bound =>
    cases bound with
    | zero => exact ⟨_, rfl⟩
    | succ bound => exact ⟨_, rfl⟩

theorem statements_return_nil (size bound : Nat) (text : String) (start : Nat) : ∃ e,
    (do
      let (first, rest) ← statement size bound [⟨.keyword .returnWord, text, start⟩]
      let (others, rest) ← statements size bound rest
      return (first :: others, rest) : Except ParseError (WithRest (List Stmt))) = .error e := by
  cases bound with
  | zero => exact ⟨_, rfl⟩
  | succ bound => exact ⟨_, rfl⟩

-- A bound covers the tokens when it has `stepsPerChar`, that is eight, for each of their characters
-- and what the reader needs before it comes to the first one.
mutual

theorem expression_repeats {w : Elsewhere} {size size' : Nat} :
    ∀ (bound level : Nat) {bound' : Nat} {tokens : List Token}, 8 * extents tokens + 3 ≤ bound' →
      Repeats (After w (extents tokens)) (expression size bound level tokens)
        (expression size' bound' level (moved w tokens))
  | 0, _, _, _, _ => .error _
  | bound + 1, level, bound' + 1, tokens, h => by
    rw [expression, expression]
    refine after_bind (operand_repeats bound (by omega)) fun left rest hrest => ?_
    dsimp only
    exact after_mono (continued_repeats bound level left (by omega)) hrest
termination_by structural n => n

theorem continued_repeats {w : Elsewhere} {size size' : Nat} :
    ∀ (bound level : Nat) (left : Expr) {bound' : Nat} {tokens : List Token},
      8 * extents tokens + 1 ≤ bound' →
      Repeats (After w (extents tokens + 1)) (continued size bound level left tokens)
        (continued size' bound' level left (moved w tokens))
  | 0, _, _, _, _, _ => .error _
  | bound + 1, level, left, bound' + 1, [], h => by
    rw [moved_nil, continued_of_stops w.stops]
    exact after_ok left (Nat.lt_succ_self 0)
  | bound + 1, level, left, bound' + 1, token :: rest, h => by
    have hpos := token.extent_pos
    rw [extents_cons] at h ⊢
    rw [moved_cons]
    unfold continued
    dsimp only [Token.moved]
    split
    · refine after_bind (propertyName_repeats rest) fun property more hmore => ?_
      dsimp only
      exact after_mono (continued_repeats bound level _ (by omega)) (by omega)
    · refine after_bind (indexKey_repeats bound (by omega)) fun key more hmore => ?_
      dsimp only
      exact after_mono (continued_repeats bound level _ (by omega)) (by omega)
    · refine after_bind (elements_repeats bound .paren (by omega)) fun args more hmore => ?_
      dsimp only
      exact after_mono (continued_repeats bound level _ (by omega)) (by omega)
    · split
      · rw [extents_cons] at h ⊢
        refine after_bind (elements_repeats bound .paren (by omega)) fun args more hmore => ?_
        dsimp only
        exact after_mono (continued_repeats bound level _ (by omega)) (by omega)
      · rw [extents_cons] at h ⊢
        refine after_bind (indexKey_repeats bound (by omega)) fun key more hmore => ?_
        dsimp only
        exact after_mono (continued_repeats bound level _ (by omega)) (by omega)
      · rename_i hparen hbracket
        split
        · exact (moved_ne (by decide) hparen _ _ _ ‹_›).elim
        · exact (moved_ne (by decide) hbracket _ _ _ ‹_›).elim
        · refine after_bind (propertyName_repeats rest) fun property more hmore => ?_
          dsimp only
          exact after_mono (continued_repeats bound level _ (by omega)) (by omega)
    · split
      · refine after_bind (expression_repeats bound 0 (by omega)) fun consequent more hmore => ?_
        dsimp only
        refine fewer_bind (conditionalColon_repeats more) fun more' hmore' => ?_
        refine after_bind (expression_repeats bound 0 (by omega)) fun alternate last hlast => ?_
        dsimp only
        exact after_mono (continued_repeats bound level _ (by omega)) (by omega)
      · exact after_ok left (by rw [extents_cons]; omega)
    · split
      · exact after_ok left (by rw [extents_cons]; omega)
      · split
        · exact after_ok left (by rw [extents_cons]; omega)
        · refine after_bind (expression_repeats bound _ (by omega)) fun right more hmore => ?_
          dsimp only
          exact after_mono (continued_repeats bound level _ (by omega)) (by omega)
termination_by structural n => n

theorem indexKey_repeats {w : Elsewhere} {size size' : Nat} :
    ∀ (bound : Nat) {bound' : Nat} {tokens : List Token}, 8 * extents tokens + 4 ≤ bound' →
      Repeats (After w (extents tokens)) (indexKey size bound tokens)
        (indexKey size' bound' (moved w tokens))
  | 0, _, _, _ => .error _
  | bound + 1, bound' + 1, tokens, h => by
    rw [indexKey, indexKey]
    refine after_bind (expression_repeats bound 0 (by omega)) fun key rest hrest => ?_
    dsimp only
    exact fewer_bind (close_repeats .bracket rest) fun more hmore => after_ok key (by omega)
termination_by structural n => n

theorem operand_repeats {w : Elsewhere} {size size' : Nat} :
    ∀ (bound : Nat) {bound' : Nat} {tokens : List Token}, 8 * extents tokens + 2 ≤ bound' →
      Repeats (After w (extents tokens)) (operand size bound tokens)
        (operand size' bound' (moved w tokens))
  | 0, _, _, _ => .error _
  | _ + 1, _ + 1, [], _ => .error _
  | bound + 1, bound' + 1, token :: rest, h => by
    have hpos := token.extent_pos
    rw [extents_cons] at h
    rw [moved_cons, operand, operand]
    dsimp only [Token.moved]
    split
    · refine after_bind (expression_repeats bound operandLevel (by omega))
        fun inner more hmore => ?_
      dsimp only
      exact after_ok _ (by rw [extents_cons]; omega)
    · exact primary_repeats bound (by rw [extents_cons]; omega)
termination_by structural n => n

theorem primary_repeats {w : Elsewhere} {size size' : Nat} :
    ∀ (bound : Nat) {bound' : Nat} {token : Token} {rest : List Token},
      8 * extents (token :: rest) + 1 ≤ bound' →
      Repeats (After w (extents (token :: rest))) (primary size bound token rest)
        (primary size' bound' (token.moved w.place) (moved w rest))
  | 0, _, _, _, _ => .error _
  | bound + 1, bound' + 1, token, rest, h => by
    have hpos := token.extent_pos
    rw [extents_cons] at h ⊢
    unfold primary
    dsimp only [Token.moved]
    split
    · refine (numberValue_repeats token).bind ?_
      rintro value _ rfl
      exact after_ok _ (by omega)
    · refine (liftLex_repeats (stringValue_repeats w.place token)).bind ?_
      rintro value _ rfl
      exact after_ok _ (by omega)
    · refine (liftLex_repeats (decodedChunks_repeats w.place token)).bind ?_
      rintro chunks chunks' ⟨halike, hextents⟩
      refine (templateParts_repeats bound halike (by omega)).bind ?_
      rintro parts _ rfl
      exact after_ok _ (by omega)
    · exact after_ok _ (by omega)
    · exact after_ok _ (by omega)
    · exact after_ok _ (by omega)
    · exact after_ok _ (by omega)
    · split
      · rw [extents_cons] at h ⊢
        refine after_bind (arrowBody_repeats bound (by omega)) fun body more hmore => ?_
        dsimp only
        exact after_ok _ (by omega)
      · rename_i harrow
        split
        · exact (moved_ne (by decide) harrow _ _ _ ‹_›).elim
        · exact after_ok _ (by omega)
    · split
      · rename_i harrow
        rw [if_pos (arrowFollows_moved harrow)]
        refine after_bind (parameterNames_repeats rest) fun params more hmore => ?_
        dsimp only
        refine fewer_bind (expect_repeats .arrow more) fun more' hmore' => ?_
        refine after_bind (arrowBody_repeats bound (by omega)) fun body last hlast => ?_
        dsimp only
        exact after_ok _ (by omega)
      · rename_i harrow
        intro a ha
        -- no arrow follows elsewhere either, since the closing parenthesis has been read
        have hnone : arrowFollows 0 (moved w rest) = false := by
          obtain ⟨⟨inner, more⟩, hinner, hmore⟩ := exists_of_bind ha
          obtain ⟨last, hlast, -⟩ := exists_of_bind hmore
          have hpasses : Passes rest more := expression_passes bound 0 rest _ hinner
          have hcloses := hpasses.closes (close_closes .paren more _ hlast)
          exact arrowFollows_moved_of_closes hcloses (eq_false_of_ne_true harrow)
        rw [if_neg (ne_true_of_eq_false hnone)]
        revert a
        refine after_bind (expression_repeats bound 0 (by omega)) fun inner more hmore => ?_
        dsimp only
        exact fewer_bind (close_repeats .paren more) fun last hlast => after_ok _ (by omega)
    · refine after_bind (elements_repeats bound .bracket (by omega)) fun items more hmore => ?_
      dsimp only
      exact after_ok _ (by omega)
    · refine after_bind (entries_repeats bound (by omega)) fun entries more hmore => ?_
      dsimp only
      exact after_ok _ (by omega)
    · split
      · rename_i text start more
        have hlt := extents_lt ⟨.word, text, start⟩ more
        have hfunction := @functionRest_repeats w size size' bound bound' more (by omega)
        refine function_bind hfunction fun params body last hlast => ?_
        dsimp only
        exact after_ok _ (by omega)
      · rename_i hword
        have hfunction := @functionRest_repeats w size size' bound bound' rest (by omega)
        split
        · exact (moved_ne (by decide) hword _ _ _ ‹_›).elim
        · refine function_bind hfunction fun params body last hlast => ?_
          dsimp only
          exact after_ok _ (by omega)
    · exact .error _
termination_by structural n => n

theorem functionRest_repeats {w : Elsewhere} {size size' : Nat} :
    ∀ (bound : Nat) {bound' : Nat} {tokens : List Token}, 8 * extents tokens + 1 ≤ bound' →
      Repeats (fun p q => q.1 = p.1 ∧ After w (extents tokens) p.2 q.2)
        (functionRest size bound tokens) (functionRest size' bound' (moved w tokens))
  | 0, _, _, _ => .error _
  | bound + 1, bound' + 1, tokens, h => by
    rw [functionRest, functionRest]
    refine after_bind (parameters_repeats tokens) fun params rest hrest => ?_
    dsimp only
    refine fewer_bind (expect_repeats .braceOpen rest) fun rest' hrest' => ?_
    refine after_bind (statements_repeats bound (by omega)) fun statements last hlast => ?_
    dsimp only
    exact .ok ⟨rfl, rfl, rfl, by dsimp only; omega⟩
termination_by structural n => n

theorem arrowBody_repeats {w : Elsewhere} {size size' : Nat} :
    ∀ (bound : Nat) {bound' : Nat} {tokens : List Token}, 8 * extents tokens + 4 ≤ bound' →
      Repeats (After w (extents tokens)) (arrowBody size bound tokens)
        (arrowBody size' bound' (moved w tokens))
  | 0, _, _, _ => .error _
  | bound + 1, bound' + 1, tokens, h => by
    unfold arrowBody
    split <;> cases ‹bound + 1 = _›
    · rename_i text start rest
      have hlt := extents_lt ⟨.punct .braceOpen, text, start⟩ rest
      refine after_bind (statements_repeats bound (by omega)) fun statements more hmore => ?_
      dsimp only
      exact after_ok _ (by omega)
    · rename_i hbrace
      split <;> cases ‹bound' + 1 = _›
      · exact (moved_ne (by decide) hbrace _ _ _ ‹_›).elim
      · refine after_bind (expression_repeats bound 0 (by omega)) fun value more hmore => ?_
        dsimp only
        exact after_ok _ (by omega)
termination_by structural n => n

theorem elements_repeats {w : Elsewhere} {size size' : Nat} :
    ∀ (bound : Nat) (d : Delimiter) {bound' : Nat} {tokens : List Token},
      8 * extents tokens + 5 ≤ bound' →
      Repeats (After w (extents tokens)) (elements size bound d tokens)
        (elements size' bound' d (moved w tokens))
  | 0, _, _, _, _ => .error _
  | _ + 1, d, _ + 1, [], _ => .error _
  | bound + 1, d, bound' + 1, token :: rest, h => by
    have hlt := extents_lt token rest
    have helement := @element_repeats w size size' bound bound' (token :: rest) (by omega)
    rw [moved_cons] at helement ⊢
    rw [elements, elements]
    by_cases hend : token.kind = .punct d.punct
    · rw [if_pos hend, if_pos (by exact hend)]
      exact after_ok _ hlt
    · rw [if_neg hend, if_neg (by exact hend)]
      refine after_bind helement fun element more hmore => ?_
      dsimp only
      split
      · rename_i text start more
        have hlt := extents_lt ⟨.punct .comma, text, start⟩ more
        refine after_bind (elements_repeats bound d (by omega)) fun others last hlast => ?_
        dsimp only
        exact after_ok _ (by omega)
      · rename_i hcomma
        cases more with
        | nil => exact .error _
        | cons t more =>
          split
          · exact (moved_cons_ne hcomma _ _ _ ‹_›).elim
          · exact fewer_bind (close_repeats d (t :: more)) fun last hlast => after_ok _ (by omega)
termination_by structural n => n

theorem element_repeats {w : Elsewhere} {size size' : Nat} :
    ∀ (bound : Nat) {bound' : Nat} {tokens : List Token}, 8 * extents tokens + 4 ≤ bound' →
      Repeats (After w (extents tokens)) (element size bound tokens)
        (element size' bound' (moved w tokens))
  | 0, _, _, _ => .error _
  | bound + 1, bound' + 1, tokens, h => by
    unfold element
    split <;> cases ‹bound + 1 = _›
    · rename_i text start rest
      have hlt := extents_lt ⟨.punct .ellipsis, text, start⟩ rest
      refine after_bind (expression_repeats bound 0 (by omega)) fun inner more hmore => ?_
      dsimp only
      exact after_ok _ (by omega)
    · rename_i hellipsis
      split <;> cases ‹bound' + 1 = _›
      · exact (moved_ne (by decide) hellipsis _ _ _ ‹_›).elim
      · refine after_bind (expression_repeats bound 0 (by omega)) fun inner more hmore => ?_
        dsimp only
        exact after_ok _ hmore
termination_by structural n => n

theorem entries_repeats {w : Elsewhere} {size size' : Nat} :
    ∀ (bound : Nat) {bound' : Nat} {tokens : List Token}, 8 * extents tokens + 2 ≤ bound' →
      Repeats (After w (extents tokens)) (entries size bound tokens)
        (entries size' bound' (moved w tokens))
  | 0, _, _, _ => .error _
  | bound + 1, _, [], _ => by
    obtain ⟨e, he⟩ := entries_nil size (bound + 1)
    rw [he]
    exact .error _
  | bound + 1, bound' + 1, token :: rest, h => by
    unfold entries
    split <;> cases ‹bound + 1 = _›
    · rename_i heq
      cases heq
      exact after_ok _ (extents_lt _ _)
    · rename_i hbrace
      split <;> cases ‹bound' + 1 = _›
      · exact (moved_cons_ne hbrace _ _ _ ‹_›).elim
      · refine after_bind (entry_repeats bound (by omega)) fun entry rest hrest => ?_
        dsimp only
        split
        · rename_i text start more
          have hlt := extents_lt ⟨.punct .comma, text, start⟩ more
          refine after_bind (entries_repeats bound (by omega)) fun others last hlast => ?_
          dsimp only
          exact after_ok _ (by omega)
        · rename_i hcomma
          cases rest with
          | nil => exact .error _
          | cons t rest =>
            split
            · exact (moved_cons_ne hcomma _ _ _ ‹_›).elim
            · exact fewer_bind (close_repeats .brace (t :: rest)) fun last hlast =>
                after_ok _ (by omega)
termination_by structural n => n

theorem entry_repeats {w : Elsewhere} {size size' : Nat} :
    ∀ (bound : Nat) {bound' : Nat} {tokens : List Token}, 8 * extents tokens + 1 ≤ bound' →
      Repeats (After w (extents tokens)) (entry size bound tokens)
        (entry size' bound' (moved w tokens))
  | 0, _, _, _ => .error _
  | _ + 1, _ + 1, [], _ => .error _
  | bound + 1, bound' + 1, token :: rest, h => by
    have hlt := extents_lt token rest
    rw [moved_cons]
    unfold entry
    dsimp only [Token.moved]
    split
    · refine after_bind (expression_repeats bound 0 (by omega)) fun inner more hmore => ?_
      dsimp only
      exact after_ok _ (by omega)
    · split
      · exact after_ok _ hlt
      · exact after_ok _ hlt
      · rename_i hcomma hbrace
        cases rest with
        | nil =>
          obtain ⟨e, he⟩ := namedEntry_nil size bound token.text
          rw [he]
          exact .error _
        | cons t rest =>
          split
          · exact (moved_cons_ne hcomma _ _ _ ‹_›).elim
          · exact (moved_cons_ne hbrace _ _ _ ‹_›).elim
          · exact after_mono (namedEntry_repeats bound token.text (by omega)) (by omega)
    · exact after_mono (namedEntry_repeats bound token.text (by omega)) (by omega)
    · refine (liftLex_repeats (stringValue_repeats w.place token)).bind ?_
      rintro key _ rfl
      exact after_mono (entryValue_repeats bound _ (by omega)) (by omega)
    · refine (numberValue_repeats token).bind ?_
      rintro key _ rfl
      exact after_mono (entryValue_repeats bound _ (by omega)) (by omega)
    · refine after_bind (indexKey_repeats bound (by omega)) fun key more hmore => ?_
      dsimp only
      exact after_mono (entryValue_repeats bound _ (by omega)) (by omega)
    · exact .error _
termination_by structural n => n

theorem namedEntry_repeats {w : Elsewhere} {size size' : Nat} :
    ∀ (bound : Nat) (key : String) {bound' : Nat} {tokens : List Token},
      8 * extents tokens + 2 ≤ bound' →
      Repeats (After w (extents tokens)) (namedEntry size bound key tokens)
        (namedEntry size' bound' key (moved w tokens))
  | 0, _, _, _, _ => .error _
  | bound + 1, key, bound' + 1, tokens, h => by
    have hfunction := @functionRest_repeats w size size' bound bound' tokens (by omega)
    unfold namedEntry
    dsimp only
    split
    · exact function_bind hfunction fun params body rest hrest => after_ok _ hrest
    · rename_i hparen
      split
      · exact (moved_ne (by decide) hparen _ _ _ ‹_›).elim
      · exact entryValue_repeats bound _ (by omega)
termination_by structural n => n

theorem entryValue_repeats {w : Elsewhere} {size size' : Nat} :
    ∀ (bound : Nat) (make : Expr → Entry) {bound' : Nat} {tokens : List Token},
      8 * extents tokens + 1 ≤ bound' →
      Repeats (After w (extents tokens)) (entryValue size bound make tokens)
        (entryValue size' bound' make (moved w tokens))
  | 0, _, _, _, _ => .error _
  | bound + 1, make, bound' + 1, tokens, h => by
    rw [entryValue, entryValue]
    refine fewer_bind (expect_repeats .colon tokens) fun rest hrest => ?_
    refine after_bind (expression_repeats bound 0 (by omega)) fun value more hmore => ?_
    dsimp only
    exact after_ok _ (by omega)
termination_by structural n => n

theorem statements_repeats {w : Elsewhere} {size size' : Nat} :
    ∀ (bound : Nat) {bound' : Nat} {tokens : List Token}, 8 * extents tokens + 5 ≤ bound' →
      Repeats (After w (extents tokens)) (statements size bound tokens)
        (statements size' bound' (moved w tokens))
  | 0, _, _, _ => .error _
  | bound + 1, bound' + 1, tokens, h => by
    unfold statements
    dsimp only
    split
    · exact .error _
    · rename_i text start rest
      have hlt := extents_lt ⟨.punct .semicolon, text, start⟩ rest
      exact after_mono (statements_repeats bound (by omega)) (by omega)
    · exact after_ok _ (extents_lt _ _)
    · rename_i hnil hsemicolon hbrace
      by_cases hreturn : ∃ text start, tokens = [⟨.keyword .returnWord, text, start⟩]
      · obtain ⟨text, start, rfl⟩ := hreturn
        obtain ⟨e, he⟩ := statements_return_nil size bound text start
        rw [he]
        exact .error _
      · have hread := @statement_repeats w size size' bound bound' tokens
          (fun text start heq => hreturn ⟨text, start, heq⟩) (by omega)
        cases tokens with
        | nil => exact (hnil rfl).elim
        | cons t tokens =>
          split
          · rename_i heq
            cases heq
          · exact (moved_cons_ne hsemicolon _ _ _ ‹_›).elim
          · exact (moved_cons_ne hbrace _ _ _ ‹_›).elim
          · refine after_bind hread fun statement rest hrest => ?_
            dsimp only
            refine after_bind (statements_repeats bound (by omega)) fun others last hlast => ?_
            dsimp only
            exact after_ok _ (by omega)
termination_by structural n => n

theorem statement_repeats {w : Elsewhere} {size size' : Nat} :
    ∀ (bound : Nat) {bound' : Nat} {tokens : List Token},
      (∀ text start, tokens ≠ [⟨.keyword .returnWord, text, start⟩]) →
      8 * extents tokens + 4 ≤ bound' →
      Repeats (After w (extents tokens)) (statement size bound tokens)
        (statement size' bound' (moved w tokens))
  | 0, _, _, _, _ => .error _
  | bound + 1, bound' + 1, tokens, hend, h => by
    have hexpression := @expression_repeats w size size' bound 0 bound' tokens (by omega)
    by_cases hreturn : ∃ text start rest, tokens = ⟨.keyword .returnWord, text, start⟩ :: rest
    · obtain ⟨text, start, rest, rfl⟩ := hreturn
      have hlt := extents_lt ⟨.keyword .returnWord, text, start⟩ rest
      rw [moved_cons, Token.moved, statement_return, statement_return]
      split
      · exact absurd rfl (hend text start)
      · exact after_ok _ hlt
      · exact after_ok _ hlt
      · rename_i hnil hsemicolon hbrace
        cases rest with
        | nil => exact (hnil rfl).elim
        | cons t rest =>
          split
          · rename_i heq
            cases heq
          · exact (moved_cons_ne hsemicolon _ _ _ ‹_›).elim
          · exact (moved_cons_ne hbrace _ _ _ ‹_›).elim
          · refine after_bind (expression_repeats bound 0 (by omega)) fun value more hmore => ?_
            exact after_ok _ (by omega)
    · have hnot : ∀ text start rest, tokens = ⟨.keyword .returnWord, text, start⟩ :: rest → False :=
        fun text start rest heq => hreturn ⟨text, start, rest, heq⟩
      rw [statement_of_ne_return hnot, statement_of_ne_return (moved_ne (by decide) hnot)]
      split
      · rename_i k text start rest
        have hlt := extents_lt ⟨.keyword k, text, start⟩ rest
        rw [moved_cons, Token.moved] at hexpression ⊢
        dsimp only
        split
        · exact after_mono (declaration_repeats bound (by omega)) (by omega)
        · exact after_bind hexpression fun value more hmore => after_ok _ hmore
      · rename_i hkeyword
        split
        · exact (moved_ne (by simp [endings]) (hkeyword _) _ _ _ ‹_›).elim
        · exact after_bind hexpression fun value more hmore => after_ok _ hmore
termination_by structural n => n

theorem declaration_repeats {w : Elsewhere} {size size' : Nat} :
    ∀ (bound : Nat) {bound' : Nat} {tokens : List Token}, 8 * extents tokens + 1 ≤ bound' →
      Repeats (After w (extents tokens)) (declaration size bound tokens)
        (declaration size' bound' (moved w tokens))
  | 0, _, _, _ => .error _
  | _ + 1, _ + 1, [], _ => .error _
  | bound + 1, bound' + 1, ⟨kind, text, start⟩ :: rest, h => by
    have hlt := extents_lt ⟨kind, text, start⟩ rest
    cases kind with
    | word =>
      rw [moved_cons, Token.moved, declaration_word, declaration_word]
      split
      · rename_i text' start' more
        have hlt' := extents_lt ⟨.punct .assign, text', start'⟩ more
        refine after_bind (expression_repeats bound 0 (by omega)) fun value last hlast => ?_
        dsimp only
        exact after_ok _ (by omega)
      · rename_i hassign
        split
        · exact (moved_ne (by decide) hassign _ _ _ ‹_›).elim
        · exact after_ok _ hlt
    | _ => exact .error _
termination_by structural n => n

theorem templateParts_repeats :
    ∀ (bound : Nat) {bound' : Nat} {chunks chunks' : List Chunk},
      List.Forall₂ Chunk.Alike chunks chunks' → 8 * chunkExtents chunks + 1 ≤ bound' →
      Repeats Eq (templateParts bound chunks) (templateParts bound' chunks')
  | 0, _, _, _, _, _ => .error _
  | _ + 1, _ + 1, [], [], _, _ => .ok rfl
  | bound + 1, bound' + 1, chunk :: chunks, chunk' :: chunks', .cons hchunk halike, h => by
    cases chunk with
    | text cs start =>
      cases chunk' with
      | text cs' start' =>
        obtain rfl : cs = cs' := hchunk
        rw [templateParts, templateParts]
        rw [chunkExtents_cons, Chunk.extent] at h
        refine (templateParts_repeats bound halike (by omega)).bind ?_
        rintro parts _ rfl
        exact .ok rfl
      | substitution => cases hchunk
    | substitution source start =>
      cases chunk' with
      | text => cases hchunk
      | substitution source' start' =>
        obtain rfl : source = source' := hchunk
        rw [templateParts, templateParts]
        rw [chunkExtents_cons, Chunk.extent] at h
        have hwhole := @wholeText_repeats bound bound' (String.ofList source) (by
          rw [String.length_ofList]
          omega)
        cases hread : wholeText bound (String.ofList source) with
        | error e => exact .error _
        | ok value =>
          obtain ⟨_, hread', rfl⟩ := hwhole value hread
          rw [hread']
          refine (templateParts_repeats bound halike (by omega)).bind ?_
          rintro parts _ rfl
          exact .ok rfl
termination_by structural n => n

theorem wholeText_repeats :
    ∀ (bound : Nat) {bound' : Nat} {text : String}, 8 * text.length + 4 ≤ bound' →
      Repeats Eq (wholeText bound text) (wholeText bound' text)
  | 0, _, _, _ => .error _
  | bound + 1, bound' + 1, text, h => by
    rw [wholeText, wholeText]
    refine (liftLex_repeats (tokensFrom_repeats 0 0 text.toList)).bind ?_
    rintro tokens _ ⟨rfl, hextents⟩
    rw [String.length_toList] at hextents
    rw [← moved_alone]
    refine after_bind (expression_repeats bound 0 (by omega)) fun value rest hrest => ?_
    cases rest with
    | nil => exact .ok rfl
    | cons => exact .error _
termination_by structural n => n

end

end Parser

theorem Parser.liftLex_eq_ok {α : Type} {r : Except LexError α} {a : α}
    (h : Parser.liftLex r = .ok a) : r = .ok a := by
  cases r with
  | error e => cases h
  | ok b =>
    cases h
    rfl

/-- A text is an expression when its tokens are read as one, whatever the bound and the size that
errors are told with. -/
theorem Expr.parse_eq_ok_iff {text : String} {e : Expr} :
    Expr.parse text = .ok e ↔ ∃ tokens size bound, tokenize text = .ok tokens ∧
      Parser.expression size bound 0 tokens = .ok (e, []) := by
  change Parser.wholeText (8 * text.length + 15 + 1) text = .ok e ↔ _
  rw [Parser.wholeText]
  constructor
  · intro h
    obtain ⟨tokens, htokens, hread⟩ := Parser.exists_of_bind h
    obtain ⟨⟨value, rest⟩, hvalue, hend⟩ := Parser.exists_of_bind hread
    cases rest with
    | nil =>
      cases hend
      exact ⟨tokens, _, _, Parser.liftLex_eq_ok htokens, hvalue⟩
    | cons t rest => cases hend
  · rintro ⟨tokens, size, bound, htokens, hread⟩
    obtain ⟨_, -, -, hextents⟩ := tokensFrom_repeats 0 0 text.toList tokens htokens
    rw [String.length_toList] at hextents
    have hagain : Repeats (Parser.After (.alone id) (extents tokens))
        (Parser.expression size bound 0 tokens)
        (Parser.expression text.utf8ByteSize (8 * text.length + 15) 0
          (Parser.moved (.alone id) tokens)) :=
      Parser.expression_repeats bound 0 (by omega)
    obtain ⟨⟨value, rest⟩, hvalue, hsame, hrest, -⟩ := hagain _ hread
    cases hsame
    cases hrest
    have hstill : tokens.map (Token.moved id) = tokens := List.map_id tokens
    rw [Parser.moved_alone, hstill] at hvalue
    rw [htokens, Parser.liftLex, Parser.ok_bind, hvalue]
    rfl

/-- A text that is an expression is also read as a list of just this argument, without the blanks at
its beginning. -/
theorem Expr.parseArguments_repeats (max : Nat) (text : String) :
    Repeats (fun e es => es = [e]) (Expr.parse text)
      (Expr.parseArguments (max + 1) (String.ofList (trimStart text.toList))) := by
  have htokens : tokenize text =
      tokensFrom (0 + utf8Size (text.toList.takeWhile isBlank)) (trimStart text.toList) := by
    rw [← tokensFrom_blanks List.all_takeWhile, trimStart, List.takeWhile_append_dropWhile]
    rfl
  change Repeats _ (Parser.wholeText (8 * text.length + 15 + 1) text) _
  rw [Parser.wholeText, Expr.parseArguments, htokens, tokenize, String.toList_ofList]
  refine (Parser.liftLex_repeats (tokensFrom_repeats 0 _ _)).bind ?_
  rintro tokens _ ⟨rfl, hextents⟩
  have hbound : 8 * extents tokens + 3 ≤
      Parser.boundFor (String.ofList (trimStart text.toList)) := by
    unfold Parser.boundFor Parser.stepsPerChar
    rw [String.length_ofList]
    omega
  rw [Parser.argumentList, ← Parser.moved_alone]
  refine Parser.after_bind (Parser.expression_repeats _ 0 hbound) fun value rest _ => ?_
  cases rest with
  | nil => exact .ok rfl
  | cons => exact .error _

end Templating
