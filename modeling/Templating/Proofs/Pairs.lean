import Templating.Proofs.ParserErrors

/-!
Where the parts of the grammar end. An expression ends before the tokens that none goes on with.
Whatever a part reads, it takes its brackets in pairs: a list of elements, entries or statements
ends with the delimiter that closes it, and everything else leaves no bracket open and closes none
that it has not opened.
-/
namespace Templating

def Delimiter.opening : Delimiter → Punct
  | paren => .parenOpen
  | bracket => .bracketOpen
  | brace => .braceOpen

def TokenKind.isBracket : TokenKind → Bool
  | punct p => p.isOpening || p.isClosing
  | _ => false

/-- Tokens with their brackets in pairs. -/
inductive Paired : List Token → Prop where
  | nil : Paired []
  | plain {t : Token} (h : t.kind.isBracket = false) : Paired [t]
  | delimited (d : Delimiter) {o c : Token} {ts : List Token} (ho : o.kind = .punct d.opening)
      (hc : c.kind = .punct d.punct) (h : Paired ts) : Paired (o :: (ts ++ [c]))
  | append {ts ts' : List Token} (h : Paired ts) (h' : Paired ts') : Paired (ts ++ ts')

/-- Brackets in pairs are passed over in the search for an arrow. -/
theorem Paired.arrowFollows_append {ts : List Token} (h : Paired ts) (depth : Nat)
    (rest : List Token) :
    Parser.arrowFollows depth (ts ++ rest) = Parser.arrowFollows depth rest := by
  induction h generalizing depth rest with
  | nil => rfl
  | @plain t hplain =>
    obtain ⟨kind, text, start⟩ := t
    cases kind with
    | punct p =>
      simp only [TokenKind.isBracket, Bool.or_eq_false_iff] at hplain
      simp only [List.singleton_append, Parser.arrowFollows, hplain, Bool.false_eq_true, if_false]
    | _ => simp [Parser.arrowFollows]
  | @delimited d o c ts ho hc _ ih =>
    obtain ⟨_, otext, ostart⟩ := o
    obtain ⟨_, ctext, cstart⟩ := c
    cases ho
    cases hc
    have hopen : Parser.arrowFollows depth
        (⟨.punct d.opening, otext, ostart⟩ :: (ts ++ [⟨.punct d.punct, ctext, cstart⟩] ++ rest)) =
          Parser.arrowFollows (depth + 1)
            (ts ++ [⟨.punct d.punct, ctext, cstart⟩] ++ rest) := by
      cases d <;> rfl
    have hclose : Parser.arrowFollows (depth + 1) (⟨.punct d.punct, ctext, cstart⟩ :: rest) =
        Parser.arrowFollows depth rest := by
      cases d <;> rfl
    rw [List.cons_append, hopen, List.append_assoc, ih, List.singleton_append, hclose]
  | append _ _ ih ih' => rw [List.append_assoc, ih, ih']

namespace Parser

/-- What is read up to `rest` has its brackets in pairs. -/
def Passes (tokens rest : List Token) : Prop := ∃ used, Paired used ∧ tokens = used ++ rest

/-- What is read up to `rest` has its brackets in pairs but for the last one, which closes what was
opened before. -/
def Closes (d : Delimiter) (tokens rest : List Token) : Prop :=
  ∃ used c, Paired used ∧ c.kind = .punct d.punct ∧ tokens = used ++ c :: rest

section Rules

variable {d : Delimiter} {t : Token} {tokens rest rest' : List Token}

theorem Passes.refl (tokens : List Token) : Passes tokens tokens := ⟨[], .nil, rfl⟩

theorem Passes.trans (h : Passes tokens rest) (h' : Passes rest rest') : Passes tokens rest' := by
  obtain ⟨used, hused, rfl⟩ := h
  obtain ⟨used', hused', rfl⟩ := h'
  exact ⟨used ++ used', hused.append hused', (List.append_assoc ..).symm⟩

theorem Passes.plain (h : t.kind.isBracket = false) : Passes (t :: rest) rest :=
  ⟨[t], .plain h, rfl⟩

theorem Passes.cons (h : t.kind.isBracket = false) (h' : Passes tokens rest) :
    Passes (t :: tokens) rest := (Passes.plain h).trans h'

theorem Closes.here (h : t.kind = .punct d.punct) : Closes d (t :: rest) rest :=
  ⟨[], t, .nil, h, rfl⟩

theorem Passes.closes (h : Passes tokens rest) (h' : Closes d rest rest') :
    Closes d tokens rest' := by
  obtain ⟨used, hused, rfl⟩ := h
  obtain ⟨used', c, hused', hc, rfl⟩ := h'
  exact ⟨used ++ used', c, hused.append hused', hc, (List.append_assoc ..).symm⟩

theorem Closes.delimited (h : Closes d tokens rest) (ht : t.kind = .punct d.opening) :
    Passes (t :: tokens) rest := by
  obtain ⟨used, c, hused, hc, rfl⟩ := h
  exact ⟨t :: (used ++ [c]), .delimited d ht hc hused, by simp⟩

end Rules

def endings : List TokenKind :=
  [.punct .parenClose, .punct .bracketClose, .punct .braceClose, .punct .comma, .punct .colon,
    .punct .semicolon]

def Stops (rest : List Token) : Prop := ∀ token ∈ rest.head?, token.kind ∈ endings

def ArrowFree (rest : List Token) : Prop := rest.head?.any (·.kind == .punct .arrow) = false

section Endings

variable {size bound : Nat} {rest : List Token}

theorem stops_nil : Stops [] := fun _ h => by cases h

theorem stops_cons {kind : TokenKind} {text : String} {start : Nat} (h : kind ∈ endings) :
    Stops (⟨kind, text, start⟩ :: rest) := by
  intro token htoken
  cases htoken
  exact h

theorem Stops.arrowFree (h : Stops rest) : ArrowFree rest := by
  unfold ArrowFree
  cases rest with
  | nil => rfl
  | cons token rest =>
    have hkind := h token rfl
    simp only [List.head?_cons, Option.any_some]
    exact (by decide : ∀ kind ∈ endings, (kind == .punct .arrow) = false) _ hkind

theorem continued_of_stops (h : Stops rest) (level : Nat) (left : Expr) :
    continued size (bound + 1) level left rest = .ok (left, rest) := by
  cases rest with
  | nil => rfl
  | cons token rest =>
    obtain ⟨kind, text, start⟩ := token
    have hkind := h _ rfl
    simp only [endings, List.mem_cons, List.not_mem_nil, or_false] at hkind
    rcases hkind with rfl | rfl | rfl | rfl | rfl | rfl <;> rfl

end Endings

section Ensures

variable {α β : Type}

theorem ok_bind {ε : Type} (a : α) (f : α → Except ε β) : (Except.ok a >>= f) = f a := rfl

theorem exists_of_bind {ε : Type} {r : Except ε α} {f : α → Except ε β} {b : β}
    (h : (r >>= f) = .ok b) : ∃ a, r = .ok a ∧ f a = .ok b := by
  cases r with
  | error e => cases h
  | ok a => exact ⟨a, rfl, h⟩

/-- What is read, if anything, is as told. -/
def Ensures (P : α → Prop) (r : Except ParseError α) : Prop := ∀ a, r = .ok a → P a

abbrev Unread (S : List Token → Prop) (r : Except ParseError (WithRest α)) : Prop :=
  Ensures (fun p => S p.2) r

abbrev FunctionUnread (S : List Token → Prop)
    (r : Except ParseError (List String × Body × List Token)) : Prop :=
  Ensures (fun p => S p.2.2) r

namespace Ensures

variable {P : α → Prop} {Q : β → Prop}

theorem ok {a : α} (h : P a) : Ensures P (.ok a) := by
  rintro _ ⟨⟩
  exact h

theorem error (e : ParseError) : Ensures P (.error e) := nofun

theorem mono {P' : α → Prop} {r : Except ParseError α} (h : Ensures P r)
    (himp : ∀ a, P a → P' a) : Ensures P' r := fun a hr => himp a (h a hr)

theorem bind {r : Except ParseError α} {f : α → Except ParseError β} (h : Ensures P r)
    (hf : ∀ a, P a → Ensures Q (f a)) : Ensures Q (r >>= f) := by
  cases r with
  | error e => exact error e
  | ok a => exact hf a (h a rfl)

/-- A value that takes no tokens is read before. -/
theorem value {r : Except ParseError α} {f : α → Except ParseError β}
    (hf : ∀ a, Ensures Q (f a)) : Ensures Q (r >>= f) :=
  bind (P := fun _ => True) (fun _ _ => trivial) fun a _ => hf a

end Ensures

theorem Unread.bind {S : List Token → Prop} {Q : β → Prop} {r : Except ParseError (WithRest α)}
    {f : WithRest α → Except ParseError β} (h : Unread S r)
    (hf : ∀ a rest, S rest → Ensures Q (f (a, rest))) : Ensures Q (r >>= f) :=
  Ensures.bind h fun p => hf p.1 p.2

theorem FunctionUnread.bind {S : List Token → Prop} {Q : β → Prop}
    {r : Except ParseError (List String × Body × List Token)}
    {f : List String × Body × List Token → Except ParseError β} (h : FunctionUnread S r)
    (hf : ∀ params body rest, S rest → Ensures Q (f (params, body, rest))) :
    Ensures Q (r >>= f) :=
  Ensures.bind h fun p => hf p.1 p.2.1 p.2.2

end Ensures

section Parts

variable {size : Nat}

theorem expect_passes (p : Punct) (tokens : List Token) :
    Ensures (fun rest => ∃ t, tokens = t :: rest ∧ t.kind = .punct p) (expect size p tokens) := by
  unfold expect
  split
  · split
    · rename_i hp
      exact .ok ⟨_, rfl, congrArg TokenKind.punct hp⟩
    · exact .error _
  · exact .error _

theorem close_closes (d : Delimiter) (tokens : List Token) :
    Ensures (Closes d tokens) (close size d tokens) := by
  unfold close
  split
  · split
    · rename_i hp
      exact .ok (.here (congrArg TokenKind.punct hp))
    · exact .error _
  · exact .error _

theorem conditionalColon_passes (tokens : List Token) :
    Ensures (Passes tokens) (conditionalColon size tokens) := by
  unfold conditionalColon
  split
  · exact .ok (.plain rfl)
  · exact .error _

theorem parameterNames_closes (tokens : List Token) :
    Unread (Closes .paren tokens) (parameterNames size tokens) := by
  fun_induction parameterNames size tokens with
  | case1 => exact .error _
  | case2 => exact .ok (.here rfl)
  | case3 name _ _ _ rest ih =>
    exact ih.bind fun names rest' h => .ok (((Passes.plain rfl).cons rfl).closes h)
  | case4 name start rest hcomma =>
    exact (close_closes .paren rest).bind fun rest' h => .ok ((Passes.plain rfl).closes h)
  | case5 => exact .error _

theorem parameters_passes (tokens : List Token) :
    Unread (Passes tokens) (parameters size tokens) := by
  refine (expect_passes .parenOpen tokens).bind ?_
  rintro rest ⟨t, rfl, ht⟩
  exact (parameterNames_closes rest).mono fun _ h => h.delimited ht

theorem propertyName_passes (tokens : List Token) :
    Unread (Passes tokens) (propertyName size tokens) := by
  unfold propertyName
  split
  · exact .error _
  · rename_i token rest
    split
    · rename_i hname
      refine .ok (.plain ?_)
      cases hkind : token.kind <;> rw [hkind] at hname <;> first | rfl | cases hname
    · exact .error _

end Parts

theorem isBracket_of_unaryOp? {kind : TokenKind} {op : UnaryOp} (h : kind.unaryOp? = some op) :
    kind.isBracket = false := by
  unfold TokenKind.unaryOp? at h
  split at h <;> first | rfl | cases h

theorem isBracket_of_binaryOp? {kind : TokenKind} {op : BinaryOp} (h : kind.binaryOp? = some op) :
    kind.isBracket = false := by
  unfold TokenKind.binaryOp? at h
  split at h <;> first | rfl | cases h

mutual

theorem expression_passes {size : Nat} : ∀ (bound level : Nat) (tokens : List Token),
    Unread (Passes tokens) (expression size bound level tokens)
  | 0, _, _ => .error _
  | bound + 1, level, tokens => by
    rw [expression]
    exact (operand_passes bound tokens).bind fun left rest hrest =>
      (continued_passes bound level left rest).mono fun _ => hrest.trans
termination_by structural n => n

theorem continued_passes {size : Nat} :
    ∀ (bound level : Nat) (left : Expr) (tokens : List Token),
      Unread (Passes tokens) (continued size bound level left tokens)
  | 0, _, _, _ => .error _
  | bound + 1, level, left, [] => .ok (.refl _)
  | bound + 1, level, left, token :: rest => by
    have hon {left' : Expr} {more : List Token} (hmore : Passes (token :: rest) more) :
        Unread (Passes (token :: rest)) (continued size bound level left' more) :=
      (continued_passes bound level left' more).mono fun _ => hmore.trans
    unfold continued
    split
    · rename_i hkind
      exact (propertyName_passes rest).bind fun _ _ h => hon (h.cons (hkind ▸ rfl))
    · rename_i hkind
      exact (indexKey_closes bound rest).bind fun _ _ h => hon (h.delimited hkind)
    · rename_i hkind
      exact (elements_closes bound .paren rest).bind fun _ _ h => hon (h.delimited hkind)
    · rename_i hkind
      have hplain : token.kind.isBracket = false := hkind ▸ rfl
      split
      · exact (elements_closes bound .paren _).bind fun _ _ h => hon ((h.delimited rfl).cons hplain)
      · exact (indexKey_closes bound _).bind fun _ _ h => hon ((h.delimited rfl).cons hplain)
      · exact (propertyName_passes rest).bind fun _ _ h => hon (h.cons hplain)
    · rename_i hkind
      split
      · refine (expression_passes bound 0 rest).bind fun _ colon h => ?_
        refine (conditionalColon_passes colon).bind fun more hmore => ?_
        exact (expression_passes bound 0 more).bind fun _ _ h' =>
          hon (((h.trans hmore).trans h').cons (hkind ▸ rfl))
      · exact .ok (.refl _)
    · split
      · exact .ok (.refl _)
      · rename_i hop
        split
        · exact .ok (.refl _)
        · exact (expression_passes bound _ rest).bind fun _ _ h =>
            hon (h.cons (isBracket_of_binaryOp? hop))
termination_by structural n => n

theorem indexKey_closes {size : Nat} : ∀ (bound : Nat) (tokens : List Token),
    Unread (Closes .bracket tokens) (indexKey size bound tokens)
  | 0, _ => .error _
  | bound + 1, tokens => by
    rw [indexKey]
    exact (expression_passes bound 0 tokens).bind fun _ more h =>
      (close_closes .bracket more).bind fun _ h' => .ok (h.closes h')
termination_by structural n => n

theorem operand_passes {size : Nat} : ∀ (bound : Nat) (tokens : List Token),
    Unread (Passes tokens) (operand size bound tokens)
  | 0, _ => .error _
  | _ + 1, [] => .error _
  | bound + 1, token :: rest => by
    rw [operand]
    split
    · rename_i hop
      exact (expression_passes bound operandLevel rest).bind fun _ _ h =>
        .ok (h.cons (isBracket_of_unaryOp? hop))
    · exact primary_passes bound token rest
termination_by structural n => n

theorem primary_passes {size : Nat} : ∀ (bound : Nat) (token : Token) (rest : List Token),
    Unread (Passes (token :: rest)) (primary size bound token rest)
  | 0, _, _ => .error _
  | bound + 1, token, rest => by
    unfold primary
    split
    all_goals rename_i hkind
    · exact .value fun _ => .ok (.plain (hkind ▸ rfl))
    · exact .value fun _ => .ok (.plain (hkind ▸ rfl))
    · exact .value fun _ => .value fun _ => .ok (.plain (hkind ▸ rfl))
    · exact .ok (.plain (hkind ▸ rfl))
    · exact .ok (.plain (hkind ▸ rfl))
    · exact .ok (.plain (hkind ▸ rfl))
    · exact .ok (.plain (hkind ▸ rfl))
    · have hplain : token.kind.isBracket = false := hkind ▸ rfl
      split
      · exact (arrowBody_passes bound _).bind fun _ _ h => .ok ((h.cons rfl).cons hplain)
      · exact .ok (.plain hplain)
    · split
      · refine (parameterNames_closes rest).bind fun _ after h => ?_
        refine (expect_passes .arrow after).bind ?_
        rintro more ⟨arrow, rfl, harrow⟩
        exact (arrowBody_passes bound more).bind fun _ _ h' =>
          .ok ((h.delimited hkind).trans (h'.cons (harrow ▸ rfl)))
      · exact (expression_passes bound 0 rest).bind fun _ more h =>
          (close_closes .paren more).bind fun _ h' => .ok ((h.closes h').delimited hkind)
    · exact (elements_closes bound .bracket rest).bind fun _ _ h => .ok (h.delimited hkind)
    · exact (entries_closes bound rest).bind fun _ _ h => .ok (h.delimited hkind)
    · refine (functionRest_passes bound _).bind fun _ _ _ h => .ok ?_
      split at h
      · exact (h.cons rfl).cons (hkind ▸ rfl)
      · exact h.cons (hkind ▸ rfl)
    · exact .error _
termination_by structural n => n

theorem functionRest_passes {size : Nat} : ∀ (bound : Nat) (tokens : List Token),
    FunctionUnread (Passes tokens) (functionRest size bound tokens)
  | 0, _ => .error _
  | bound + 1, tokens => by
    rw [functionRest]
    refine (parameters_passes tokens).bind fun params after h => ?_
    refine (expect_passes .braceOpen after).bind ?_
    rintro inside ⟨brace, rfl, hbrace⟩
    refine (statements_closes bound inside).bind fun statements rest h' => ?_
    exact .ok (h.trans (h'.delimited hbrace))
termination_by structural n => n

theorem arrowBody_passes {size : Nat} : ∀ (bound : Nat) (tokens : List Token),
    Unread (Passes tokens) (arrowBody size bound tokens)
  | 0, _ => .error _
  | bound + 1, tokens => by
    unfold arrowBody
    split <;> cases ‹bound + 1 = _›
    · exact (statements_closes bound _).bind fun _ _ h => .ok (h.delimited rfl)
    · exact (expression_passes bound 0 _).bind fun _ _ h => .ok h
termination_by structural n => n

theorem elements_closes {size : Nat} : ∀ (bound : Nat) (d : Delimiter) (tokens : List Token),
    Unread (Closes d tokens) (elements size bound d tokens)
  | 0, _, _ => .error _
  | _ + 1, _, [] => .error _
  | bound + 1, d, token :: rest => by
    rw [elements]
    split
    · rename_i hend
      exact .ok (.here hend)
    · refine (element_passes bound _).bind fun _ more h => ?_
      dsimp only
      split
      · exact (elements_closes bound d _).bind fun _ _ h' =>
          .ok ((h.trans (.plain rfl)).closes h')
      · exact (close_closes d _).bind fun _ h' => .ok (h.closes h')
termination_by structural n => n

theorem element_passes {size : Nat} : ∀ (bound : Nat) (tokens : List Token),
    Unread (Passes tokens) (element size bound tokens)
  | 0, _ => .error _
  | bound + 1, tokens => by
    unfold element
    split <;> cases ‹bound + 1 = _›
    · exact (expression_passes bound 0 _).bind fun _ _ h => .ok (h.cons rfl)
    · exact (expression_passes bound 0 _).bind fun _ _ h => .ok h
termination_by structural n => n

theorem entries_closes {size : Nat} : ∀ (bound : Nat) (tokens : List Token),
    Unread (Closes .brace tokens) (entries size bound tokens)
  | 0, _ => .error _
  | bound + 1, tokens => by
    unfold entries
    split <;> cases ‹bound + 1 = _›
    · exact .ok (.here rfl)
    · refine (entry_passes bound _).bind fun _ more h => ?_
      dsimp only
      split
      · exact (entries_closes bound _).bind fun _ _ h' => .ok ((h.trans (.plain rfl)).closes h')
      · exact (close_closes .brace _).bind fun _ h' => .ok (h.closes h')
termination_by structural n => n

theorem entry_passes {size : Nat} : ∀ (bound : Nat) (tokens : List Token),
    Unread (Passes tokens) (entry size bound tokens)
  | 0, _ => .error _
  | _ + 1, [] => .error _
  | bound + 1, token :: rest => by
    unfold entry
    split
    all_goals rename_i hkind
    · exact (expression_passes bound 0 rest).bind fun _ _ h => .ok (h.cons (hkind ▸ rfl))
    · have hplain : token.kind.isBracket = false := hkind ▸ rfl
      split
      · exact .ok (.plain hplain)
      · exact .ok (.plain hplain)
      · exact (namedEntry_passes bound _ rest).mono fun _ h => h.cons hplain
    · exact (namedEntry_passes bound _ rest).mono fun _ h => h.cons (hkind ▸ rfl)
    · exact .value fun _ => (entryValue_passes bound _ rest).mono fun _ h => h.cons (hkind ▸ rfl)
    · exact .value fun _ => (entryValue_passes bound _ rest).mono fun _ h => h.cons (hkind ▸ rfl)
    · exact (indexKey_closes bound rest).bind fun _ _ h =>
        (entryValue_passes bound _ _).mono fun _ => (h.delimited hkind).trans
    · exact .error _
termination_by structural n => n

theorem namedEntry_passes {size : Nat} : ∀ (bound : Nat) (key : String) (tokens : List Token),
    Unread (Passes tokens) (namedEntry size bound key tokens)
  | 0, _, _ => .error _
  | bound + 1, key, tokens => by
    unfold namedEntry
    dsimp only
    split
    · exact (functionRest_passes bound _).bind fun _ _ _ h => .ok h
    · exact entryValue_passes bound _ tokens
termination_by structural n => n

theorem entryValue_passes {size : Nat} :
    ∀ (bound : Nat) (make : Expr → Entry) (tokens : List Token),
      Unread (Passes tokens) (entryValue size bound make tokens)
  | 0, _, _ => .error _
  | bound + 1, make, tokens => by
    rw [entryValue]
    refine (expect_passes .colon tokens).bind ?_
    rintro rest ⟨colon, rfl, hcolon⟩
    exact (expression_passes bound 0 rest).bind fun _ _ h => .ok (h.cons (hcolon ▸ rfl))
termination_by structural n => n

theorem statements_closes {size : Nat} : ∀ (bound : Nat) (tokens : List Token),
    Unread (Closes .brace tokens) (statements size bound tokens)
  | 0, _ => .error _
  | bound + 1, tokens => by
    unfold statements
    dsimp only
    split
    · exact .error _
    · exact (statements_closes bound _).mono fun _ h => (Passes.plain rfl).closes h
    · exact .ok (.here rfl)
    · exact (statement_passes bound tokens).bind fun _ rest h =>
        (statements_closes bound rest).bind fun _ _ h' => .ok (h.closes h')
termination_by structural n => n

theorem statement_passes {size : Nat} : ∀ (bound : Nat) (tokens : List Token),
    Unread (Passes tokens) (statement size bound tokens)
  | 0, _ => .error _
  | bound + 1, tokens => by
    unfold statement
    split <;> cases ‹bound + 1 = _›
    · split
      · exact .ok (.plain rfl)
      · exact .ok (.plain rfl)
      · exact .ok (.plain rfl)
      · exact (expression_passes bound 0 _).bind fun _ _ h => .ok (h.cons rfl)
    · split
      · split
        · exact (declaration_passes bound _).mono fun _ h => h.cons rfl
        · exact (expression_passes bound 0 _).bind fun _ _ h => .ok h
      · exact (expression_passes bound 0 _).bind fun _ _ h => .ok h
termination_by structural n => n

theorem declaration_passes {size : Nat} : ∀ (bound : Nat) (tokens : List Token),
    Unread (Passes tokens) (declaration size bound tokens)
  | 0, _ => .error _
  | bound + 1, tokens => by
    unfold declaration
    split <;> cases ‹bound + 1 = _›
    · split
      · exact (expression_passes bound 0 _).bind fun _ _ h => .ok ((h.cons rfl).cons rfl)
      · exact .ok (.plain rfl)
    · exact .error _
termination_by structural n => n

end

end Parser
end Templating
