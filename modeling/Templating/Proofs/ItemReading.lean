import Templating.Proofs.ExprReading

/-!
Lists, functions and statements are read back from their texts. An item is read before what follows
the items of its list, and a list from its items.
-/
namespace Templating
namespace Parser

variable {size bound : Nat} {places : Nat → Nat} {rest : List Token} {ls ls' : List Lexeme}
  {e e' : Expr}

/-- The lexemes of an item, and how it is read before what follows the items of its list. -/
structure ItemWritten {α : Type} (item : Nat → Nat → List Token → Except ParseError (WithRest α))
    (follows : List Punct) (ls : List Lexeme) (a : α) : Prop where
  opens : ∃ l ls', ls = l :: ls' ∧ l.kind ∉ endings
  reads {size bound : Nat} {places : Nat → Nat} {p : Punct} {text : String} {start : Nat}
    {rest : List Token} : Covers bound ls → p ∈ follows →
      item size (bound + 1) (placed places ls ++ ⟨.punct p, text, start⟩ :: rest) =
        .ok (a, ⟨.punct p, text, start⟩ :: rest)

def separators (d : Delimiter) : List Punct := [.comma, d.punct]

theorem comma_mem_separators (d : Delimiter) : .comma ∈ separators d := List.mem_cons_self

theorem punct_mem_separators (d : Delimiter) : d.punct ∈ separators d :=
  List.mem_cons_of_mem _ List.mem_cons_self

structure Listing {α : Type} (item : Nat → Nat → List Token → Except ParseError (WithRest α))
    (items : Nat → Nat → List Token → Except ParseError (WithRest (List α))) (d : Delimiter) :
    Prop where
  none (size bound : Nat) (text : String) (start : Nat) (rest : List Token) :
    items size (bound + 1) (⟨.punct d.punct, text, start⟩ :: rest) = .ok ([], rest)
  last {size bound : Nat} {token : Token} {tokens : List Token} {a : α} {text : String}
    {start : Nat} {rest : List Token} : token.kind ∉ endings →
      item size bound (token :: tokens) = .ok (a, ⟨.punct d.punct, text, start⟩ :: rest) →
      items size (bound + 1) (token :: tokens) = .ok ([a], rest)
  more {size bound : Nat} {token : Token} {tokens : List Token} {a : α} {text : String}
    {start : Nat} {rest : List Token} : token.kind ∉ endings →
      item size bound (token :: tokens) = .ok (a, ⟨.punct .comma, text, start⟩ :: rest) →
      items size (bound + 1) (token :: tokens) =
        (items size bound rest).map fun (others, rest) => (a :: others, rest)

theorem punct_mem_endings (d : Delimiter) : TokenKind.punct d.punct ∈ endings := by
  cases d <;> decide

theorem separators_endings (d : Delimiter) : ∀ p ∈ separators d, TokenKind.punct p ∈ endings := by
  intro p hp
  simp only [separators, List.mem_cons, List.not_mem_nil, or_false] at hp
  rcases hp with rfl | rfl
  · decide
  · exact punct_mem_endings d

theorem listing_elements (d : Delimiter) : Listing element (elements · · d) d where
  none size bound text start rest := by
    rw [elements, if_pos rfl]
  last {size bound token tokens a text start rest} hopens hitem := by
    have hne : token.kind ≠ .punct d.punct := fun heq => hopens (heq ▸ punct_mem_endings d)
    rw [elements, if_neg hne, hitem, ok_bind]
    cases d <;> rfl
  more {size bound token tokens a text start rest} hopens hitem := by
    have hne : token.kind ≠ .punct d.punct := fun heq => hopens (heq ▸ punct_mem_endings d)
    rw [elements, if_neg hne, hitem]
    rfl

theorem listing_entries : Listing entry entries .brace where
  none size bound text start rest := rfl
  last {size bound token tokens a text start rest} hopens hitem := by
    rw [entries, hitem]
    · rfl
    · rintro _ _ _ heq
      cases heq
      exact hopens (punct_mem_endings .brace)
  more {size bound token tokens a text start rest} hopens hitem := by
    rw [entries, hitem]
    · rfl
    · rintro _ _ _ heq
      cases heq
      exact hopens (punct_mem_endings .brace)

theorem Listing.reads {α : Type} {item : Nat → Nat → List Token → Except ParseError (WithRest α)}
    {items : Nat → Nat → List Token → Except ParseError (WithRest (List α))} {d : Delimiter}
    (hlisting : Listing item items d) {texts : List (List Lexeme)} {as : List α}
    (h : List.Forall₂ (ItemWritten item (separators d)) texts as) {size bound : Nat}
    {places : Nat → Nat} {text : String} {start : Nat} {rest : List Token}
    (hbound : Covers bound (separated texts)) :
    items size (bound + 2)
      (placed places (separated texts) ++ ⟨.punct d.punct, text, start⟩ :: rest) =
        .ok (as, rest) := by
  induction h generalizing bound places with
  | nil => exact hlisting.none ..
  | @cons ls a texts as hitem hitems ih =>
    obtain ⟨l, ls', rfl, hopens⟩ := hitem.opens
    -- a comma follows every item but the last
    cases hitems with
    | nil =>
      exact hlisting.last hopens (hitem.reads hbound (punct_mem_separators d))
    | @cons ls a texts as hnext hmore =>
      have hcomma : Covers bound (l :: ls') := by
        simp only [covers_iff, separated, weight_append] at hbound ⊢
        omega
      have hlater : ∃ b, bound = b + 1 ∧ Covers b (separated (ls :: texts)) := by
        simp only [covers_iff, separated, weight_append, weight_cons, Lexeme.weight_punct]
          at hbound ⊢
        exact ⟨bound - 1, by omega, by omega⟩
      obtain ⟨b, rfl, hlater⟩ := hlater
      simp only [separated, placed_append, placed_cons, List.cons_append, List.append_assoc]
      refine (hlisting.more hopens (hitem.reads hcomma (comma_mem_separators d))).trans ?_
      rw [ih hlater]
      rfl

section

variable {α : Type} {item : Nat → Nat → List Token → Except ParseError (WithRest α)}
variable {follows : List Punct} (hfollows : ∀ p ∈ follows, TokenKind.punct p ∈ endings)
include hfollows

theorem itemWritten_enclosed (make : Expr → α)
    (hitem : ∀ {size bound : Nat} {places : Nat → Nat} (ls : List Lexeme) (tokens : List Token),
      item size (bound + 1) (placed places (enclosed ls) ++ tokens) = (do
        let (inner, rest) ← expression size bound 0 (placed places (enclosed ls) ++ tokens)
        return (make inner, rest)))
    (h : Written ls e) : ItemWritten item follows (enclosed ls) (make e) where
  opens := ⟨_, _, rfl, by decide⟩
  reads {size bound places p text start rest} hbound hp := by
    rw [hitem, expression_enclosed h hbound 0 (stops_cons (hfollows p hp))]
    rfl

theorem itemWritten_prefixed (l : Lexeme) (hl : l.kind ∉ endings) (make : Expr → α)
    (hitem : ∀ {size bound : Nat} {places : Nat → Nat} (ls : List Lexeme) (text : String)
      (start : Nat) (tokens : List Token),
      item size (bound + 1) (⟨l.kind, text, start⟩ :: (placed places (enclosed ls) ++ tokens)) = (do
        let (inner, rest) ← expression size bound 0 (placed places (enclosed ls) ++ tokens)
        return (make inner, rest)))
    (h : Written ls e) : ItemWritten item follows (l :: enclosed ls) (make e) where
  opens := ⟨_, _, rfl, hl⟩
  reads {size bound places p text start rest} hbound hp := by
    have hinner : Covers bound (enclosed ls) := by
      simp only [covers_iff, weight_cons] at hbound ⊢
      omega
    rw [placed_cons, List.cons_append, hitem,
      expression_enclosed h hinner 0 (stops_cons (hfollows p hp))]
    rfl

end

variable {d : Delimiter}

theorem itemWritten_item (h : Written ls e) :
    ItemWritten element (separators d) (enclosed ls) (.item e) :=
  itemWritten_enclosed (separators_endings d) Element.item (fun _ _ => rfl) h

theorem itemWritten_spread (h : Written ls e) :
    ItemWritten element (separators d) (.punct .ellipsis :: enclosed ls) (.spread e) :=
  itemWritten_prefixed (separators_endings d) _ (by decide) Element.spread (fun _ _ _ _ => rfl) h

theorem itemWritten_entrySpread (h : Written ls e) :
    ItemWritten entry (separators .brace) (.punct .ellipsis :: enclosed ls) (.spread e) :=
  itemWritten_prefixed (separators_endings _) _ (by decide) Entry.spread (fun _ _ _ _ => rfl) h

theorem entryValue_enclosed (make : Expr → Entry) (h : Written ls e)
    (hbound : Covers bound (enclosed ls)) (hrest : Stops rest) (text : String) (start : Nat) :
    entryValue size (bound + 1) make
      (⟨.punct .colon, text, start⟩ :: (placed places (enclosed ls) ++ rest)) =
        .ok (make e, rest) := by
  change (do
    let (value, rest) ← expression size bound 0 (placed places (enclosed ls) ++ rest)
    return (make value, rest)) = _
  rw [expression_enclosed h hbound 0 hrest]
  rfl

theorem entry_string (text : String) (start : Nat) (tokens : List Token) :
    entry size (bound + 1) (⟨.string, text, start⟩ :: tokens) = (do
      let key ← liftLex (stringValue ⟨.string, text, start⟩)
      entryValue size bound (.named key) tokens) := rfl

theorem itemWritten_named (key : String) (h : Written ls e) :
    ItemWritten entry (separators .brace) (.string key :: .punct .colon :: enclosed ls)
      (.named key e) where
  opens := ⟨_, _, rfl, (by decide : TokenKind.string ∉ endings)⟩
  reads {size bound places p text start rest} hbound hp := by
    simp only [covers_iff, weight_cons, Lexeme.weight_punct, Lexeme.weight_string,
      weight_enclosed] at hbound
    obtain ⟨b, rfl⟩ : ∃ b, bound = b + 1 := ⟨bound - 1, by omega⟩
    have hvalue : Covers b (enclosed ls) := covers_enclosed.mpr (by omega)
    have hkey := stringValue_string key (places 0)
    simp only [placed_cons, List.cons_append]
    rw [show (Lexeme.string key).kind = .string from rfl, entry_string, hkey, liftLex, ok_bind]
    exact entryValue_enclosed _ h hvalue (stops_cons (separators_endings _ _ hp)) ..

theorem itemWritten_computed (h : Written ls e) (h' : Written ls' e') :
    ItemWritten entry (separators .brace)
      (delimited .bracket (enclosed ls) ++ .punct .colon :: enclosed ls') (.computed e e') where
  opens := ⟨_, _, rfl, by decide⟩
  reads {size bound places p text start rest} hbound hp := by
    simp only [covers_iff, weight_append, weight_cons, Lexeme.weight_punct, weight_delimited,
      weight_enclosed] at hbound
    obtain ⟨b, rfl⟩ : ∃ b, bound = b + 1 := ⟨bound - 1, by omega⟩
    have hkey : Covers b (enclosed ls) := covers_enclosed.mpr (by omega)
    have hvalue : Covers b (enclosed ls') := covers_enclosed.mpr (by omega)
    simp only [delimited, placed_append, placed_cons, List.cons_append, List.append_assoc,
      List.nil_append]
    simp only [Lexeme.punct, Delimiter.opening, Delimiter.punct, entry]
    rw [indexKey_enclosed h hkey, ok_bind]
    exact entryValue_enclosed _ h' hvalue (stops_cons (separators_endings _ _ hp)) ..

theorem itemWritten_shorthand {id : String} (h : isName id = true) :
    ItemWritten entry (separators .brace) [.word id] (.shorthand id) where
  opens := ⟨_, _, rfl, by rw [kind_word h]; decide⟩
  reads {size bound places p text start rest} hbound hp := by
    rw [placed_cons, kind_word h, text_word, placed_nil]
    simp only [separators, List.mem_cons, List.not_mem_nil, or_false] at hp
    rcases hp with rfl | rfl <;> rfl

theorem weight_listed (d : Delimiter) (texts : List (List Lexeme)) :
    weight (listed d texts) = weight (separated texts) + 2 := weight_delimited ..

/-- A list between delimiters that is an expression of its own. -/
theorem reads_listed {α : Type} {item : Nat → Nat → List Token → Except ParseError (WithRest α)}
    {items : Nat → Nat → List Token → Except ParseError (WithRest (List α))}
    (hlisting : Listing item items d) (make : List α → Expr)
    (hoperand : ∀ {size bound : Nat} (text : String) (start : Nat) (tokens : List Token),
      operand size (bound + 2) (⟨.punct d.opening, text, start⟩ :: tokens) = (do
        let (as, rest) ← items size bound tokens
        return (make as, rest)))
    {texts : List (List Lexeme)} {as : List α}
    (h : List.Forall₂ (ItemWritten item (separators d)) texts as) :
    Reads (listed d texts) (make as) := by
  intro size bound places rest hbound hrest
  rw [covers_iff, weight_listed] at hbound
  obtain ⟨b, rfl⟩ : ∃ b, bound = b + 5 := ⟨bound - 5, by omega⟩
  have hitems : Covers b (separated texts) := covers_iff.mpr (by omega)
  refine expression_of_operand ?_ hrest
  rw [listed, placed_delimited, hoperand, hlisting.reads h hitems]
  rfl

theorem reads_array {texts : List (List Lexeme)} {items : List Element}
    (h : List.Forall₂ (ItemWritten element (separators .bracket)) texts items) :
    Reads (listed .bracket texts) (.array items) :=
  reads_listed (listing_elements .bracket) Expr.array (fun _ _ _ => rfl) h

theorem reads_object {texts : List (List Lexeme)} {items : List Entry}
    (h : List.Forall₂ (ItemWritten entry (separators .brace)) texts items) :
    Reads (listed .brace texts) (.object items) :=
  reads_listed listing_entries Expr.object (fun _ _ _ => rfl) h

theorem reads_call {texts : List (List Lexeme)} {args : List Element} (h : Written ls e)
    (hargs : List.Forall₂ (ItemWritten element (separators .paren)) texts args)
    (optional : Bool) :
    Reads (enclosed ls ++ (optionalMark optional ++ listed .paren texts))
      (.call e args optional) := by
  intro size bound places rest hbound hrest
  simp only [covers_iff, weight_append, weight_listed, weight_enclosed] at hbound
  obtain ⟨b, rfl⟩ : ∃ b, bound = b + 4 := ⟨bound - 4, by omega⟩
  have htarget : Covers (b + 3) (enclosed ls) := covers_enclosed.mpr (by omega)
  have hitems : Covers b (separated texts) := covers_iff.mpr (by omega)
  simp only [placed_append, List.append_assoc, listed, placed_delimited]
  rw [expression_target h htarget (arrowFree_optionalMark optional _ _ rfl)]
  refine (continued_call ..).trans ?_
  rw [(listing_elements .paren).reads hargs hitems, ok_bind]
  exact continued_of_stops hrest 0 _

theorem parameterNames_cons {name : String} (h : isName name = true) (text : String)
    (start : Nat) (tokens : List Token) :
    parameterNames size (placed places [.word name] ++ ⟨.punct .comma, text, start⟩ :: tokens) =
      (do
        let (names, rest) ← parameterNames size tokens
        return (name :: names, rest)) := by
  rw [placed_cons, kind_word h, text_word]
  rfl

theorem parameterNames_separated {params : List String} (h : params.all isName = true)
    (text : String) (start : Nat) :
    parameterNames size (placed places (separated (params.map fun name => [.word name])) ++
      ⟨.punct .parenClose, text, start⟩ :: rest) = .ok (params, rest) := by
  induction params generalizing places with
  | nil => rfl
  | cons name params ih =>
    obtain ⟨hname, hparams⟩ := Bool.and_eq_true_iff.mp (List.all_cons ▸ h)
    cases params with
    | nil =>
      rw [List.map_singleton, separated, placed_cons, kind_word hname, text_word]
      rfl
    | cons next params =>
      simp only [List.map_cons] at ih ⊢
      rw [separated, placed_append, List.append_assoc, placed_cons _ (Lexeme.punct .comma),
        List.cons_append, show (Lexeme.punct .comma).kind = .punct .comma from rfl,
        parameterNames_cons hname, ih hparams]
      rfl

theorem expect_punct (p : Punct) (text : String) (start : Nat) :
    expect size p (⟨.punct p, text, start⟩ :: rest) = .ok rest := if_pos rfl

def BodyReads (ls : List Lexeme) (body : Body) : Prop :=
  ∀ {size bound : Nat} {places : Nat → Nat} {rest : List Token}, Covers bound ls → Stops rest →
    arrowBody size (bound + 1) (placed places ls ++ rest) = .ok (body, rest)

theorem arrowBody_enclosed (ls : List Lexeme) (tokens : List Token) :
    arrowBody size (bound + 1) (placed places (enclosed ls) ++ tokens) = (do
      let (value, rest) ← expression size bound 0 (placed places (enclosed ls) ++ tokens)
      return (.expr value, rest)) := rfl

theorem bodyReads_expr (h : Written ls e) : BodyReads (enclosed ls) (.expr e) := by
  intro size bound places rest hbound hrest
  rw [arrowBody_enclosed, expression_enclosed h hbound 0 hrest]
  rfl

theorem reads_function {params : List String} {body : Body} (hparams : params.all isName = true)
    (h : BodyReads ls body) :
    Reads (parameterLexemes params ++ .punct .arrow :: ls) (.function params body) := by
  intro size bound places rest hbound hrest
  simp only [covers_iff, parameterLexemes, weight_append, weight_listed, weight_cons,
    Lexeme.weight_punct] at hbound
  obtain ⟨b, rfl⟩ : ∃ b, bound = b + 4 := ⟨bound - 4, by omega⟩
  have hbody : Covers b ls := covers_iff.mpr (by omega)
  refine expression_of_operand ?_ hrest
  simp only [parameterLexemes, listed, placed_append, List.append_assoc, placed_delimited,
    placed_cons, List.cons_append, Delimiter.opening, Delimiter.punct, Lexeme.punct]
  rw [operand_parameters (((Phrase.names hparams).paired _).arrowFollows_append ..),
    parameterNames_separated hparams, ok_bind]
  dsimp only
  rw [expect_punct, ok_bind, h hbody hrest]
  rfl

theorem statement_assign (id text text' : String) (start start' start'' : Nat)
    (tokens : List Token) :
    statement size (bound + 2) (⟨.keyword .letWord, text, start⟩ :: ⟨.word, id, start'⟩ ::
      ⟨.punct .assign, text', start''⟩ :: tokens) = (do
        let (value, rest) ← expression size bound 0 tokens
        return (.declare id (some value), rest)) := rfl

theorem semicolon_endings : ∀ p ∈ [Punct.semicolon], TokenKind.punct p ∈ endings := by
  decide

theorem itemWritten_statement (h : Written ls e) :
    ItemWritten statement [.semicolon] (enclosed ls) (.expr e) :=
  itemWritten_enclosed semicolon_endings Stmt.expr (fun _ _ => rfl) h

theorem itemWritten_result (h : Written ls e) :
    ItemWritten statement [.semicolon] (.keyword .returnWord :: enclosed ls)
      (.result (some e)) :=
  itemWritten_prefixed semicolon_endings _ (by decide) (Stmt.result ∘ some)
    (fun _ _ _ _ => rfl) h

theorem itemWritten_return :
    ItemWritten statement [.semicolon] [.keyword .returnWord] (.result none) where
  opens := ⟨_, _, rfl, by decide⟩
  reads {size bound places p text start rest} _ hp := by
    obtain rfl := List.mem_singleton.mp hp
    rfl

theorem itemWritten_declare {id : String} (h : isName id = true) :
    ItemWritten statement [.semicolon] [.keyword .letWord, .word id] (.declare id none) where
  opens := ⟨_, _, rfl, by decide⟩
  reads {size bound places p text start rest} hbound hp := by
    obtain rfl := List.mem_singleton.mp hp
    simp only [covers_iff, weight_cons, Lexeme.weight_keyword] at hbound
    obtain ⟨b, rfl⟩ : ∃ b, bound = b + 1 := ⟨bound - 1, by omega⟩
    rw [placed_cons, placed_cons, kind_word h, text_word]
    rfl

theorem itemWritten_assign {id : String} (hid : isName id = true) (h : Written ls e) :
    ItemWritten statement [.semicolon] (.keyword .letWord :: .word id :: .punct .assign ::
      enclosed ls) (.declare id (some e)) where
  opens := ⟨_, _, rfl, by decide⟩
  reads {size bound places p text start rest} hbound hp := by
    obtain rfl := List.mem_singleton.mp hp
    simp only [covers_iff, weight_cons, Lexeme.weight_keyword, weight_enclosed] at hbound
    obtain ⟨b, rfl⟩ : ∃ b, bound = b + 1 := ⟨bound - 1, by omega⟩
    have hvalue : Covers b (enclosed ls) := covers_enclosed.mpr (by omega)
    simp only [placed_cons, List.cons_append, kind_word hid, text_word]
    refine (statement_assign ..).trans ?_
    rw [expression_enclosed h hvalue 0 (stops_cons (by decide))]
    rfl

def StatementsRead (ls : List Lexeme) (body : List Stmt) : Prop :=
  ∀ {size bound : Nat} {places : Nat → Nat} {text : String} {start : Nat} {rest : List Token},
    Covers bound ls → statements size (bound + 2)
      (placed places ls ++ ⟨.punct .braceClose, text, start⟩ :: rest) = .ok (body, rest)

theorem statements_cons (h : ∃ l ls', ls = l :: ls' ∧ l.kind ∉ endings) (tokens : List Token) :
    statements size (bound + 1) (placed places ls ++ tokens) = (do
      let (statement, rest) ← statement size bound (placed places ls ++ tokens)
      let (others, rest) ← statements size bound rest
      return (statement :: others, rest)) := by
  obtain ⟨l, ls', rfl, hopens⟩ := h
  -- neither an empty statement nor the end of the body
  have hother : ∀ (p : Punct) (text : String) (start : Nat) (tokens' : List Token),
      .punct p ∈ endings →
        placed places (l :: ls') ++ tokens ≠ ⟨.punct p, text, start⟩ :: tokens' := by
    intro p text start tokens' hp heq
    rw [placed_cons, List.cons_append] at heq
    injection heq with hhead
    injection hhead with hkind
    exact hopens (hkind ▸ hp)
  rw [statements]
  · intro hnil
    cases hnil
  · exact fun text start tokens' => hother _ text start tokens' (by decide)
  · exact fun text start tokens' => hother _ text start tokens' (by decide)

theorem statements_semicolon (text : String) (start : Nat) (tokens : List Token) :
    statements size (bound + 1) (⟨.punct .semicolon, text, start⟩ :: tokens) =
      statements size bound tokens := rfl

theorem statementsRead_nil : StatementsRead [] [] := fun _ => rfl

theorem statementsRead_cons {first : Stmt} {body : List Stmt}
    (h : ItemWritten statement [.semicolon] ls first) (h' : StatementsRead ls' body) :
    StatementsRead (ls ++ .punct .semicolon :: ls') (first :: body) := by
  intro size bound places text start rest hbound
  simp only [covers_iff, weight_append, weight_cons, Lexeme.weight_punct] at hbound
  obtain ⟨b, rfl⟩ : ∃ b, bound = b + 2 := ⟨bound - 2, by omega⟩
  have hfirst : Covers (b + 2) ls := covers_iff.mpr (by omega)
  have hlater : Covers b ls' := covers_iff.mpr (by omega)
  simp only [placed_append, placed_cons, List.append_assoc, List.cons_append]
  rw [statements_cons h.opens, show (Lexeme.punct .semicolon).kind = .punct .semicolon from rfl,
    h.reads hfirst List.mem_cons_self, ok_bind]
  dsimp only
  rw [statements_semicolon, h' hlater]
  rfl

theorem bodyReads_block {body : List Stmt} (h : StatementsRead ls body) :
    BodyReads (delimited .brace ls) (.block body) := by
  intro size bound places rest hbound _
  rw [covers_iff, weight_delimited] at hbound
  obtain ⟨b, rfl⟩ : ∃ b, bound = b + 2 := ⟨bound - 2, by omega⟩
  have hbody : Covers b ls := covers_iff.mpr (by omega)
  rw [placed_delimited]
  exact congrArg (· >>= _) (h hbody)

end Parser
end Templating
