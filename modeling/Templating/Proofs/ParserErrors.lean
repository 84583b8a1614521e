import Templating.Proofs.ErrorPlaces

/-!
The errors of the parser. Each is one of its own, at a boundary of the text, or one of the lexer, or
comes from the source of a substitution and is told as seen from the text around it. What holds in
these cases holds of every error.
-/
namespace Templating
open Text

def Token.Of (text : String) (t : Token) : Prop := ∃ tokens, tokenize text = .ok tokens ∧ t ∈ tokens

theorem Token.Of.writtenIn {text : String} {t : Token} (h : t.Of text) :
    t.WrittenIn text.toList := by
  obtain ⟨tokens, htokens, ht⟩ := h
  have hplaces := tokenize_pinpoints text
  rw [htokens] at hplaces
  exact hplaces t ht

/-- The source of a substitution in a template of the text, and its place. -/
def Substitutes (text : String) (inner : List Char) (place : Nat) : Prop :=
  ∃ t chunks, t.Of text ∧ t.kind = .template ∧ decodedChunks t = .ok chunks ∧
    .substitution inner place ∈ chunks

namespace Parser

/-- What holds of every error of a text because it holds of those that the parser finds itself, of
those of the lexer, and of those in substitutions. -/
structure ErrorLaw (E : String → ParseError → Prop) : Prop where
  own {text : String} {e : ParseError} (hdetail : e.detail? = none)
    (hplace : Boundary text.toList e.position) : E text e
  scan {text : String} {lex : LexError} (h : Templating.tokenize text = .error lex) :
    E text (.ofLex lex)
  string {text : String} {t : Token} {lex : LexError} (ht : t.Of text) (hkind : t.kind = .string)
    (h : Templating.stringValue t = .error lex) : E text (.ofLex lex)
  template {text : String} {t : Token} {lex : LexError} (ht : t.Of text)
    (hkind : t.kind = .template) (h : Templating.decodedChunks t = .error lex) : E text (.ofLex lex)
  inner {text : String} {source : List Char} {place : Nat} {e : ParseError}
    (h : Substitutes text source place) (he : E (String.ofList source) e) :
    E text (e.shifted place)

def Tokens (text : String) (tokens : List Token) : Prop := ∀ t ∈ tokens, t.Of text

section Parts

variable {E : String → ParseError → Prop} {text : String} {t : Token} {tokens : List Token}

theorem Tokens.head (h : Tokens text (t :: tokens)) : t.Of text := h t List.mem_cons_self

theorem Tokens.tail (h : Tokens text (t :: tokens)) : Tokens text tokens :=
  fun t ht => h t (List.mem_cons_of_mem _ ht)

def Leaves {α : Type} (E : String → ParseError → Prop) (text : String)
    (r : Except ParseError (WithRest α)) : Prop :=
  Meets (E text) (fun r => Tokens text r.2) r

theorem Leaves.bind {α β : Type} {Q : β → Prop} {r : Except ParseError (WithRest α)}
    {f : WithRest α → Except ParseError β} (h : Leaves E text r)
    (hf : ∀ a rest, Tokens text rest → Meets (E text) Q (f (a, rest))) :
    Meets (E text) Q (r >>= f) :=
  Meets.bind h fun r hrest => hf r.1 r.2 hrest

theorem boundary_size (text : String) : Boundary text.toList text.utf8ByteSize := by
  rw [← utf8Size_toList]
  exact Boundary.finish text.toList

theorem position_boundary (h : Tokens text tokens) :
    Boundary text.toList (position text.utf8ByteSize tokens) := by
  cases tokens with
  | nil => exact boundary_size text
  | cons t rest => exact h.head.writtenIn.stands.boundary

theorem liftLex_meets {α : Type} {P : α → Prop} {r : Except LexError α}
    (hok : ∀ a, r = .ok a → P a) (herror : ∀ lex, r = .error lex → E text (.ofLex lex)) :
    Meets (E text) P (liftLex r) := by
  cases r with
  | ok a => exact hok a rfl
  | error lex => exact herror lex rfl

namespace ErrorLaw

theorem atEnd (law : ErrorLaw E) {e : ParseError} (hdetail : e.detail? = none)
    (hplace : e.position = text.utf8ByteSize) : E text e :=
  law.own hdetail (hplace ▸ boundary_size text)

theorem atToken (law : ErrorLaw E) (ht : t.Of text) {e : ParseError} (hdetail : e.detail? = none)
    (hplace : e.position = t.start) : E text e :=
  law.own hdetail (hplace ▸ ht.writtenIn.stands.boundary)

theorem unexpected (law : ErrorLaw E) (h : Tokens text tokens) (expected : List String) :
    E text (unexpected text.utf8ByteSize expected tokens) := by
  cases tokens with
  | nil => exact law.atEnd rfl rfl
  | cons t rest => exact law.atToken h.head rfl rfl

theorem expect (law : ErrorLaw E) (h : Tokens text tokens) (p : Punct) :
    Meets (E text) (Tokens text) (expect text.utf8ByteSize p tokens) := by
  unfold Parser.expect
  split
  · split
    · exact h.tail
    · exact law.unexpected h _
  · exact law.unexpected h _

theorem close (law : ErrorLaw E) (h : Tokens text tokens) (d : Delimiter) :
    Meets (E text) (Tokens text) (close text.utf8ByteSize d tokens) := by
  unfold Parser.close
  split
  · split
    · exact h.tail
    · exact law.own rfl (position_boundary h)
  · exact law.own rfl (position_boundary h)

theorem conditionalColon (law : ErrorLaw E) (h : Tokens text tokens) :
    Meets (E text) (Tokens text) (conditionalColon text.utf8ByteSize tokens) := by
  unfold Parser.conditionalColon
  split
  · exact h.tail
  · exact law.own rfl (position_boundary h)

theorem numberValue (law : ErrorLaw E) (ht : t.Of text) :
    Meets (E text) (fun _ => True) (numberValue t) := by
  unfold Parser.numberValue
  dsimp only
  split
  · trivial
  · exact law.atToken ht rfl rfl

theorem parameterNames (law : ErrorLaw E) (h : Tokens text tokens) :
    Leaves E text (parameterNames text.utf8ByteSize tokens) := by
  fun_induction Parser.parameterNames text.utf8ByteSize tokens with
  | case1 => exact law.atEnd rfl rfl
  | case2 => exact h.tail
  | case3 name _ _ _ _ ih => exact (ih h.tail.tail).bind fun _ _ hrest => hrest
  | case4 => exact (law.close h.tail .paren).bind fun _ hrest => hrest
  | case5 => exact law.atToken h.head rfl rfl

theorem parameters (law : ErrorLaw E) (h : Tokens text tokens) :
    Leaves E text (parameters text.utf8ByteSize tokens) :=
  (law.expect h .parenOpen).bind fun _ hrest => law.parameterNames hrest

theorem propertyName (law : ErrorLaw E) (h : Tokens text tokens) :
    Leaves E text (propertyName text.utf8ByteSize tokens) := by
  unfold Parser.propertyName
  split
  · exact law.atEnd rfl rfl
  · split
    · exact h.tail
    · exact law.atToken h.head rfl rfl

theorem expectEnd (law : ErrorLaw E) (h : Tokens text tokens) :
    Meets (E text) (fun _ => True) (expectEnd tokens) := by
  cases tokens with
  | nil => trivial
  | cons t rest => exact law.atToken h.head rfl rfl

theorem stringValue (law : ErrorLaw E) (ht : t.Of text) (hkind : t.kind = .string) :
    Meets (E text) (fun _ => True) (liftLex (stringValue t)) :=
  liftLex_meets (fun _ _ => trivial) fun _ => law.string ht hkind

theorem decodedChunks (law : ErrorLaw E) (ht : t.Of text) (hkind : t.kind = .template) :
    Meets (E text)
      (fun chunks => ∀ inner place, .substitution inner place ∈ chunks →
        Substitutes text inner place) (liftLex (decodedChunks t)) :=
  liftLex_meets (fun chunks hchunks _ _ hmem => ⟨t, chunks, ht, hkind, hchunks, hmem⟩)
    fun _ => law.template ht hkind

theorem tokenize (law : ErrorLaw E) (text : String) :
    Meets (E text) (Tokens text) (liftLex (tokenize text)) :=
  liftLex_meets (fun tokens htokens _ ht => ⟨tokens, htokens, ht⟩) fun _ => law.scan

end ErrorLaw

end Parts

-- By induction on the bound: a step of the recursion is one of its bound, and each substitution is a
-- source of its own.
mutual

theorem expression_leaves {E : String → ParseError → Prop} (law : ErrorLaw E) {text : String} :
    ∀ (bound level : Nat) {tokens : List Token}, Tokens text tokens →
      Leaves E text (expression text.utf8ByteSize bound level tokens)
  | 0, _, _, h => law.unexpected h _
  | bound + 1, level, _, h => by
    rw [expression]
    refine (operand_leaves law bound h).bind fun left rest hrest => ?_
    exact continued_leaves law bound level left hrest
termination_by structural n => n

theorem continued_leaves {E : String → ParseError → Prop} (law : ErrorLaw E) {text : String} :
    ∀ (bound level : Nat) (left : Expr) {tokens : List Token}, Tokens text tokens →
      Leaves E text (continued text.utf8ByteSize bound level left tokens)
  | 0, _, _, _, h => law.unexpected h _
  | _ + 1, _, _, [], h => h
  | bound + 1, level, left, token :: rest, h => by
    unfold continued
    dsimp only
    split
    · refine (law.propertyName h.tail).bind fun property rest hrest => ?_
      exact continued_leaves law bound level _ hrest
    · refine (indexKey_leaves law bound h.tail).bind fun key rest hrest => ?_
      exact continued_leaves law bound level _ hrest
    · refine (elements_leaves law bound .paren h.tail).bind fun args rest hrest => ?_
      exact continued_leaves law bound level _ hrest
    · split
      · refine (elements_leaves law bound .paren h.tail.tail).bind fun args rest hrest => ?_
        exact continued_leaves law bound level _ hrest
      · refine (indexKey_leaves law bound h.tail.tail).bind fun key rest hrest => ?_
        exact continued_leaves law bound level _ hrest
      · refine (law.propertyName h.tail).bind fun property rest hrest => ?_
        exact continued_leaves law bound level _ hrest
    · split
      · refine (expression_leaves law bound 0 h.tail).bind fun consequent rest hrest => ?_
        refine (law.conditionalColon hrest).bind fun rest hrest => ?_
        refine (expression_leaves law bound 0 hrest).bind fun alternate rest hrest => ?_
        exact continued_leaves law bound level _ hrest
      · exact h
    · split
      · exact h
      · split
        · exact h
        · refine (expression_leaves law bound _ h.tail).bind fun right rest hrest => ?_
          exact continued_leaves law bound level _ hrest
termination_by structural n => n

theorem indexKey_leaves {E : String → ParseError → Prop} (law : ErrorLaw E) {text : String} :
    ∀ (bound : Nat) {tokens : List Token}, Tokens text tokens →
      Leaves E text (indexKey text.utf8ByteSize bound tokens)
  | 0, _, h => law.unexpected h _
  | bound + 1, _, h => by
    rw [indexKey]
    refine (expression_leaves law bound 0 h).bind fun key rest hrest => ?_
    exact (law.close hrest .bracket).bind fun _ hrest => hrest
termination_by structural n => n

theorem operand_leaves {E : String → ParseError → Prop} (law : ErrorLaw E) {text : String} :
    ∀ (bound : Nat) {tokens : List Token}, Tokens text tokens →
      Leaves E text (operand text.utf8ByteSize bound tokens)
  | 0, _, h => law.unexpected h _
  | _ + 1, [], _ => law.atEnd rfl rfl
  | bound + 1, token :: rest, h => by
    rw [operand]
    split
    · exact (expression_leaves law bound operandLevel h.tail).bind fun _ _ hrest => hrest
    · exact primary_leaves law bound h.head h.tail
termination_by structural n => n

theorem primary_leaves {E : String → ParseError → Prop} (law : ErrorLaw E) {text : String} :
    ∀ (bound : Nat) {token : Token} {rest : List Token}, token.Of text →
      Tokens text rest → Leaves E text (primary text.utf8ByteSize bound token rest)
  | 0, _, _, htoken, h => law.atToken htoken rfl rfl
  | bound + 1, token, rest, htoken, h => by
    unfold primary
    dsimp only
    split
    · exact (law.numberValue htoken).bind fun _ _ => h
    · rename_i hkind
      exact (law.stringValue htoken hkind).bind fun _ _ => h
    · rename_i hkind
      refine (law.decodedChunks htoken hkind).bind fun chunks hin => ?_
      exact (templateParts_meets law bound hin).bind fun _ _ => h
    · exact h
    · exact h
    · exact h
    · exact h
    · split
      · exact (arrowBody_leaves law bound h.tail).bind fun _ _ hrest => hrest
      · exact h
    · split
      · refine (law.parameterNames h).bind fun params rest hrest => ?_
        refine (law.expect hrest .arrow).bind fun rest hrest => ?_
        exact (arrowBody_leaves law bound hrest).bind fun _ _ hrest => hrest
      · refine (expression_leaves law bound 0 h).bind fun inner rest hrest => ?_
        exact (law.close hrest .paren).bind fun _ hrest => hrest
    · exact (elements_leaves law bound .bracket h).bind fun _ _ hrest => hrest
    · exact (entries_leaves law bound h).bind fun _ _ hrest => hrest
    · split
      · refine (functionRest_leaves law bound h.tail).bind ?_
        rintro ⟨params, body, rest⟩ hrest
        exact hrest
      · refine (functionRest_leaves law bound h).bind ?_
        rintro ⟨params, body, rest⟩ hrest
        exact hrest
    · exact law.atToken htoken rfl rfl
termination_by structural n => n

theorem functionRest_leaves {E : String → ParseError → Prop} (law : ErrorLaw E) {text : String} :
    ∀ (bound : Nat) {tokens : List Token}, Tokens text tokens →
      Meets (E text) (fun r => Tokens text r.2.2)
        (functionRest text.utf8ByteSize bound tokens)
  | 0, _, h => law.unexpected h _
  | bound + 1, _, h => by
    rw [functionRest]
    refine (law.parameters h).bind fun params rest hrest => ?_
    refine (law.expect hrest .braceOpen).bind fun rest hrest => ?_
    exact (statements_leaves law bound hrest).bind fun _ _ hrest => hrest
termination_by structural n => n

theorem arrowBody_leaves {E : String → ParseError → Prop} (law : ErrorLaw E) {text : String} :
    ∀ (bound : Nat) {tokens : List Token}, Tokens text tokens →
      Leaves E text (arrowBody text.utf8ByteSize bound tokens)
  | 0, _, h => law.unexpected h _
  | bound + 1, tokens, h => by
    unfold arrowBody
    split <;> cases ‹bound + 1 = _›
    · exact (statements_leaves law bound h.tail).bind fun _ _ hrest => hrest
    · exact (expression_leaves law bound 0 h).bind fun _ _ hrest => hrest
termination_by structural n => n

theorem elements_leaves {E : String → ParseError → Prop} (law : ErrorLaw E) {text : String} :
    ∀ (bound : Nat) (d : Delimiter) {tokens : List Token}, Tokens text tokens →
      Leaves E text (elements text.utf8ByteSize bound d tokens)
  | 0, _, _, h => law.unexpected h _
  | _ + 1, _, [], _ => law.atEnd rfl rfl
  | bound + 1, d, token :: rest, h => by
    rw [elements]
    split
    · exact h.tail
    · refine (element_leaves law bound h).bind fun element rest hrest => ?_
      dsimp only
      split
      · exact (elements_leaves law bound d hrest.tail).bind fun _ _ hrest => hrest
      · exact (law.close hrest d).bind fun _ hrest => hrest
termination_by structural n => n

theorem element_leaves {E : String → ParseError → Prop} (law : ErrorLaw E) {text : String} :
    ∀ (bound : Nat) {tokens : List Token}, Tokens text tokens →
      Leaves E text (element text.utf8ByteSize bound tokens)
  | 0, _, h => law.unexpected h _
  | bound + 1, tokens, h => by
    unfold element
    split <;> cases ‹bound + 1 = _›
    · exact (expression_leaves law bound 0 h.tail).bind fun _ _ hrest => hrest
    · exact (expression_leaves law bound 0 h).bind fun _ _ hrest => hrest
termination_by structural n => n

theorem entries_leaves {E : String → ParseError → Prop} (law : ErrorLaw E) {text : String} :
    ∀ (bound : Nat) {tokens : List Token}, Tokens text tokens →
      Leaves E text (entries text.utf8ByteSize bound tokens)
  | 0, _, h => law.unexpected h _
  | bound + 1, tokens, h => by
    unfold entries
    split <;> cases ‹bound + 1 = _›
    · exact h.tail
    · refine (entry_leaves law bound h).bind fun entry rest hrest => ?_
      dsimp only
      split
      · exact (entries_leaves law bound hrest.tail).bind fun _ _ hrest => hrest
      · exact (law.close hrest .brace).bind fun _ hrest => hrest
termination_by structural n => n

theorem entry_leaves {E : String → ParseError → Prop} (law : ErrorLaw E) {text : String} :
    ∀ (bound : Nat) {tokens : List Token}, Tokens text tokens →
      Leaves E text (entry text.utf8ByteSize bound tokens)
  | 0, _, h => law.unexpected h _
  | _ + 1, [], _ => law.atEnd rfl rfl
  | bound + 1, token :: rest, h => by
    unfold entry
    dsimp only
    split
    · exact (expression_leaves law bound 0 h.tail).bind fun _ _ hrest => hrest
    · split
      · exact h.tail
      · exact h.tail
      · exact namedEntry_leaves law bound token.text h.tail
    · exact namedEntry_leaves law bound token.text h.tail
    · rename_i hkind
      refine (law.stringValue h.head hkind).bind fun key _ => ?_
      exact entryValue_leaves law bound _ h.tail
    · refine (law.numberValue h.head).bind fun key _ => ?_
      exact entryValue_leaves law bound _ h.tail
    · refine (indexKey_leaves law bound h.tail).bind fun key rest hrest => ?_
      exact entryValue_leaves law bound _ hrest
    · exact law.atToken h.head rfl rfl
termination_by structural n => n

theorem namedEntry_leaves {E : String → ParseError → Prop} (law : ErrorLaw E) {text : String} :
    ∀ (bound : Nat) (key : String) {tokens : List Token}, Tokens text tokens →
      Leaves E text (namedEntry text.utf8ByteSize bound key tokens)
  | 0, _, _, h => law.unexpected h _
  | bound + 1, key, tokens, h => by
    unfold namedEntry
    dsimp only
    split
    · refine (functionRest_leaves law bound h).bind ?_
      rintro ⟨params, body, rest⟩ hrest
      exact hrest
    · exact entryValue_leaves law bound _ h
termination_by structural n => n

theorem entryValue_leaves {E : String → ParseError → Prop} (law : ErrorLaw E) {text : String} :
    ∀ (bound : Nat) (make : Expr → Entry) {tokens : List Token}, Tokens text tokens →
      Leaves E text (entryValue text.utf8ByteSize bound make tokens)
  | 0, _, _, h => law.unexpected h _
  | bound + 1, make, _, h => by
    rw [entryValue]
    refine (law.expect h .colon).bind fun rest hrest => ?_
    exact (expression_leaves law bound 0 hrest).bind fun _ _ hrest => hrest
termination_by structural n => n

theorem statements_leaves {E : String → ParseError → Prop} (law : ErrorLaw E) {text : String} :
    ∀ (bound : Nat) {tokens : List Token}, Tokens text tokens →
      Leaves E text (statements text.utf8ByteSize bound tokens)
  | 0, _, h => law.unexpected h _
  | bound + 1, tokens, h => by
    unfold statements
    dsimp only
    split
    · exact law.atEnd rfl rfl
    · exact statements_leaves law bound h.tail
    · exact h.tail
    · refine (statement_leaves law bound h).bind fun statement rest hrest => ?_
      exact (statements_leaves law bound hrest).bind fun _ _ hrest => hrest
termination_by structural n => n

theorem statement_leaves {E : String → ParseError → Prop} (law : ErrorLaw E) {text : String} :
    ∀ (bound : Nat) {tokens : List Token}, Tokens text tokens →
      Leaves E text (statement text.utf8ByteSize bound tokens)
  | 0, _, h => law.unexpected h _
  | bound + 1, tokens, h => by
    unfold statement
    split <;> cases ‹bound + 1 = _›
    · split
      · exact h.tail
      · exact h.tail
      · exact h.tail
      · exact (expression_leaves law bound 0 h.tail).bind fun _ _ hrest => hrest
    · split
      · split
        · exact declaration_leaves law bound h.tail
        · exact (expression_leaves law bound 0 h).bind fun _ _ hrest => hrest
      · exact (expression_leaves law bound 0 h).bind fun _ _ hrest => hrest
termination_by structural n => n

theorem declaration_leaves {E : String → ParseError → Prop} (law : ErrorLaw E) {text : String} :
    ∀ (bound : Nat) {tokens : List Token}, Tokens text tokens →
      Leaves E text (declaration text.utf8ByteSize bound tokens)
  | 0, _, h => law.unexpected h _
  | bound + 1, tokens, h => by
    unfold declaration
    split <;> cases ‹bound + 1 = _›
    · split
      · exact (expression_leaves law bound 0 h.tail.tail).bind fun _ _ hrest => hrest
      · exact h.tail
    · exact law.own rfl (position_boundary h)
termination_by structural n => n

theorem templateParts_meets {E : String → ParseError → Prop} (law : ErrorLaw E) {text : String} :
    ∀ (bound : Nat) {chunks : List Chunk},
      (∀ inner place, .substitution inner place ∈ chunks → Substitutes text inner place) →
        Meets (E text) (fun _ => True) (templateParts bound chunks)
  | 0, _, _ => law.own rfl (Boundary.start _)
  | _ + 1, [], _ => trivial
  | bound + 1, .text cs _ :: chunks, h => by
    rw [templateParts]
    refine (templateParts_meets law bound fun inner place hmem => ?_).bind fun _ _ => trivial
    exact h inner place (List.mem_cons_of_mem _ hmem)
  | bound + 1, .substitution inner start :: chunks, h => by
    rw [templateParts]
    have hmore : Meets (E text) (fun _ => True) (templateParts bound chunks) :=
      templateParts_meets law bound fun inner place hmem =>
        h inner place (List.mem_cons_of_mem _ hmem)
    have hinner := wholeText_meets law bound (String.ofList inner)
    cases hread : wholeText bound (String.ofList inner) with
    | error e =>
      rw [hread] at hinner
      exact law.inner (h inner start List.mem_cons_self) hinner
    | ok value => exact hmore.bind fun _ _ => trivial
termination_by structural n => n

theorem wholeText_meets {E : String → ParseError → Prop} (law : ErrorLaw E) :
    ∀ (bound : Nat) (text : String), Meets (E text) (fun _ => True) (wholeText bound text)
  | 0, text => law.own rfl (Boundary.start text.toList)
  | bound + 1, text => by
    rw [wholeText]
    refine (law.tokenize text).bind fun tokens htokens => ?_
    refine (expression_leaves law bound 0 htokens).bind fun value rest hrest => ?_
    exact (law.expectEnd hrest).bind fun _ _ => trivial
termination_by structural n => n

end

theorem argumentList_meets {E : String → ParseError → Prop} (law : ErrorLaw E) {text : String}
    (bound max : Nat) : ∀ (room : Nat) {tokens : List Token}, Tokens text tokens →
      Meets (E text) (fun _ => True) (argumentList text.utf8ByteSize bound max room tokens)
  | 0, _, h => law.own rfl (position_boundary h)
  | room + 1, _, h => by
    rw [argumentList]
    refine (expression_leaves law bound 0 h).bind fun value rest hrest => ?_
    dsimp only
    split
    · exact (argumentList_meets law bound max room hrest.tail).bind fun _ _ => trivial
    · exact (law.expectEnd hrest).bind fun _ _ => trivial

theorem ErrorLaw.parse {E : String → ParseError → Prop} (law : ErrorLaw E) (text : String) :
    Meets (E text) (fun _ => True) (Expr.parse text) := wholeText_meets law _ text

theorem ErrorLaw.parseArguments {E : String → ParseError → Prop} (law : ErrorLaw E) (max : Nat)
    (text : String) : Meets (E text) (fun _ => True) (Expr.parseArguments max text) :=
  (law.tokenize text).bind fun _ htokens => argumentList_meets law _ max max htokens

theorem liftLex_boundary {α : Type} {P : α → Prop} {source : List Char} {r : Except LexError α}
    (h : Pinpoints LexError.position source P r) {lex : LexError} (hr : r = .error lex) :
    Boundary source (ParseError.ofLex lex).position := by
  rw [hr] at h
  exact h

/-- Positions inside a substitution are counted from where it begins. -/
theorem boundaryLaw : ErrorLaw fun text e => Boundary text.toList e.position where
  own _ hplace := hplace
  scan h := liftLex_boundary (tokenize_pinpoints _) h
  string ht hkind h := liftLex_boundary (stringValue_pinpoints ht.writtenIn hkind) h
  template ht hkind h := liftLex_boundary (decodedChunks_pinpoints ht.writtenIn hkind) h
  inner := by
    rintro text source place e ⟨t, chunks, ht, hkind, hchunks, hmem⟩ he
    have hin := decodedChunks_pinpoints ht.writtenIn hkind
    rw [hchunks] at hin
    rw [String.toList_ofList] at he
    have hplace := (hin _ hmem source place rfl).boundary_add he
    rwa [Nat.add_comm] at hplace

end Parser

/-- An expression is rejected at a boundary of its text. -/
theorem Expr.parse_pinpoints (text : String) :
    Pinpoints ParseError.position text.toList (fun _ => True) (Expr.parse text) :=
  Parser.boundaryLaw.parse text

theorem Expr.parseArguments_pinpoints (max : Nat) (text : String) :
    Pinpoints ParseError.position text.toList (fun _ => True) (Expr.parseArguments max text) :=
  Parser.boundaryLaw.parseArguments max text

end Templating
