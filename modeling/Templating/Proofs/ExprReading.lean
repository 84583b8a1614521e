import Templating.Proofs.ExprText

/-!
Expressions are read back from their texts. Each construct is read from its lexemes whatever
follows, as long as that ends an expression, within a bound on the steps that the text covers.
-/
namespace Templating

/-- A template weighs as much as it has characters, and everything else one. -/
def Lexeme.weight (l : Lexeme) : Nat := if l.kind = .template then l.text.length else 1

def weight : List Lexeme → Nat
  | [] => 0
  | l :: ls => l.weight + weight ls

namespace Lexeme

@[simp] theorem weight_punct (p : Punct) : (punct p).weight = 1 := rfl

@[simp] theorem weight_keyword (k : Keyword) : (keyword k).weight = 1 := rfl

@[simp] theorem weight_string (s : String) : (string s).weight = 1 := rfl

@[simp] theorem weight_word (w : String) : (word w).weight = 1 := by
  unfold weight word TokenKind.ofWord
  cases Keyword.ofWord? w <;> rfl

@[simp] theorem weight_template (ps : List Portion) :
    (template ps).weight = (Portion.allWritten ps).length + 2 := by
  simp [weight, template]

theorem Valid.weight_le {l : Lexeme} (h : l.Valid) : l.weight ≤ l.text.length := by
  obtain ⟨c, cs, htext, -⟩ := h.head
  unfold weight
  split
  · exact Nat.le_refl _
  · rw [htext]
    exact Nat.le_add_left ..

end Lexeme

@[simp] theorem UnaryOp.weight_lexeme (op : UnaryOp) : op.lexeme.weight = 1 := by cases op <;> rfl

@[simp] theorem BinaryOp.weight_lexeme (op : BinaryOp) : op.lexeme.weight = 1 := by cases op <;> rfl

@[simp] theorem weight_nil : weight [] = 0 := rfl

@[simp] theorem weight_cons (l : Lexeme) (ls : List Lexeme) :
    weight (l :: ls) = l.weight + weight ls := rfl

@[simp] theorem weight_append (ls ls' : List Lexeme) :
    weight (ls ++ ls') = weight ls + weight ls' := by
  induction ls with
  | nil => exact (Nat.zero_add _).symm
  | cons l ls ih => rw [List.cons_append, weight_cons, weight_cons, ih, Nat.add_assoc]

@[simp] theorem weight_delimited (d : Delimiter) (ls : List Lexeme) :
    weight (delimited d ls) = weight ls + 2 := by
  simp only [delimited, weight_cons, weight_append, weight_nil, Lexeme.weight_punct]
  omega

@[simp] theorem weight_enclosed (ls : List Lexeme) : weight (enclosed ls) = weight ls + 2 :=
  weight_delimited _ ls

theorem weight_le_length {ls : List Lexeme} (h : ∀ l ∈ ls, l.Valid) (before : Option Lexeme) :
    weight ls ≤ (spellAfter before ls).length := by
  induction ls generalizing before with
  | nil => exact Nat.le_refl 0
  | cons l ls ih =>
    obtain ⟨hl, hls⟩ := List.forall_mem_cons.mp h
    have hweight := hl.weight_le
    have hrest := ih hls (some l)
    simp only [spellAfter, weight_cons, List.length_append]
    omega

namespace Parser

def Covers (bound : Nat) (ls : List Lexeme) : Prop := stepsPerChar * weight ls ≤ bound

theorem covers_iff {bound : Nat} {ls : List Lexeme} : Covers bound ls ↔ 8 * weight ls ≤ bound :=
  Iff.rfl

theorem covers_enclosed {bound : Nat} {ls : List Lexeme} :
    Covers bound (enclosed ls) ↔ 8 * weight ls + 16 ≤ bound := by
  rw [covers_iff, weight_enclosed, Nat.mul_add]

variable {size bound : Nat} {places : Nat → Nat} {rest : List Token}

/-- An operand that an expression ends after is the expression. -/
theorem expression_of_operand {level : Nat} {tokens : List Token} {e : Expr}
    (h : operand size (bound + 1) tokens = .ok (e, rest)) (hrest : Stops rest) :
    expression size (bound + 2) level tokens = .ok (e, rest) := by
  rw [expression, h]
  exact continued_of_stops hrest level e

theorem placed_delimited (d : Delimiter) (ls : List Lexeme) (rest : List Token) :
    placed places (delimited d ls) ++ rest =
      ⟨.punct d.opening, String.ofList d.opening.spelling.toList, places 0⟩ ::
        (placed (fun n => places (n + 1)) ls ++
          ⟨.punct d.punct, String.ofList d.punct.spelling.toList, places (0 + ls.length + 1)⟩ ::
            rest) := by
  rw [delimited, placed_cons, placed_append, List.cons_append, List.append_assoc]
  rfl

def Reads (ls : List Lexeme) (e : Expr) : Prop :=
  ∀ {size bound : Nat} {places : Nat → Nat} {rest : List Token}, Covers bound ls → Stops rest →
    expression size bound 0 (placed places ls ++ rest) = .ok (e, rest)

/-- A phrase that is read as the expression. -/
structure Written (ls : List Lexeme) (e : Expr) : Prop where
  phrase : Phrase ls
  reads : Reads ls e

variable {ls ls' : List Lexeme} {e e' : Expr}

/-- A parenthesis opens an enclosed expression unless an arrow follows its end. -/
theorem operand_inner {tokens : List Token} (h : arrowFollows 0 tokens = false) (text : String)
    (start : Nat) :
    operand size (bound + 2) (⟨.punct .parenOpen, text, start⟩ :: tokens) = (do
      let (inner, rest) ← expression size bound 0 tokens
      let rest ← close size .paren rest
      return (inner, rest)) :=
  if_neg (ne_true_of_eq_false h)

theorem operand_parameters {tokens : List Token} (h : arrowFollows 0 tokens = true)
    (text : String) (start : Nat) :
    operand size (bound + 2) (⟨.punct .parenOpen, text, start⟩ :: tokens) = (do
      let (params, rest) ← parameterNames size tokens
      let rest ← expect size .arrow rest
      let (body, rest) ← arrowBody size bound rest
      return (.function params body, rest)) :=
  if_pos h

theorem operand_paren (h : Written ls e) (hbound : Covers bound ls) (hrest : ArrowFree rest)
    (text text' : String) (start start' : Nat) :
    operand size (bound + 2) (⟨.punct .parenOpen, text, start⟩ ::
      (placed places ls ++ ⟨.punct .parenClose, text', start'⟩ :: rest)) = .ok (e, rest) := by
  have harrow : arrowFollows 0 (placed places ls ++ ⟨.punct .parenClose, text', start'⟩ :: rest) =
      false := by
    rw [(h.phrase.paired places).arrowFollows_append]
    exact hrest
  have hclose : Stops (⟨.punct .parenClose, text', start'⟩ :: rest) := stops_cons (by decide)
  -- no parameters begin here, since the search for an arrow passes over the whole phrase
  rw [operand_inner harrow, h.reads hbound hclose]
  rfl

theorem operand_enclosed (h : Written ls e) (hbound : Covers bound ls) (hrest : ArrowFree rest) :
    operand size (bound + 2) (placed places (enclosed ls) ++ rest) = .ok (e, rest) := by
  rw [enclosed, placed_delimited]
  exact operand_paren h hbound hrest ..

theorem expression_enclosed (h : Written ls e) (hbound : Covers bound (enclosed ls)) (level : Nat)
    (hrest : Stops rest) :
    expression size bound level (placed places (enclosed ls) ++ rest) = .ok (e, rest) := by
  rw [covers_enclosed] at hbound
  obtain ⟨b, rfl⟩ : ∃ b, bound = b + 3 := ⟨bound - 3, by omega⟩
  have hinner : Covers b ls := covers_iff.mpr (by omega)
  exact expression_of_operand (operand_enclosed h hinner hrest.arrowFree) hrest

theorem Written.enclosed (h : Written ls e) : Written (enclosed ls) e :=
  ⟨h.phrase.enclosed, fun hbound hrest => expression_enclosed h hbound 0 hrest⟩

/-- What is read after an enclosed expression. -/
theorem expression_target (h : Written ls e) (hbound : Covers bound (enclosed ls))
    (hrest : ArrowFree rest) :
    expression size (bound + 1) 0 (placed places (enclosed ls) ++ rest) =
      continued size bound 0 e rest := by
  rw [covers_enclosed] at hbound
  obtain ⟨b, rfl⟩ : ∃ b, bound = b + 2 := ⟨bound - 2, by omega⟩
  have hinner : Covers b ls := covers_iff.mpr (by omega)
  rw [expression, operand_enclosed h hinner hrest]
  rfl

theorem operand_unary (op : UnaryOp) (text : String) (start : Nat) (tokens : List Token) :
    operand size (bound + 1) (⟨op.lexeme.kind, text, start⟩ :: tokens) = (do
      let (inner, rest) ← expression size bound operandLevel tokens
      return (.unary op inner, rest)) := by
  cases op <;> rfl

theorem reads_unary (op : UnaryOp) (h : Written ls e) :
    Reads (op.lexeme :: enclosed ls) (.unary op e) := by
  intro size bound places rest hbound hrest
  simp only [covers_iff, weight_cons, UnaryOp.weight_lexeme, weight_enclosed] at hbound
  obtain ⟨b, rfl⟩ : ∃ b, bound = b + 2 := ⟨bound - 2, by omega⟩
  have hinner : Covers b (enclosed ls) := covers_enclosed.mpr (by omega)
  refine expression_of_operand ?_ hrest
  rw [placed_cons, List.cons_append, operand_unary,
    expression_enclosed h hinner operandLevel hrest]
  rfl

theorem arrowFree_cons {kind : TokenKind} {text : String} {start : Nat}
    (h : (kind == .punct .arrow) = false) : ArrowFree (⟨kind, text, start⟩ :: rest) := h

theorem arrowFree_binary (op : BinaryOp) (text : String) (start : Nat) :
    ArrowFree (⟨op.lexeme.kind, text, start⟩ :: rest) :=
  arrowFree_cons (by cases op <;> rfl)

theorem continued_operator (op : BinaryOp) (level : Nat) (left : Expr) (text : String)
    (start : Nat) (tokens : List Token) :
    continued size (bound + 1) level left (⟨op.lexeme.kind, text, start⟩ :: tokens) =
      if op.level < level then .ok (left, ⟨op.lexeme.kind, text, start⟩ :: tokens)
      else (do
        let (right, rest) ← expression size bound op.rightLevel tokens
        continued size bound level (.binary op left right) rest) := by
  cases op <;> rfl

/-- The operator binds tightly enough, as every one does at the lowest level. -/
theorem continued_binary {op : BinaryOp} {level : Nat} (h : level ≤ op.level) (left : Expr)
    (text : String) (start : Nat) (tokens : List Token) :
    continued size (bound + 1) level left (⟨op.lexeme.kind, text, start⟩ :: tokens) = (do
      let (right, rest) ← expression size bound op.rightLevel tokens
      continued size bound level (.binary op left right) rest) := by
  rw [continued_operator, if_neg (Nat.not_lt.mpr h)]

theorem reads_binary (op : BinaryOp) (h : Written ls e) (h' : Written ls' e') :
    Reads (enclosed ls ++ op.lexeme :: enclosed ls') (.binary op e e') := by
  intro size bound places rest hbound hrest
  simp only [covers_iff, weight_append, weight_cons, BinaryOp.weight_lexeme, weight_enclosed]
    at hbound
  obtain ⟨b, rfl⟩ : ∃ b, bound = b + 3 := ⟨bound - 3, by omega⟩
  have hleft : Covers (b + 2) (enclosed ls) := covers_enclosed.mpr (by omega)
  have hright : Covers (b + 1) (enclosed ls') := covers_enclosed.mpr (by omega)
  rw [placed_append, List.append_assoc, placed_cons, List.cons_append,
    expression_target h hleft (arrowFree_binary op ..)]
  rw [continued_binary (Nat.zero_le _), expression_enclosed h' hright op.rightLevel hrest]
  exact continued_of_stops hrest 0 _

theorem reads_conditional {ls'' : List Lexeme} {e'' : Expr} (h : Written ls e)
    (h' : Written ls' e') (h'' : Written ls'' e'') :
    Reads (enclosed ls ++ .punct .question :: (enclosed ls' ++ .punct .colon :: enclosed ls''))
      (.conditional e e' e'') := by
  intro size bound places rest hbound hrest
  simp only [covers_iff, weight_append, weight_cons, Lexeme.weight_punct, weight_enclosed]
    at hbound
  obtain ⟨b, rfl⟩ : ∃ b, bound = b + 3 := ⟨bound - 3, by omega⟩
  have htest : Covers (b + 2) (enclosed ls) := covers_enclosed.mpr (by omega)
  have hconsequent : Covers (b + 1) (enclosed ls') := covers_enclosed.mpr (by omega)
  have halternate : Covers (b + 1) (enclosed ls'') := covers_enclosed.mpr (by omega)
  simp only [placed_append, placed_cons, List.append_assoc, List.cons_append]
  rw [expression_target h htest (arrowFree_cons rfl)]
  simp only [Lexeme.punct, continued, if_true]
  rw [expression_enclosed h' hconsequent 0 (stops_cons (by decide)), ok_bind, conditionalColon,
    ok_bind, expression_enclosed h'' halternate 0 hrest]
  exact continued_of_stops hrest 0 _

theorem continued_member (level : Nat) (left : Expr) (property : String) (optional : Bool)
    (text text' : String) (start start' : Nat) :
    continued size (bound + 1) level left
      (⟨.punct (if optional then .questionDot else .dot), text, start⟩ ::
        ⟨.ofWord property, text', start'⟩ :: rest) =
      continued size bound level (.member left text' optional) rest := by
  unfold TokenKind.ofWord
  cases optional <;> cases Keyword.ofWord? property <;> rfl

theorem reads_member (h : Written ls e) (property : String) (optional : Bool) :
    Reads (enclosed ls ++ [.punct (if optional then .questionDot else .dot), .word property])
      (.member e property optional) := by
  intro size bound places rest hbound hrest
  simp only [covers_iff, weight_append, weight_cons, Lexeme.weight_punct, Lexeme.weight_word,
    weight_nil, weight_enclosed] at hbound
  obtain ⟨b, rfl⟩ : ∃ b, bound = b + 3 := ⟨bound - 3, by omega⟩
  have htarget : Covers (b + 2) (enclosed ls) := covers_enclosed.mpr (by omega)
  simp only [placed_append, placed_cons, placed_nil, List.append_assoc, List.cons_append,
    List.nil_append]
  rw [expression_target h htarget (arrowFree_cons (by cases optional <;> rfl))]
  simp only [Lexeme.punct, Lexeme.word]
  rw [continued_member, String.ofList_toList]
  exact continued_of_stops hrest 0 _

theorem indexKey_enclosed (h : Written ls e) (hbound : Covers bound (enclosed ls)) (text : String)
    (start : Nat) :
    indexKey size (bound + 1)
      (placed places (enclosed ls) ++ ⟨.punct .bracketClose, text, start⟩ :: rest) =
        .ok (e, rest) := by
  rw [indexKey, expression_enclosed h hbound 0 (stops_cons (by decide))]
  rfl

theorem arrowFree_optionalMark (optional : Bool) {kind : TokenKind} (text : String) (start : Nat)
    (h : (kind == .punct .arrow) = false) :
    ArrowFree (placed places (optionalMark optional) ++ ⟨kind, text, start⟩ :: rest) := by
  cases optional with
  | false => exact arrowFree_cons h
  | true => rfl

theorem continued_index (level : Nat) (left : Expr) (optional : Bool) (text : String) (start : Nat)
    (tokens : List Token) :
    continued size (bound + 1) level left
      (placed places (optionalMark optional) ++ ⟨.punct .bracketOpen, text, start⟩ :: tokens) = (do
        let (key, rest) ← indexKey size bound tokens
        continued size bound level (.index left key optional) rest) := by
  cases optional <;> rfl

theorem continued_call (level : Nat) (left : Expr) (optional : Bool) (text : String) (start : Nat)
    (tokens : List Token) :
    continued size (bound + 1) level left
      (placed places (optionalMark optional) ++ ⟨.punct .parenOpen, text, start⟩ :: tokens) = (do
        let (args, rest) ← elements size bound .paren tokens
        continued size bound level (.call left args optional) rest) := by
  cases optional <;> rfl

theorem reads_index (h : Written ls e) (h' : Written ls' e') (optional : Bool) :
    Reads (enclosed ls ++ (optionalMark optional ++ delimited .bracket (enclosed ls')))
      (.index e e' optional) := by
  intro size bound places rest hbound hrest
  simp only [covers_iff, weight_append, weight_delimited, weight_enclosed] at hbound
  obtain ⟨b, rfl⟩ : ∃ b, bound = b + 3 := ⟨bound - 3, by omega⟩
  have htarget : Covers (b + 2) (enclosed ls) := covers_enclosed.mpr (by omega)
  have hkey : Covers b (enclosed ls') := covers_enclosed.mpr (by omega)
  simp only [placed_append, List.append_assoc, placed_delimited]
  rw [expression_target h htarget (arrowFree_optionalMark optional _ _ rfl)]
  refine (continued_index ..).trans ?_
  rw [show Delimiter.bracket.punct = .bracketClose from rfl, indexKey_enclosed h' hkey, ok_bind]
  exact continued_of_stops hrest 0 _

theorem reads_of_primary {l : Lexeme} (hweight : l.weight = 1)
    (h : ∀ {size bound start rest}, Stops rest →
      operand size (bound + 2) (⟨l.kind, String.ofList l.text, start⟩ :: rest) = .ok (e, rest)) :
    Reads [l] e := by
  intro size bound places rest hbound hrest
  simp only [covers_iff, weight_cons, weight_nil, hweight] at hbound
  obtain ⟨b, rfl⟩ : ∃ b, bound = b + 3 := ⟨bound - 3, by omega⟩
  exact expression_of_operand (h hrest) hrest

theorem reads_string (s : String) : Reads [.string s] (.string s) := by
  refine reads_of_primary rfl fun {size bound start rest} _ => ?_
  change (do
    let value ← liftLex (stringValue ⟨.string, String.ofList (Lexeme.string s).text, start⟩)
    return (Expr.string value, rest)) = _
  rw [stringValue_string]
  rfl

theorem reads_bool (b : Bool) :
    Reads [.keyword (if b then .trueWord else .falseWord)] (.bool b) :=
  reads_of_primary rfl fun _ => by cases b <;> rfl

theorem reads_null : Reads [.keyword .nullWord] .null :=
  reads_of_primary rfl fun _ => rfl

theorem reads_undefined : Reads [.keyword .undefinedWord] .undefined :=
  reads_of_primary rfl fun _ => rfl

theorem kind_word {id : String} (h : isName id = true) : (Lexeme.word id).kind = .word := by
  rw [isName_eq, Bool.and_eq_true, Option.isNone_iff_eq_none] at h
  unfold Lexeme.word TokenKind.ofWord
  rw [h.2]

theorem text_word (w : String) : String.ofList (Lexeme.word w).text = w := String.ofList_toList

theorem operand_name (h : ArrowFree rest) (id : String) (start : Nat) :
    operand size (bound + 2) (⟨.word, id, start⟩ :: rest) = .ok (.name id, rest) := by
  change primary size (bound + 1) ⟨.word, id, start⟩ rest = _
  unfold primary
  dsimp only
  split
  · cases h
  · rfl

theorem reads_name {id : String} (h : isName id = true) : Reads [.word id] (.name id) := by
  refine reads_of_primary (Lexeme.weight_word id) fun {size bound start rest} hrest => ?_
  rw [kind_word h, text_word]
  exact operand_name hrest.arrowFree id start

theorem wholeText_spell (h : Written ls e) (hbound : stepsPerChar * (spell ls).length ≤ bound) :
    wholeText (bound + 1) (String.ofList (spell ls)) = .ok e := by
  obtain ⟨places, htokens⟩ := tokenize_spell h.phrase.valid
  have hcovers : Covers bound ls :=
    Nat.le_trans (Nat.mul_le_mul_left _ (weight_le_length h.phrase.valid none)) hbound
  rw [wholeText, htokens, liftLex, ok_bind, ← List.append_nil (placed places ls),
    h.reads hcovers stops_nil]
  rfl

def PartsRead (parts : List TemplatePart) : Prop :=
  ∀ {bound : Nat} {places : Nat → Nat},
    stepsPerChar * (Portion.allWritten (portions parts)).length < bound →
      templateParts bound (Portion.chunksAt places (portions parts)) = .ok parts

theorem partsRead_nil : PartsRead [] := by
  intro bound places hbound
  obtain ⟨b, rfl⟩ : ∃ b, bound = b + 1 := ⟨bound - 1, by omega⟩
  rfl

theorem partsRead_text {s : String} {parts : List TemplatePart} (hs : s ≠ "")
    (h : PartsRead parts) : PartsRead (.text s :: parts) := by
  intro bound places hbound
  have hlength : 1 ≤ (escape isTemplateSpecial s.toList).length := by
    rw [Nat.one_le_iff_ne_zero, Ne, List.length_eq_zero_iff]
    exact fun hnil => hs (String.toList_eq_nil_iff.mp (escape_eq_nil hnil))
  simp only [portions, TemplatePart.portion, Portion.allWritten_cons, Portion.written,
    List.length_append, stepsPerChar] at hbound
  obtain ⟨b, rfl⟩ : ∃ b, bound = b + 1 := ⟨bound - 1, by omega⟩
  have hrest : stepsPerChar * (Portion.allWritten (portions parts)).length < b := by
    unfold stepsPerChar
    omega
  rw [portions, TemplatePart.portion, Portion.chunksAt, Portion.chunk, templateParts, h hrest,
    String.ofList_toList]
  rfl

theorem partsRead_expr {parts : List TemplatePart} (h : Written e.lexemes e)
    (h' : PartsRead parts) : PartsRead (.expr e :: parts) := by
  intro bound places hbound
  simp only [portions, TemplatePart.portion, Portion.allWritten_cons, Portion.written,
    List.length_append, List.length_cons, stepsPerChar] at hbound
  obtain ⟨b, rfl⟩ : ∃ b, bound = b + 2 := ⟨bound - 2, by omega⟩
  have hsource : stepsPerChar * (spell (enclosed e.lexemes)).length ≤ b := by
    unfold stepsPerChar
    omega
  have hrest : stepsPerChar * (Portion.allWritten (portions parts)).length < b + 1 := by
    unfold stepsPerChar
    omega
  rw [portions, TemplatePart.portion, Portion.chunksAt, Portion.chunk, templateParts,
    wholeText_spell h.enclosed hsource, h' hrest]
  rfl

theorem reads_template {parts : List TemplatePart} (h : Portion.Apart (portions parts))
    (h' : PartsRead parts) : Reads [.template (portions parts)] (.template parts) := by
  intro size bound places rest hbound hrest
  simp only [covers_iff, weight_cons, Lexeme.weight_template, weight_nil] at hbound
  obtain ⟨b, rfl⟩ : ∃ b, bound = b + 3 := ⟨bound - 3, by omega⟩
  have hparts : stepsPerChar * (Portion.allWritten (portions parts)).length < b := by
    unfold stepsPerChar
    omega
  obtain ⟨starts, hchunks⟩ := decodedChunks_template h (places 0)
  refine expression_of_operand ?_ hrest
  change (do
    let chunks ← liftLex (decodedChunks ⟨.template, String.ofList (Lexeme.template _).text, _⟩)
    let parts ← templateParts b chunks
    return (Expr.template parts, rest)) = _
  rw [hchunks, liftLex, ok_bind, h' hparts]
  rfl

end Parser
end Templating
