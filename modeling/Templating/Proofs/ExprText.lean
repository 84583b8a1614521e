import Templating.Proofs.LiteralText
import Templating.Proofs.Pairs

/-!
Texts of expressions. Every subexpression stands in parentheses, the keys of objects are strings,
and every statement ends with a semicolon.
-/
namespace Templating

def delimited (d : Delimiter) (ls : List Lexeme) : List Lexeme :=
  .punct d.opening :: (ls ++ [.punct d.punct])

def enclosed (ls : List Lexeme) : List Lexeme := delimited .paren ls

def separated : List (List Lexeme) → List Lexeme
  | [] => []
  | [ls] => ls
  | ls :: ls' :: more => ls ++ .punct .comma :: separated (ls' :: more)

def listed (d : Delimiter) (items : List (List Lexeme)) : List Lexeme :=
  delimited d (separated items)

def optionalMark (optional : Bool) : List Lexeme :=
  if optional then [.punct .questionDot] else []

def parameterLexemes (params : List String) : List Lexeme :=
  listed .paren (params.map fun name => [.word name])

def UnaryOp.lexeme : UnaryOp → Lexeme
  | not => .punct .bang
  | minus => .punct .minus
  | plus => .punct .plus
  | typeOf => .keyword .typeofWord

def BinaryOp.lexeme : BinaryOp → Lexeme
  | add => .punct .plus
  | sub => .punct .minus
  | mul => .punct .star
  | div => .punct .slash
  | mod => .punct .percent
  | pow => .punct .starStar
  | eq => .punct .eqEq
  | notEq => .punct .notEq
  | same => .punct .eqEqEq
  | notSame => .punct .notEqEq
  | less => .punct .lt
  | atMost => .punct .ltEq
  | greater => .punct .gt
  | atLeast => .punct .gtEq
  | and => .punct .andAnd
  | or => .punct .orOr
  | coalesce => .punct .questionQuestion
  | isKey => .keyword .inWord

mutual

/-- Numbers have no lexemes. -/
def Expr.lexemes : Expr → List Lexeme
  | .number _ => []
  | .string s => [.string s]
  | .bool b => [.keyword (if b then .trueWord else .falseWord)]
  | .null => [.keyword .nullWord]
  | .undefined => [.keyword .undefinedWord]
  | .name id => [.word id]
  | .template parts => [.template (portions parts)]
  | .array elements => listed .bracket (elementTexts elements)
  | .object entries => listed .brace (entryTexts entries)
  | .member target property optional =>
    enclosed target.lexemes ++ [.punct (if optional then .questionDot else .dot), .word property]
  | .index target key optional =>
    enclosed target.lexemes ++ (optionalMark optional ++ delimited .bracket (enclosed key.lexemes))
  | .call callee args optional =>
    enclosed callee.lexemes ++ (optionalMark optional ++ listed .paren (elementTexts args))
  | .unary op operand => op.lexeme :: enclosed operand.lexemes
  | .binary op left right => enclosed left.lexemes ++ op.lexeme :: enclosed right.lexemes
  | .conditional test consequent alternate =>
    enclosed test.lexemes ++ .punct .question ::
      (enclosed consequent.lexemes ++ .punct .colon :: enclosed alternate.lexemes)
  | .function params body => parameterLexemes params ++ .punct .arrow :: body.lexemes

def portions : List TemplatePart → List Portion
  | [] => []
  | part :: parts => part.portion :: portions parts

def TemplatePart.portion : TemplatePart → Portion
  | .text s => .text s.toList
  | .expr e => .substitution (spell (enclosed e.lexemes))

def elementTexts : List Element → List (List Lexeme)
  | [] => []
  | element :: elements => element.lexemes :: elementTexts elements

def Element.lexemes : Element → List Lexeme
  | .item e => enclosed e.lexemes
  | .spread e => .punct .ellipsis :: enclosed e.lexemes

def entryTexts : List Entry → List (List Lexeme)
  | [] => []
  | entry :: entries => entry.lexemes :: entryTexts entries

def Entry.lexemes : Entry → List Lexeme
  | .named key value => .string key :: .punct .colon :: enclosed value.lexemes
  | .computed key value =>
    delimited .bracket (enclosed key.lexemes) ++ .punct .colon :: enclosed value.lexemes
  | .shorthand id => [.word id]
  | .spread e => .punct .ellipsis :: enclosed e.lexemes

def Body.lexemes : Body → List Lexeme
  | .expr e => enclosed e.lexemes
  | .block statements => delimited .brace (statementLexemes statements)

def statementLexemes : List Stmt → List Lexeme
  | [] => []
  | statement :: statements =>
    statement.lexemes ++ .punct .semicolon :: statementLexemes statements

def Stmt.lexemes : Stmt → List Lexeme
  | .declare id none => [.keyword .letWord, .word id]
  | .declare id (some value) =>
    .keyword .letWord :: .word id :: .punct .assign :: enclosed value.lexemes
  | .expr e => enclosed e.lexemes
  | .result none => [.keyword .returnWord]
  | .result (some value) => .keyword .returnWord :: enclosed value.lexemes

end

def Expr.text (e : Expr) : String := String.ofList (spell e.lexemes)

/-- Whether the text is shaped like a word, which a keyword may be as well. -/
def isWordShaped (word : String) : Bool :=
  match word.toList with
  | [] => false
  | c :: cs => isWordStart c && cs.all isWordPart

def TemplatePart.isText : TemplatePart → Bool
  | .text _ => true
  | .expr _ => false

mutual

/-- No numbers, names that are words and no keywords, members that are words, and texts of templates
that are not empty and do not meet. -/
def Expr.isWritable : Expr → Bool
  | .number _ => false
  | .string _ | .bool _ | .null | .undefined => true
  | .name id => isName id
  | .template parts => partsWritable parts
  | .array elements => elementsWritable elements
  | .object entries => entriesWritable entries
  | .member target property _ => target.isWritable && isWordShaped property
  | .index target key _ => target.isWritable && key.isWritable
  | .call callee args _ => callee.isWritable && elementsWritable args
  | .unary _ operand => operand.isWritable
  | .binary _ left right => left.isWritable && right.isWritable
  | .conditional test consequent alternate =>
    test.isWritable && consequent.isWritable && alternate.isWritable
  | .function params body => params.all isName && body.isWritable

def partsWritable : List TemplatePart → Bool
  | [] => true
  | part :: parts =>
    part.isWritable && !(part.isText && parts.head?.any TemplatePart.isText) && partsWritable parts

def TemplatePart.isWritable : TemplatePart → Bool
  | .text s => s != ""
  | .expr e => e.isWritable

def elementsWritable : List Element → Bool
  | [] => true
  | element :: elements => element.isWritable && elementsWritable elements

def Element.isWritable : Element → Bool
  | .item e | .spread e => e.isWritable

def entriesWritable : List Entry → Bool
  | [] => true
  | entry :: entries => entry.isWritable && entriesWritable entries

def Entry.isWritable : Entry → Bool
  | .named _ value => value.isWritable
  | .computed key value => key.isWritable && value.isWritable
  | .shorthand id => isName id
  | .spread e => e.isWritable

def Body.isWritable : Body → Bool
  | .expr e => e.isWritable
  | .block statements => statementsWritable statements

def statementsWritable : List Stmt → Bool
  | [] => true
  | statement :: statements => statement.isWritable && statementsWritable statements

def Stmt.isWritable : Stmt → Bool
  | .declare id none => isName id
  | .declare id (some value) => isName id && value.isWritable
  | .expr e => e.isWritable
  | .result none => true
  | .result (some value) => value.isWritable

end

def Lexeme.isBracket (l : Lexeme) : Bool :=
  match l.kind with
  | .punct p => p.isOpening || p.isClosing
  | _ => false

/-- Valid lexemes with their brackets in pairs. -/
inductive Phrase : List Lexeme → Prop where
  | nil : Phrase []
  | plain {l : Lexeme} : l.Valid → l.isBracket = false → Phrase [l]
  | delimited (d : Delimiter) {ls : List Lexeme} : Phrase ls → Phrase (delimited d ls)
  | append {ls ls' : List Lexeme} : Phrase ls → Phrase ls' → Phrase (ls ++ ls')

namespace Phrase

theorem cons {l : Lexeme} {ls : List Lexeme} (h : Phrase [l]) (h' : Phrase ls) : Phrase (l :: ls) :=
  h.append h'

theorem word {w : String} (h : isWordShaped w = true) : Phrase [.word w] := by
  unfold isWordShaped at h
  split at h
  · cases h
  · rename_i c cs hw
    rw [Bool.and_eq_true] at h
    have hvalid := Lexeme.Valid.word h.1 h.2
    rw [← hw, String.ofList_toList] at hvalid
    refine .plain hvalid ?_
    unfold Lexeme.isBracket Lexeme.word TokenKind.ofWord
    cases Keyword.ofWord? w <;> rfl

theorem keyword (k : Keyword) : Phrase [.keyword k] := by
  have hshaped : isWordShaped k.spelling = true := by cases k <;> decide
  have hkind : Lexeme.word k.spelling = .keyword k := by
    unfold Lexeme.word Lexeme.keyword TokenKind.ofWord
    rw [Keyword.ofWord?_spelling]
  rw [← hkind]
  exact word hshaped

theorem punct {p : Punct} (h : (Lexeme.punct p).isBracket = false) : Phrase [.punct p] :=
  .plain (.punct p) h

theorem string (s : String) : Phrase [.string s] := .plain (Lexeme.string_valid s) rfl

theorem separated {items : List (List Lexeme)} (h : ∀ ls ∈ items, Phrase ls) :
    Phrase (separated items) := by
  induction items with
  | nil => exact .nil
  | cons ls items ih =>
    have hls := h ls (List.mem_cons_self ..)
    have hitems := ih fun ls' hls' => h ls' (List.mem_cons_of_mem _ hls')
    cases items with
    | nil => exact hls
    | cons ls' more => exact hls.append ((punct rfl).cons hitems)

theorem listed (d : Delimiter) {items : List (List Lexeme)} (h : ∀ ls ∈ items, Phrase ls) :
    Phrase (listed d items) := .delimited d (.separated h)

theorem optionalMark (optional : Bool) : Phrase (optionalMark optional) := by
  cases optional with
  | false => exact .nil
  | true => exact punct rfl

theorem unary (op : UnaryOp) : Phrase [op.lexeme] := by
  cases op with
  | typeOf => exact keyword _
  | _ => exact punct rfl

theorem binary (op : BinaryOp) : Phrase [op.lexeme] := by
  cases op with
  | isKey => exact keyword _
  | _ => exact punct rfl

variable {ls : List Lexeme}

theorem valid (h : Phrase ls) : ∀ l ∈ ls, l.Valid := by
  induction h with
  | nil => exact fun _ hl => absurd hl List.not_mem_nil
  | plain h => exact fun _ hl => List.eq_of_mem_singleton hl ▸ h
  | delimited d _ ih =>
    intro l hl
    unfold Templating.delimited at hl
    simp only [List.mem_cons, List.mem_append, List.not_mem_nil, or_false] at hl
    rcases hl with rfl | hl | rfl
    · exact .punct _
    · exact ih l hl
    · exact .punct _
  | append _ _ ih ih' =>
    intro l hl
    exact (List.mem_append.mp hl).elim (ih l) (ih' l)

theorem paired (h : Phrase ls) (places : Nat → Nat) : Paired (placed places ls) := by
  induction h generalizing places with
  | nil => exact .nil
  | plain _ hbracket => exact .plain hbracket
  | @delimited d ls _ ih =>
    unfold Templating.delimited
    rw [placed_cons, placed_append, placed_cons, placed_nil]
    exact .delimited d rfl rfl (ih _)
  | append _ _ ih ih' =>
    rw [placed_append]
    exact (ih _).append (ih' _)

end Phrase

theorem spellAfter_append (before : Option Lexeme) (ls ls' : List Lexeme) :
    ∃ last, spellAfter before (ls ++ ls') = spellAfter before ls ++ spellAfter last ls' := by
  induction ls generalizing before with
  | nil => exact ⟨before, rfl⟩
  | cons l ls ih =>
    obtain ⟨last, hlast⟩ := ih (some l)
    refine ⟨last, ?_⟩
    rw [List.cons_append, spellAfter, spellAfter, hlast, List.append_assoc, List.append_assoc]

theorem isInert_word {c : Char} (h : isWordPart c = true) : Enclosure.isInert c = true :=
  Enclosure.isInert_of (by decide) h

theorem Lexeme.Valid.keeps {l : Lexeme} (h : l.Valid) (hbracket : l.isBracket = false) (d : Nat) :
    Enclosure.Keeps (.substitution d) l.text := by
  cases h with
  | word hc hcs =>
    refine .inert (List.all_cons.trans (Bool.and_eq_true_iff.mpr ⟨?_, ?_⟩))
    · exact isInert_word (isWordPart_of_isWordStart hc)
    · exact List.all_eq_true.mpr fun c hc => isInert_word (List.all_eq_true.mp hcs c hc)
  | punct p =>
    have hinert : ∀ p : Punct, (Lexeme.punct p).isBracket = false →
        (Lexeme.punct p).text.all Enclosure.isInert = true := by
      intro p
      cases p <;> decide
    exact .inert (hinert p hbracket)
  | string h => exact .string h
  | template h => exact .template h

namespace Phrase

theorem keeps_gap (l : Lexeme) (before : Option Lexeme) (d : Nat) :
    Enclosure.Keeps (.substitution d) (l.gap before) := by
  refine .inert ?_
  unfold Lexeme.gap
  split
  · split <;> rfl
  · rfl

theorem gap_close (d : Delimiter) (before : Option Lexeme) :
    (Lexeme.punct d.punct).gap before = [] := by
  cases before with
  | none => rfl
  | some l =>
    have hclash : l.clashes (.punct d.punct) = false := by
      unfold Lexeme.clashes
      cases d <;> simp [Lexeme.isWord, Lexeme.isSign, Lexeme.punct, Delimiter.punct,
        TokenKind.isPropertyName, Punct.isOpening, Punct.isClosing]
    unfold Lexeme.gap
    simp only [hclash, Bool.false_eq_true, if_false]

/-- A text between delimiters, braces counted. -/
theorem keeps_delimited (delimiter : Delimiter) {d : Nat} (hd : 1 ≤ d) {cs : List Char}
    (h : ∀ d', 1 ≤ d' → Enclosure.Keeps (.substitution d') cs) :
    Enclosure.Keeps (.substitution d)
      (delimiter.opening.spelling.toList ++ (cs ++ delimiter.punct.spelling.toList)) := by
  cases delimiter with
  | brace => exact .braces hd (h (d + 1) (Nat.le_add_left ..))
  | paren => exact (Enclosure.Keeps.inert rfl).append ((h d hd).append (.inert rfl))
  | bracket => exact (Enclosure.Keeps.inert rfl).append ((h d hd).append (.inert rfl))

/-- The text of a phrase does not end the substitution that it stands in. -/
theorem keeps {ls : List Lexeme} (h : Phrase ls) {d : Nat} (hd : 1 ≤ d) (before : Option Lexeme) :
    Enclosure.Keeps (.substitution d) (spellAfter before ls) := by
  induction h generalizing d before with
  | nil => exact .nil
  | @plain l hl hbracket =>
    exact (keeps_gap l before d).append ((hl.keeps hbracket d).append .nil)
  | @delimited delimiter ls _ ih =>
    unfold Templating.delimited
    obtain ⟨last, hlast⟩ :=
      spellAfter_append (some (.punct delimiter.opening)) ls [.punct delimiter.punct]
    rw [spellAfter, hlast, spellAfter, spellAfter, gap_close, List.nil_append, List.append_nil]
    exact (keeps_gap _ before d).append (keeps_delimited delimiter hd fun d' hd' => ih hd' _)
  | @append ls ls' _ _ ih ih' =>
    obtain ⟨last, hlast⟩ := spellAfter_append before ls ls'
    rw [hlast]
    exact (ih hd before).append (ih' hd last)

end Phrase

theorem isName_eq (word : String) :
    isName word = (isWordShaped word && (Keyword.ofWord? word).isNone) := by
  unfold isName isWordShaped
  cases word.toList <;> rfl

theorem isWordShaped_of_isName {word : String} (h : isName word = true) :
    isWordShaped word = true := by
  rw [isName_eq, Bool.and_eq_true] at h
  exact h.1

namespace Phrase

theorem enclosed {ls : List Lexeme} (h : Phrase ls) : Phrase (enclosed ls) := .delimited _ h

theorem name {id : String} (h : isName id = true) : Phrase [.word id] :=
  word (isWordShaped_of_isName h)

theorem names {params : List String} (h : params.all isName = true) :
    Phrase (Templating.separated (params.map fun name => [.word name])) := by
  refine .separated fun ls hls => ?_
  obtain ⟨name, hname, rfl⟩ := List.mem_map.mp hls
  exact .name (List.all_eq_true.mp h name hname)

theorem parameters {params : List String} (h : params.all isName = true) :
    Phrase (parameterLexemes params) := .delimited _ (.names h)

end Phrase

theorem TemplatePart.isText_portion (part : TemplatePart) : part.portion.isText = part.isText := by
  cases part <;> rfl

theorem head?_portions (parts : List TemplatePart) :
    (portions parts).head? = parts.head?.map TemplatePart.portion := by
  cases parts <;> rfl

mutual

theorem Expr.phrase : (e : Expr) → e.isWritable = true → Phrase e.lexemes
  | .number _, _ => .nil
  | .string s, _ => .string s
  | .bool _, _ | .null, _ | .undefined, _ => .keyword _
  | .name _, h => .name h
  | .template parts, h => .plain (Lexeme.template_valid (portions_apart parts h)) rfl
  | .array elements, h => .listed _ (elementTexts_phrase elements h)
  | .object entries, h => .listed _ (entryTexts_phrase entries h)
  | .member target _ optional, h => by
    obtain ⟨htarget, hproperty⟩ := Bool.and_eq_true_iff.mp h
    have hstep : Phrase [.punct (if optional then .questionDot else .dot)] := by
      cases optional <;> exact .punct rfl
    exact (target.phrase htarget).enclosed.append (hstep.cons (.word hproperty))
  | .index target key optional, h => by
    obtain ⟨htarget, hkey⟩ := Bool.and_eq_true_iff.mp h
    exact (target.phrase htarget).enclosed.append
      ((Phrase.optionalMark optional).append (.delimited _ (key.phrase hkey).enclosed))
  | .call callee args optional, h => by
    obtain ⟨hcallee, hargs⟩ := Bool.and_eq_true_iff.mp h
    exact (callee.phrase hcallee).enclosed.append
      ((Phrase.optionalMark optional).append (.listed _ (elementTexts_phrase args hargs)))
  | .unary op operand, h => (Phrase.unary op).cons (operand.phrase h).enclosed
  | .binary op left right, h => by
    obtain ⟨hleft, hright⟩ := Bool.and_eq_true_iff.mp h
    exact (left.phrase hleft).enclosed.append
      ((Phrase.binary op).cons (right.phrase hright).enclosed)
  | .conditional test consequent alternate, h => by
    obtain ⟨htest, halternate⟩ := Bool.and_eq_true_iff.mp h
    obtain ⟨htest, hconsequent⟩ := Bool.and_eq_true_iff.mp htest
    exact (test.phrase htest).enclosed.append ((Phrase.punct rfl).cons
      ((consequent.phrase hconsequent).enclosed.append
        ((Phrase.punct rfl).cons (alternate.phrase halternate).enclosed)))
  | .function params body, h => by
    obtain ⟨hparams, hbody⟩ := Bool.and_eq_true_iff.mp h
    exact (Phrase.parameters hparams).append ((Phrase.punct rfl).cons (body.phrase hbody))

theorem portions_apart : (parts : List TemplatePart) → partsWritable parts = true →
    Portion.Apart (portions parts)
  | [], _ => .nil
  | part :: parts, h => by
    obtain ⟨hpart, hparts⟩ := Bool.and_eq_true_iff.mp h
    obtain ⟨hpart, hapart⟩ := Bool.and_eq_true_iff.mp hpart
    refine .cons (part.portion_valid hpart) (fun htext q hq => ?_) (portions_apart parts hparts)
    rw [TemplatePart.isText_portion] at htext
    rw [head?_portions] at hq
    rw [htext, Bool.true_and, Bool.not_eq_true'] at hapart
    cases parts with
    | nil => cases hq
    | cons next parts =>
      cases hq
      rw [TemplatePart.isText_portion]
      exact hapart

theorem TemplatePart.portion_valid : (part : TemplatePart) → part.isWritable = true →
    part.portion.Valid
  | .text s, h => .text fun hnil => by
    rw [String.toList_eq_nil_iff.mp hnil] at h
    cases h
  | .expr e, h => .substitution ((e.phrase h).enclosed.keeps (Nat.le_refl 1) none)

theorem elementTexts_phrase : (elements : List Element) → elementsWritable elements = true →
    ∀ ls ∈ elementTexts elements, Phrase ls
  | [], _ => fun _ hls => absurd hls List.not_mem_nil
  | element :: elements, h => by
    obtain ⟨helement, helements⟩ := Bool.and_eq_true_iff.mp h
    exact List.forall_mem_cons.mpr
      ⟨element.phrase helement, elementTexts_phrase elements helements⟩

theorem Element.phrase : (element : Element) → element.isWritable = true → Phrase element.lexemes
  | .item e, h => (e.phrase h).enclosed
  | .spread e, h => (Phrase.punct rfl).cons (e.phrase h).enclosed

theorem entryTexts_phrase : (entries : List Entry) → entriesWritable entries = true →
    ∀ ls ∈ entryTexts entries, Phrase ls
  | [], _ => fun _ hls => absurd hls List.not_mem_nil
  | entry :: entries, h => by
    obtain ⟨hentry, hentries⟩ := Bool.and_eq_true_iff.mp h
    exact List.forall_mem_cons.mpr ⟨entry.phrase hentry, entryTexts_phrase entries hentries⟩

theorem Entry.phrase : (entry : Entry) → entry.isWritable = true → Phrase entry.lexemes
  | .named key value, h =>
    (Phrase.string key).cons ((Phrase.punct rfl).cons (value.phrase h).enclosed)
  | .computed key value, h => by
    obtain ⟨hkey, hvalue⟩ := Bool.and_eq_true_iff.mp h
    exact (Phrase.delimited _ (key.phrase hkey).enclosed).append
      ((Phrase.punct rfl).cons (value.phrase hvalue).enclosed)
  | .shorthand _, h => .name h
  | .spread e, h => (Phrase.punct rfl).cons (e.phrase h).enclosed

theorem Body.phrase : (body : Body) → body.isWritable = true → Phrase body.lexemes
  | .expr e, h => (e.phrase h).enclosed
  | .block statements, h => .delimited _ (statementLexemes_phrase statements h)

theorem statementLexemes_phrase : (statements : List Stmt) →
    statementsWritable statements = true → Phrase (statementLexemes statements)
  | [], _ => .nil
  | statement :: statements, h => by
    obtain ⟨hstatement, hstatements⟩ := Bool.and_eq_true_iff.mp h
    exact (statement.phrase hstatement).append
      ((Phrase.punct rfl).cons (statementLexemes_phrase statements hstatements))

theorem Stmt.phrase : (statement : Stmt) → statement.isWritable = true → Phrase statement.lexemes
  | .declare _ none, h => (Phrase.keyword _).cons (.name h)
  | .declare _ (some value), h => by
    obtain ⟨hid, hvalue⟩ := Bool.and_eq_true_iff.mp h
    exact (Phrase.keyword _).cons ((Phrase.name hid).cons
      ((Phrase.punct rfl).cons (value.phrase hvalue).enclosed))
  | .expr e, h => (e.phrase h).enclosed
  | .result none, _ => .keyword _
  | .result (some value), h => (Phrase.keyword _).cons (value.phrase h).enclosed

end

end Templating
