import Templating.Proofs.RoundTrip
import Templating.Proofs.TokenTiles

/-!
Lists of arguments. When expressions are joined by commas on new lines, the tokens of each are those
of its text alone, at another place, and each ends before its comma just as it ends with its text. A
comment at the end of a line is no part of the next one; only a block comment that is never closed
would take in what comes after it.
-/
namespace Templating
open Text

/-- Blanks and comments that end in the middle of a block comment. -/
def LeavesCommentOpen (gap : List Char) : Prop :=
  ∃ closed body, IsGap False closed ∧ ¬ ['*', '/'] <:+: body ∧
    gap = closed ++ '/' :: '*' :: body

/-- No block comment is still open where the text ends. -/
def ClosesComments (text : String) : Prop := ∀ gap ∈ gaps text.toList, ¬ LeavesCommentOpen gap

section Gaps

variable {last : Prop} {gap body : List Char}

theorem skipGap_line_cons (c : Char) (cs : List Char) : skipGap .lineComment (c :: cs) =
    if c = '\n' then skipGap .blank cs else skipGap .lineComment cs := rfl

theorem skipGap_block_cons {c : Char} {cs : List Char} (h : c = '*' → cs.head? ≠ some '/') :
    skipGap .blockComment (c :: cs) = skipGap .blockComment cs := by
  conv => lhs; unfold skipGap
  split
  · rename_i hnil
    cases hnil
  · rename_i hgap _
    cases hgap
  · rename_i heq
    cases heq
    exact absurd rfl (h rfl)
  · rename_i heq
    cases heq
    rfl
  all_goals
    rename_i hgap _
    cases hgap

theorem skipGap_line_mark (cs : List Char) :
    skipGap .blank ('/' :: '/' :: cs) = skipGap .lineComment cs := rfl

theorem skipGap_block_mark (cs : List Char) :
    skipGap .blank ('/' :: '*' :: cs) = skipGap .blockComment cs := rfl

theorem skipGap_end_mark (cs : List Char) :
    skipGap .blockComment ('*' :: '/' :: cs) = skipGap .blank cs := rfl

/-- A line comment ends with its line. -/
theorem skipGap_line (hbody : '\n' ∉ body) (cs : List Char) :
    skipGap .lineComment (body ++ '\n' :: cs) = skipGap .blank cs := by
  induction body with
  | nil => rfl
  | cons c body ih =>
    rw [List.mem_cons, not_or] at hbody
    rw [List.cons_append, skipGap_line_cons, if_neg (Ne.symm hbody.1), ih hbody.2]

/-- A block comment goes on as long as there is no end mark. -/
theorem skipGap_block (hbody : ¬ ['*', '/'] <:+: body) {cs : List Char}
    (hcs : cs.head? ≠ some '/') :
    skipGap .blockComment (body ++ cs) = skipGap .blockComment cs := by
  induction body with
  | nil => rfl
  | cons c body ih =>
    have hrest : ¬ ['*', '/'] <:+: body := fun hmark => hbody (List.infix_cons hmark)
    have hhead : c = '*' → (body ++ cs).head? ≠ some '/' := by
      rintro rfl hslash
      cases body with
      | nil => exact hcs hslash
      | cons d body =>
        cases hslash
        exact hbody ⟨[], body, rfl⟩
    rw [List.cons_append, skipGap_block_cons hhead, ih hrest]

/-- Blanks and closed comments are skipped whatever follows. -/
theorem IsGap.skipGap_append (h : IsGap False gap) (cs : List Char) :
    skipGap .blank (gap ++ cs) = skipGap .blank cs := by
  induction h with
  | nil => rfl
  | blank hc _ ih => rw [List.cons_append, skipGap_blank_cons hc, ih]
  | line hbody _ ih =>
    simp only [List.cons_append, List.append_assoc, skipGap_line_mark, skipGap_line hbody, ih]
  | block hbody _ ih =>
    simp only [List.cons_append, List.append_assoc, skipGap_block_mark]
    rw [skipGap_block hbody (by simp), skipGap_end_mark, ih]
  | lastLine h => exact h.elim
  | lastBlock h => exact h.elim

theorem LeavesCommentOpen.skipGap_append (h : LeavesCommentOpen gap) (cs : List Char)
    (hcs : cs.head? ≠ some '/') : skipGap .blank (gap ++ cs) = skipGap .blockComment cs := by
  obtain ⟨closed, body, hclosed, hbody, rfl⟩ := h
  rw [List.append_assoc, hclosed.skipGap_append, List.cons_append, List.cons_append,
    skipGap_block_mark, skipGap_block hbody hcs]

/-- A gap that is not closed ends with a comment that is still open. -/
theorem IsGap.exists_closed (h : IsGap last gap) :
    ∃ closed rest, IsGap False closed ∧ gap = closed ++ rest ∧
      (rest = [] ∨ (∃ body, '\n' ∉ body ∧ rest = '/' :: '/' :: body) ∨
        ∃ body, ¬ ['*', '/'] <:+: body ∧ rest = '/' :: '*' :: body) := by
  induction h with
  | nil => exact ⟨[], [], .nil, rfl, .inl rfl⟩
  | @blank c _ hc _ ih =>
    obtain ⟨closed, rest, hclosed, rfl, hrest⟩ := ih
    exact ⟨c :: closed, rest, .blank hc hclosed, rfl, hrest⟩
  | @line body _ hbody _ ih =>
    obtain ⟨closed, rest, hclosed, rfl, hrest⟩ := ih
    exact ⟨_, rest, .line hbody hclosed, by simp, hrest⟩
  | @block body _ hbody _ ih =>
    obtain ⟨closed, rest, hclosed, rfl, hrest⟩ := ih
    exact ⟨_, rest, .block hbody hclosed, by simp, hrest⟩
  | lastLine _ hbody => exact ⟨[], _, .nil, rfl, .inr (.inl ⟨_, hbody, rfl⟩)⟩
  | lastBlock _ hbody => exact ⟨[], _, .nil, rfl, .inr (.inr ⟨_, hbody, rfl⟩)⟩

/-- A new line ends a gap, but for a block comment that is open. -/
theorem skipGap_new_line (h : skipGap .blank gap = []) (hopen : ¬ LeavesCommentOpen gap)
    (cs : List Char) : skipGap .blank (gap ++ '\n' :: cs) = skipGap .blank cs := by
  obtain ⟨skipped, hgap, hskipped⟩ := exists_gap .blank gap
  rw [h, List.append_nil] at hgap
  subst hgap
  obtain ⟨closed, rest, hclosed, rfl, hrest⟩ := IsGap.exists_closed hskipped
  have hbreak : isBlank '\n' = true := by decide
  rw [List.append_assoc, hclosed.skipGap_append]
  rcases hrest with rfl | ⟨body, hbody, rfl⟩ | ⟨body, hbody, rfl⟩
  · exact skipGap_blank_cons hbreak cs
  · rw [List.cons_append, List.cons_append, skipGap_line_mark, skipGap_line hbody]
  · exact (hopen ⟨closed, body, hclosed, hbody, rfl⟩).elim

theorem leavesCommentOpen_iff : LeavesCommentOpen gap ↔
    skipGap .blank gap = [] ∧ skipGap .blank (gap ++ ['\n', ',']) = [] := by
  constructor
  · intro h
    have hend := h.skipGap_append [] (by simp)
    have hcomma := h.skipGap_append ['\n', ','] (by simp)
    rw [List.append_nil] at hend
    exact ⟨hend, hcomma⟩
  · rintro ⟨hend, hcomma⟩
    by_contra hopen
    -- the comma would stand by itself in the next line
    rw [skipGap_new_line hend hopen] at hcomma
    revert hcomma
    decide

instance : DecidablePred LeavesCommentOpen := fun _ => decidable_of_iff _ leavesCommentOpen_iff.symm

instance (text : String) : Decidable (ClosesComments text) :=
  inferInstanceAs (Decidable (∀ gap ∈ gaps text.toList, ¬ LeavesCommentOpen gap))

end Gaps

section Lines

variable {position : Nat} {cs : List Char} {tokens : List Token}

/-- A text begins with the same token when it goes on with a blank or a new line. -/
theorem skipGap_append {c : Char} {rest more : List Char} (h : skipGap .blank cs = c :: rest)
    (hmore : Spaced more) : skipGap .blank (cs ++ more) = c :: (rest ++ more) := by
  obtain ⟨skipped, hcs, hskipped⟩ := exists_gap .blank cs
  have hfalse : (skipGap .blank cs = []) = False := by simp [h]
  rw [hfalse] at hskipped
  rw [h] at hcs
  have hgap : IsGap False skipped := hskipped
  have hagain : skipGap .blank (c :: rest) = c :: rest := by
    rw [← hgap.skipGap_append, ← hcs, h]
  rw [hcs, List.append_assoc, hgap.skipGap_append, List.cons_append, skipGap_spaced hmore hagain]

/-- At a later place a text has the same tokens at later places. -/
theorem tokensFrom_later (h : tokensFrom position cs = .ok tokens) (n : Nat) :
    tokensFrom (position + n) cs = .ok (tokens.map (Token.moved (· + n))) := by
  fun_induction tokensFrom position cs generalizing tokens with
  | case1 position cs hskip =>
    cases h
    rw [tokensFrom_eq, hskip]
    rfl
  | case2 position cs c rest hskip =>
    rename_i start ih
    obtain ⟨⟨kind, k⟩, hread, hrest⟩ := Parser.exists_of_bind h
    obtain ⟨others, hothers, htokens⟩ := Parser.exists_of_bind hrest
    cases htokens
    have hstart : position + n + (utf8Size cs - utf8Size (c :: rest)) = start + n :=
      Nat.add_right_comm _ _ _
    rw [tokensFrom_eq, hskip]
    dsimp only
    rw [hstart, lexeme_at hread, Parser.ok_bind]
    dsimp only
    rw [Nat.add_right_comm, ih k hothers]
    rfl

/-- A text that closes its comments has the same tokens when it goes on in the next line. -/
theorem tokensFrom_append_line (h : tokensFrom position cs = .ok tokens)
    (hclosed : ∀ gap ∈ gaps cs, ¬ LeavesCommentOpen gap) (ds : List Char) :
    tokensFrom position (cs ++ '\n' :: ds) =
      (tokensFrom (position + utf8Size cs + 1) ds).map (tokens ++ ·) := by
  fun_induction tokensFrom position cs generalizing tokens with
  | case1 position cs hskip =>
    cases h
    rw [gaps_of_end hskip] at hclosed
    have hmore : skipGap .blank (cs ++ ['\n'] ++ ds) = skipGap .blank ds := by
      rw [List.append_assoc]
      exact skipGap_new_line hskip (hclosed cs List.mem_cons_self) ds
    have hread := tokensFrom_skipped hmore position
    have hsize : utf8Size ['\n'] = 1 := rfl
    rw [utf8Size_append, ← Nat.add_assoc, hsize] at hread
    rw [List.append_cons cs '\n' ds, hread]
    cases tokensFrom (position + utf8Size cs + 1) ds <;> rfl
  | case2 position cs c rest hskip =>
    rename_i start ih
    obtain ⟨⟨kind, n⟩, hread, hrest⟩ := Parser.exists_of_bind h
    obtain ⟨others, hothers, htokens⟩ := Parser.exists_of_bind hrest
    cases htokens
    rw [gaps_of_token hskip (lexeme_at hread)] at hclosed
    -- only the gap after the last token can be open, so the others are as they were
    have hmore := ih n hothers (List.forall_mem_cons.mp hclosed).2
    have hle := utf8Size_skipGap_le .blank cs
    rw [hskip] at hle
    have hstart : position + (utf8Size (cs ++ '\n' :: ds) -
        utf8Size (c :: (rest ++ '\n' :: ds))) = start := by
      rw [← List.cons_append, utf8Size_append, utf8Size_append, Nat.add_sub_add_right]
    have hend : start + utf8Size (c :: rest.take n) + utf8Size (rest.drop n) + 1 =
        position + utf8Size cs + 1 := by
      have hrest : utf8Size (c :: rest) = utf8Size (c :: rest.take n) + utf8Size (rest.drop n) := by
        rw [← utf8Size_append, List.cons_append, List.take_append_drop]
      omega
    rw [tokensFrom_eq, skipGap_append hskip (.newLine ds)]
    dsimp only
    rw [hstart, lexeme_spaced (.newLine ds) hread, Parser.ok_bind]
    dsimp only
    rw [List.take_append_of_le_length (lexeme_le hread),
      List.drop_append_of_le_length (lexeme_le hread), hmore, hend]
    cases tokensFrom (position + utf8Size cs + 1) ds <;> rfl

end Lines

theorem lexeme_comma (start : Nat) (cs : List Char) :
    lexeme start ',' cs = .ok (.punct .comma, 0) := by
  have hquote : ¬ (',' = '\x22' ∨ ',' = '\x27') := by decide
  have hback : ',' ≠ '\x60' := by decide
  have hnumber : ¬ (','.isDigit = true ∨ ',' = '.' ∧ cs.head?.any Char.isDigit = true) := by simp
  have hword : ¬ isWordStart ',' = true := by decide +kernel
  have hfirst : Punct.longestFirst.find? (·.begins (',' :: cs)) = some .comma := rfl
  unfold lexeme
  dsimp only
  rw [if_neg hquote, if_neg hback, if_neg hnumber, if_neg hword, hfirst]
  rfl

/-- A comma is a token whatever comes after it. -/
theorem tokensFrom_comma (position : Nat) (cs : List Char) :
    tokensFrom position (',' :: cs) =
      (tokensFrom (position + 1) cs).map (⟨.punct .comma, ",", position⟩ :: ·) := by
  have hskip : skipGap .blank (',' :: cs) = ',' :: cs := rfl
  have hstart : position + (utf8Size (',' :: cs) - utf8Size (',' :: cs)) = position := by
    rw [Nat.sub_self, Nat.add_zero]
  rw [tokensFrom_eq, hskip]
  dsimp only
  rw [hstart, lexeme_comma, Parser.ok_bind]
  rfl

/-- The tokens of a text, those of what comes after a comma in the next line, and the comma. -/
theorem tokensFrom_append_comma {position : Nat} {cs ds : List Char} {tokens others : List Token}
    (h : tokensFrom position cs = .ok tokens)
    (hclosed : ∀ gap ∈ gaps cs, ¬ LeavesCommentOpen gap)
    (hmore : tokensFrom (position + utf8Size cs + 1 + 1) ds = .ok others) :
    tokensFrom position (cs ++ '\n' :: ',' :: ds) =
      .ok (tokens ++ ⟨.punct .comma, ",", position + utf8Size cs + 1⟩ :: others) := by
  rw [tokensFrom_append_line h hclosed, tokensFrom_comma, hmore]
  rfl

/-- The texts with a comma on a new line before each but the first. -/
def joinedTexts (texts : List String) : List Char :=
  ['\n', ','].intercalate (texts.map String.toList)

theorem joinedTexts_singleton (text : String) : joinedTexts [text] = text.toList := by
  rw [joinedTexts, List.map_singleton, List.intercalate_singleton]

theorem joinedTexts_cons_cons (text text' : String) (texts : List String) :
    joinedTexts (text :: text' :: texts) =
      text.toList ++ '\n' :: ',' :: joinedTexts (text' :: texts) := by
  simp only [joinedTexts, List.map_cons, List.intercalate_cons_cons, List.append_assoc,
    List.cons_append, List.nil_append]

namespace Parser

section Arguments

variable {size bound max : Nat} {e : Expr} {tokens : List Token}

/-- The tokens of an expression, elsewhere and before tokens that end it. -/
theorem exists_tokens_of_parse {text : String} (h : Expr.parse text = .ok e) :
    ∃ tokens, tokenize text = .ok tokens ∧
      ∀ (place : Nat → Nat) {after : List Token}, Stops after → 8 * text.length + 3 ≤ bound →
        expression size bound 0 (tokens.map (Token.moved place) ++ after) = .ok (e, after) := by
  obtain ⟨tokens, size', bound', htokens, hread⟩ := Expr.parse_eq_ok_iff.mp h
  refine ⟨tokens, htokens, fun place after hafter hbound => ?_⟩
  obtain ⟨_, -, -, hextents⟩ := tokensFrom_repeats 0 0 text.toList tokens htokens
  rw [String.length_toList] at hextents
  have hcovers : 8 * extents tokens + 3 ≤ bound := by omega
  have hagain : Repeats (After ⟨place, after, hafter⟩ (extents tokens))
      (expression size' bound' 0 tokens)
      (expression size bound 0 (moved ⟨place, after, hafter⟩ tokens)) :=
    expression_repeats bound' 0 hcovers
  obtain ⟨⟨value, rest⟩, hvalue, hsame, hrest, -⟩ := hagain _ hread
  cases hsame
  cases hrest
  exact hvalue

def ReadsArguments (size bound max : Nat) (tokens : List Token) (values : List Expr) : Prop :=
  ∀ room, (values.length ≤ room → argumentList size bound max room tokens = .ok values) ∧
    (room < values.length → ∃ error,
      argumentList size bound max room tokens = .error error ∧ error.fault = .argumentCount)

theorem ReadsArguments.last (h : expression size bound 0 tokens = .ok (e, [])) :
    ReadsArguments size bound max tokens [e] := by
  intro room
  cases room with
  | zero =>
    refine ⟨fun hle => ?_, fun _ => ⟨_, rfl, rfl⟩⟩
    cases hle
  | succ room =>
    constructor
    · intro _
      rw [argumentList, h]
      rfl
    · intro hlt
      exact absurd (Nat.lt_of_succ_lt_succ hlt) (Nat.not_lt_zero _)

theorem ReadsArguments.comma {text : String} {start : Nat} {others : List Token}
    {values : List Expr}
    (h : expression size bound 0 tokens = .ok (e, ⟨.punct .comma, text, start⟩ :: others))
    (hothers : ReadsArguments size bound max others values) :
    ReadsArguments size bound max tokens (e :: values) := by
  intro room
  cases room with
  | zero =>
    refine ⟨fun hle => ?_, fun _ => ⟨_, rfl, rfl⟩⟩
    cases hle
  | succ room =>
    obtain ⟨hall, hfew⟩ := hothers room
    rw [argumentList, h, ok_bind]
    dsimp only
    constructor
    · intro hle
      rw [hall (Nat.le_of_succ_le_succ hle)]
      rfl
    · intro hlt
      obtain ⟨error, herror, hfault⟩ := hfew (Nat.lt_of_succ_lt_succ hlt)
      rw [herror]
      exact ⟨error, rfl, hfault⟩

/-- The tokens of joined texts are those of the texts with commas between them, so that one text
after the other is read as its argument. -/
theorem readsArguments_joinedTexts {texts : List String} {values : List Expr}
    (hread : List.Forall₂ (fun text e => Expr.parse text = .ok e) texts values)
    (hclosed : ∀ text ∈ texts, ClosesComments text) (hne : texts ≠ [])
    (hbound : 8 * (joinedTexts texts).length + 3 ≤ bound) (position : Nat) :
    ∃ tokens, tokensFrom position (joinedTexts texts) = .ok tokens ∧
      ReadsArguments size bound max tokens values := by
  induction hread generalizing position with
  | nil => exact absurd rfl hne
  | @cons text e texts values hfirst hothers ih =>
    obtain ⟨hcloses, hclosed⟩ := List.forall_mem_cons.mp hclosed
    obtain ⟨own, htokens, hvalue⟩ := exists_tokens_of_parse hfirst
    have hplaced := tokensFrom_later htokens position
    rw [Nat.zero_add] at hplaced
    cases hothers with
    | nil =>
      rw [joinedTexts_singleton] at hbound ⊢
      have hlast := hvalue (· + position) stops_nil hbound
      rw [List.append_nil] at hlast
      exact ⟨_, hplaced, .last hlast⟩
    | @cons text' e' texts values hnext hmore =>
      rw [joinedTexts_cons_cons] at hbound ⊢
      simp only [List.length_append, List.length_cons, String.length_toList] at hbound
      have hcovers : 8 * text.length + 3 ≤ bound := by omega
      have hlater : 8 * (joinedTexts (text' :: texts)).length + 3 ≤ bound := by omega
      obtain ⟨others, hothers, hreads⟩ := ih hclosed (List.cons_ne_nil _ _) hlater
        (position + utf8Size text.toList + 1 + 1)
      have hstops : Stops (⟨.punct .comma, ",", position + utf8Size text.toList + 1⟩ :: others) :=
        stops_cons (separators_endings .paren _ (comma_mem_separators _))
      have hsplit := tokensFrom_append_comma hplaced hcloses hothers
      exact ⟨_, hsplit, .comma (hvalue (· + position) hstops hcovers) hreads⟩

end Arguments

end Parser

/-- Expressions joined by commas on new lines are the arguments of the list, each as it is read
alone, up to the number that is allowed; more of them are an error. -/
theorem Expr.parseArguments_joined {texts : List String} {values : List Expr}
    (hread : List.Forall₂ (fun text e => Expr.parse text = .ok e) texts values)
    (hclosed : ∀ text ∈ texts, ClosesComments text) (hne : texts ≠ []) (max : Nat) :
    (texts.length ≤ max → Expr.parseArguments max ("\n,".intercalate texts) = .ok values) ∧
    (max < texts.length → ∃ error,
      Expr.parseArguments max ("\n,".intercalate texts) = .error error ∧
        error.fault = .argumentCount) := by
  have hsource : ("\n,".intercalate texts).toList = joinedTexts texts := String.toList_intercalate
  have hbound : 8 * (joinedTexts texts).length + 3 ≤
      Parser.boundFor ("\n,".intercalate texts) := by
    have hlength := congrArg List.length hsource
    rw [String.length_toList] at hlength
    unfold Parser.boundFor Parser.stepsPerChar
    omega
  obtain ⟨tokens, htokens, hreads⟩ :=
    Parser.readsArguments_joinedTexts hread hclosed hne hbound 0
  have hsplit : tokenize ("\n,".intercalate texts) = .ok tokens := by
    rw [tokenize, hsource]
    exact htokens
  unfold Expr.parseArguments
  rw [hsplit, hread.length_eq]
  exact hreads max

def enclosedCommas : Expr :=
  .call (.name "f")
    [.item (.array [.item (.name "b"), .item (.name "c")]),
      .item (.function ["x", "y"] (.block
        [.declare "z" (some (.name "x")), .result (some (.name "z"))]))] false

def quotedCommas : Expr :=
  .template [.text ", ", .expr (.call (.name "g") [.item (.string ","), .item (.name "h")] false)]

/-- Texts with commas in everything that may enclose them, comments included. -/
def commaTexts : List String :=
  ["f([b, c], (x, y) => \x7b let z = x; return z \x7d) // one, two",
    "\x60, $\x7b((g)((','),(h)))\x7d\x60", "\x7ba: b, c\x7d /* d,\n e */"]

def commaValues : List Expr :=
  [enclosedCommas, quotedCommas, .object [.named "a" (.name "b"), .shorthand "c"]]

theorem commaTexts_read :
    List.Forall₂ (fun text e => Expr.parse text = .ok e) commaTexts commaValues := by
  have hcall : tokenize "f([b, c], (x, y) => \x7b let z = x; return z \x7d) // one, two" =
      .ok [⟨.word, "f", 0⟩, ⟨.punct .parenOpen, "(", 1⟩, ⟨.punct .bracketOpen, "[", 2⟩,
        ⟨.word, "b", 3⟩, ⟨.punct .comma, ",", 4⟩, ⟨.word, "c", 6⟩, ⟨.punct .bracketClose, "]", 7⟩,
        ⟨.punct .comma, ",", 8⟩, ⟨.punct .parenOpen, "(", 10⟩, ⟨.word, "x", 11⟩,
        ⟨.punct .comma, ",", 12⟩, ⟨.word, "y", 14⟩, ⟨.punct .parenClose, ")", 15⟩,
        ⟨.punct .arrow, "=>", 17⟩, ⟨.punct .braceOpen, "\x7b", 20⟩,
        ⟨.keyword .letWord, "let", 22⟩, ⟨.word, "z", 26⟩, ⟨.punct .assign, "=", 28⟩,
        ⟨.word, "x", 30⟩, ⟨.punct .semicolon, ";", 31⟩, ⟨.keyword .returnWord, "return", 33⟩,
        ⟨.word, "z", 40⟩, ⟨.punct .braceClose, "\x7d", 42⟩, ⟨.punct .parenClose, ")", 43⟩] := by
    decide +kernel
  have htemplate : "\x60, $\x7b((g)((','),(h)))\x7d\x60" = quotedCommas.text := by
    decide +kernel
  have hobject : tokenize "\x7ba: b, c\x7d /* d,\n e */" =
      .ok [⟨.punct .braceOpen, "\x7b", 0⟩, ⟨.word, "a", 1⟩, ⟨.punct .colon, ":", 2⟩,
        ⟨.word, "b", 4⟩, ⟨.punct .comma, ",", 5⟩, ⟨.word, "c", 7⟩,
        ⟨.punct .braceClose, "\x7d", 8⟩] := by
    decide +kernel
  apply List.Forall₂.cons
  · exact Expr.parse_eq_ok_iff.mpr ⟨_, 0, 60, hcall, rfl⟩
  apply List.Forall₂.cons
  · rw [htemplate]
    exact Expr.parse_text (by decide +kernel)
  apply List.Forall₂.cons
  · exact Expr.parse_eq_ok_iff.mpr ⟨_, 0, 60, hobject, rfl⟩
  exact .nil

/-- Three arguments are read where three or more are allowed, and are too many for two. -/
theorem commaTexts_joined :
    List.Forall₂ (fun text e => Expr.parse text = .ok e) commaTexts commaValues ∧
    (∀ text ∈ commaTexts, ClosesComments text) ∧ commaTexts ≠ [] ∧
    Expr.parseArguments 3 ("\n,".intercalate commaTexts) = .ok commaValues ∧
    Expr.parseArguments 5 ("\n,".intercalate commaTexts) = .ok commaValues ∧
    ∃ error, Expr.parseArguments 2 ("\n,".intercalate commaTexts) = .error error ∧
      error.fault = .argumentCount := by
  have hclosed : ∀ text ∈ commaTexts, ClosesComments text := by decide +kernel
  have hne : commaTexts ≠ [] := List.cons_ne_nil _ _
  have hjoined := Expr.parseArguments_joined commaTexts_read hclosed hne
  exact ⟨commaTexts_read, hclosed, hne, (hjoined 3).1 (by decide), (hjoined 5).1 (by decide),
    (hjoined 2).2 (by decide)⟩

/-- A text that takes in what comes after it. -/
example : ¬ ClosesComments "a /* b" := by decide +kernel

end Templating
