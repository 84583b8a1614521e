import Templating.Expr.Token
import Templating.Expr.Error
import Templating.Text.Blank
import Templating.Text.Letter
import Templating.Text.Utf8
import Templating.Decimal.Numeral

/-!
The tokens of a text. Blanks and comments separate tokens; string and template literals stay as they
are written, and only their ends are found here. Lengths count characters and positions bytes.
-/
namespace Templating
open Text

def isWordStart (c : Char) : Bool := c == '_' || c == '$' || isAlphabetic c

def isWordPart (c : Char) : Bool := c == '_' || c == '$' || isAlphabetic c || isNumeric c

theorem isWordPart_of_isWordStart {c : Char} (h : isWordStart c = true) : isWordPart c = true := by
  simp only [isWordStart, isWordPart, Bool.or_eq_true] at *
  exact Or.inl h

/-- A name that a template may bind: a word that is no keyword. -/
def isName (word : String) : Bool :=
  match word.toList with
  | [] => false
  | c :: cs => isWordStart c && cs.all isWordPart && (Keyword.ofWord? word).isNone

/-- What the blank part of a text is in the middle of. -/
inductive Gap where
  | blank
  | lineComment
  | blockComment
  deriving DecidableEq, Repr

/-- The text from the next token on. A line comment ends with its line and a block comment that is
never closed with the text. -/
def skipGap : Gap → List Char → List Char
  | _, [] => []
  | .lineComment, c :: cs => if c = '\n' then skipGap .blank cs else skipGap .lineComment cs
  | .blockComment, '*' :: '/' :: cs => skipGap .blank cs
  | .blockComment, _ :: cs => skipGap .blockComment cs
  | .blank, '/' :: '/' :: cs => skipGap .lineComment cs
  | .blank, '/' :: '*' :: cs => skipGap .blockComment cs
  | .blank, c :: cs => if isBlank c then skipGap .blank cs else c :: cs

theorem skipGap_suffix (gap : Gap) (cs : List Char) : skipGap gap cs <:+ cs := by
  fun_induction skipGap gap cs <;>
    first
    | exact List.suffix_refl _
    | (rename_i ih; exact ih.trans ((List.suffix_cons _ _).trans (List.suffix_cons _ _)))
    | (rename_i ih; exact ih.trans (List.suffix_cons _ _))

/-- A literal, or a substitution within a template literal, whose end is being looked for. `depth`
counts the open braces of a substitution. -/
inductive Enclosure where
  | quoted (quote : Char)
  | template
  | substitution (depth : Nat)
  deriving DecidableEq, Repr

/-- The length of the text up to the end of the outermost of the open enclosures. -/
def closingLength? : List Enclosure → List Char → Option Nat
  | [], _ => some 0
  | _ :: _, [] => none
  | .quoted quote :: outer, c :: cs =>
    if c = '\\' then
      match cs with
      | [] => none
      | _ :: rest => (closingLength? (.quoted quote :: outer) rest).map (· + 2)
    else if c = quote then (closingLength? outer cs).map (· + 1)
    else (closingLength? (.quoted quote :: outer) cs).map (· + 1)
  | .template :: outer, c :: cs =>
    if c = '\\' then
      match cs with
      | [] => none
      | _ :: rest => (closingLength? (.template :: outer) rest).map (· + 2)
    else if c = '\x60' then (closingLength? outer cs).map (· + 1)
    else if c = '$' then
      match cs with
      | '\x7b' :: rest => (closingLength? (.substitution 1 :: .template :: outer) rest).map (· + 2)
      | cs => (closingLength? (.template :: outer) cs).map (· + 1)
    else (closingLength? (.template :: outer) cs).map (· + 1)
  | .substitution depth :: outer, c :: cs =>
    if c = '\x7b' then (closingLength? (.substitution (depth + 1) :: outer) cs).map (· + 1)
    else if c = '\x7d' then
      if depth ≤ 1 then (closingLength? outer cs).map (· + 1)
      else (closingLength? (.substitution (depth - 1) :: outer) cs).map (· + 1)
    else if c = '\x22' ∨ c = '\x27' then
      (closingLength? (.quoted c :: .substitution depth :: outer) cs).map (· + 1)
    else if c = '\x60' then
      (closingLength? (.template :: .substitution depth :: outer) cs).map (· + 1)
    else (closingLength? (.substitution depth :: outer) cs).map (· + 1)

/-- The length of a decimal numeral. There is none when an exponent has no digits. -/
def numeralLength? (seenPoint seenExponent : Bool) : List Char → Option Nat
  | [] => some 0
  | c :: cs =>
    if c.isDigit then (numeralLength? seenPoint seenExponent cs).map (· + 1)
    else if c = '.' ∧ !seenPoint ∧ !seenExponent then
      (numeralLength? true seenExponent cs).map (· + 1)
    else if (c = 'e' ∨ c = 'E') ∧ !seenExponent then
      match cs with
      | [] => none
      | sign :: digits =>
        if sign = '+' ∨ sign = '-' then
          if digits.head?.any Char.isDigit then (numeralLength? seenPoint true digits).map (· + 2)
          else none
        else if sign.isDigit then (numeralLength? seenPoint true digits).map (· + 2)
        else none
    else some 0

def numberLength? : List Char → Option Nat
  | '0' :: x :: cs =>
    if x = 'x' ∨ x = 'X' then
      let digits := (cs.takeWhile Decimal.isHexDigit).length
      if digits = 0 then none else some (digits + 2)
    else numeralLength? false false ('0' :: x :: cs)
  | cs => numeralLength? false false cs

/-- A question mark and a dot are one token only where no digit follows: `a?.5:1` is a conditional.
-/
def Punct.begins (p : Punct) (cs : List Char) : Bool :=
  p.spelling.toList.isPrefixOf cs && !(p == .questionDot && (cs.drop 2).head?.any Char.isDigit)

/-- The token that begins with `c` at byte `start`: its kind, and how many of the characters after
`c` belong to it. -/
def lexeme (start : Nat) (c : Char) (cs : List Char) : Except LexError (TokenKind × Nat) :=
  let text := c :: cs
  if c = '\x22' ∨ c = '\x27' then
    match closingLength? [.quoted c] cs with
    | some n => .ok (.string, n)
    | none => .error ⟨.unterminatedString start, start + utf8Size text⟩
  else if c = '\x60' then
    match closingLength? [.template] cs with
    | some n => .ok (.template, n)
    | none => .error ⟨.unterminatedTemplate start, start + utf8Size text⟩
  else if c.isDigit ∨ (c = '.' ∧ cs.head?.any Char.isDigit) then
    match numberLength? text with
    | none => .error ⟨.invalidNumber none, start⟩
    | some n =>
      match (text.drop n).head? with
      | none => .ok (.number, n - 1)
      | some next =>
        if isWordStart next then
          .error ⟨.invalidNumber (some (String.ofList (text.take n ++ [next]))), start⟩
        else .ok (.number, n - 1)
  else if isWordStart c then
    let word := c :: cs.takeWhile isWordPart
    .ok (match Keyword.ofWord? (String.ofList word) with
      | some keyword => .keyword keyword
      | none => .word, word.length - 1)
  else
    match Punct.longestFirst.find? (·.begins text) with
    | some p => .ok (.punct p, p.spelling.length - 1)
    | none => .error ⟨.invalidCharacter c, start⟩

def tokensFrom (position : Nat) (cs : List Char) : Except LexError (List Token) :=
  match _h : skipGap .blank cs with
  | [] => .ok []
  | c :: rest => do
    let start := position + (utf8Size cs - utf8Size (c :: rest))
    let (kind, n) ← lexeme start c rest
    let text := c :: rest.take n
    let tokens ← tokensFrom (start + utf8Size text) (rest.drop n)
    return ⟨kind, String.ofList text, start⟩ :: tokens
termination_by cs.length
decreasing_by
  have := (skipGap_suffix .blank cs).length_le
  simp [_h] at this
  simp
  omega

def tokenize (source : String) : Except LexError (List Token) := tokensFrom 0 source.toList

end Templating
