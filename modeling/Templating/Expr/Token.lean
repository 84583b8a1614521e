import Templating.Expr

/-!
Tokens of expressions, with the spelling of every fixed one.
-/
namespace Templating

inductive Keyword where
  | trueWord | falseWord | nullWord | undefinedWord
  | typeofWord | functionWord | returnWord
  | constWord | letWord | varWord
  | inWord
  deriving DecidableEq, Repr, Inhabited

namespace Keyword

def all : List Keyword :=
  [trueWord, falseWord, nullWord, undefinedWord, typeofWord, functionWord, returnWord, constWord,
    letWord, varWord, inWord]

def spelling : Keyword → String
  | trueWord => "true"
  | falseWord => "false"
  | nullWord => "null"
  | undefinedWord => "undefined"
  | typeofWord => "typeof"
  | functionWord => "function"
  | returnWord => "return"
  | constWord => "const"
  | letWord => "let"
  | varWord => "var"
  | inWord => "in"

def ofWord? (word : String) : Option Keyword := all.find? (·.spelling == word)

def declares : Keyword → Bool
  | constWord | letWord | varWord => true
  | _ => false

end Keyword

inductive Punct where
  | parenOpen | parenClose | bracketOpen | bracketClose | braceOpen | braceClose
  | comma | dot | questionDot | ellipsis | colon | semicolon
  | question | questionQuestion | arrow | assign
  | plus | minus | star | starStar | slash | percent | bang
  | eqEq | eqEqEq | notEq | notEqEq | lt | ltEq | gt | gtEq | andAnd | orOr
  deriving DecidableEq, Repr, Inhabited

namespace Punct

def spelling : Punct → String
  | eqEqEq => "==="
  | notEqEq => "!=="
  | ellipsis => "..."
  | starStar => "**"
  | eqEq => "=="
  | notEq => "!="
  | ltEq => "<="
  | gtEq => ">="
  | andAnd => "&&"
  | orOr => "||"
  | questionQuestion => "??"
  | questionDot => "?."
  | arrow => "=>"
  | parenOpen => "("
  | parenClose => ")"
  | bracketOpen => "["
  | bracketClose => "]"
  | braceOpen => "\x7b"
  | braceClose => "\x7d"
  | comma => ","
  | dot => "."
  | colon => ":"
  | semicolon => ";"
  | question => "?"
  | assign => "="
  | plus => "+"
  | minus => "-"
  | star => "*"
  | slash => "/"
  | percent => "%"
  | bang => "!"
  | lt => "<"
  | gt => ">"

/-- Longer spellings come before their beginnings. -/
def longestFirst : List Punct :=
  [eqEqEq, notEqEq, ellipsis, starStar, eqEq, notEq, ltEq, gtEq, andAnd, orOr, questionQuestion,
    questionDot, arrow, parenOpen, parenClose, bracketOpen, bracketClose, braceOpen, braceClose,
    comma, dot, colon, semicolon, question, assign, plus, minus, star, slash, percent, bang, lt, gt]

def isOpening : Punct → Bool
  | parenOpen | bracketOpen | braceOpen => true
  | _ => false

def isClosing : Punct → Bool
  | parenClose | bracketClose | braceClose => true
  | _ => false

theorem mem_longestFirst (p : Punct) : p ∈ longestFirst := by cases p <;> decide

end Punct

inductive TokenKind where
  | word
  | number
  | string
  | template
  | punct (p : Punct)
  | keyword (k : Keyword)
  deriving DecidableEq, Repr, Inhabited

namespace TokenKind

/-- Words and keywords alike may follow a dot. -/
def isPropertyName : TokenKind → Bool
  | word | keyword _ => true
  | _ => false

def startsExpression : TokenKind → Bool
  | word | number | string | template => true
  | punct .parenOpen | punct .bracketOpen | punct .braceOpen => true
  | punct .plus | punct .minus | punct .bang => true
  | keyword .trueWord | keyword .falseWord | keyword .nullWord | keyword .undefinedWord => true
  | keyword .typeofWord | keyword .functionWord => true
  | _ => false

def unaryOp? : TokenKind → Option UnaryOp
  | punct .bang => some .not
  | punct .minus => some .minus
  | punct .plus => some .plus
  | keyword .typeofWord => some .typeOf
  | _ => none

def binaryOp? : TokenKind → Option BinaryOp
  | punct .plus => some .add
  | punct .minus => some .sub
  | punct .star => some .mul
  | punct .slash => some .div
  | punct .percent => some .mod
  | punct .starStar => some .pow
  | punct .eqEq => some .eq
  | punct .notEq => some .notEq
  | punct .eqEqEq => some .same
  | punct .notEqEq => some .notSame
  | punct .lt => some .less
  | punct .ltEq => some .atMost
  | punct .gt => some .greater
  | punct .gtEq => some .atLeast
  | punct .andAnd => some .and
  | punct .orOr => some .or
  | punct .questionQuestion => some .coalesce
  | keyword .inWord => some .isKey
  | _ => none

end TokenKind

/-- `text` is the token as written and `start` its byte offset. -/
structure Token where
  kind : TokenKind
  text : String
  start : Nat
  deriving DecidableEq, Repr, Inhabited

end Templating
