/-!
What is wrong with the text of an expression, where, and how that is told.
-/
namespace Templating

/-- Why a token cannot be read. Offsets are where the unfinished construct begins; a sequence is an
escape without its backslash. -/
inductive LexFault where
  | unterminatedString (openedAt : Nat)
  | unterminatedTemplate (openedAt : Nat)
  | unterminatedSubstitution (openedAt : Nat)
  | invalidEscape (sequence : String)
  | invalidCharacter (c : Char)
  | invalidNumber (found : Option String)
  deriving DecidableEq, Repr, Inhabited

structure LexError where
  fault : LexFault
  position : Nat
  deriving DecidableEq, Repr, Inhabited

def LexFault.description : LexFault → String
  | unterminatedString _ => "unterminated string literal"
  | unterminatedTemplate _ => "unterminated template literal"
  | unterminatedSubstitution _ => "unterminated template substitution"
  | invalidEscape _ => "invalid escape sequence"
  | invalidCharacter _ => "invalid character"
  | invalidNumber _ => "invalid numeric literal"

def LexFault.suggestion? : LexFault → Option String
  | unterminatedString _ => some "add a closing quote \" or \x27"
  | unterminatedTemplate _ => some "add a closing backtick \x60"
  | unterminatedSubstitution _ => some "add a closing brace \x7d to $\x7b...\x7d"
  | invalidEscape _ =>
    some "use a valid escape: \\n, \\t, \\r, \\\\, \\\x27, \\\", \\xHH or \\uHHHH"
  | _ => none

def LexFault.openedAt? : LexFault → Option Nat
  | unterminatedString n | unterminatedTemplate n | unterminatedSubstitution n => some n
  | _ => none

def LexFault.found? : LexFault → Option String
  | invalidEscape sequence => some ("\\" ++ sequence)
  | invalidCharacter c => some ("\x27" ++ String.singleton c ++ "\x27")
  | invalidNumber found => found
  | _ => none

def LexError.reason (e : LexError) : String :=
  match e.fault.found? with
  | some found => e.fault.description ++ ", found " ++ found
  | none => e.fault.description

def LexError.message (e : LexError) : String :=
  match e.fault.openedAt? with
  | some n => e.reason ++ " (opened at position " ++ toString n ++ ")"
  | none => e.reason

inductive Delimiter where
  | paren | bracket | brace
  deriving DecidableEq, Repr, Inhabited

def Delimiter.closer : Delimiter → String
  | paren => "\x27)\x27"
  | bracket => "\x27]\x27"
  | brace => "\x27\x7d\x27"

inductive ParseFault where
  | unexpectedToken
  | unexpectedEnd
  | missingClosing (d : Delimiter)
  | invalidParameters
  | missingColon
  | invalidPropertyName
  | missingPropertyName
  | expectedName
  | expectedExpression
  | argumentCount
  | unreadableNumber
  | lexical (e : LexError)
  deriving DecidableEq, Repr, Inhabited

structure ParseError where
  fault : ParseFault
  position : Nat
  expected : List String := []
  found : Option String := none
  deriving DecidableEq, Repr, Inhabited

def ParseFault.description : ParseFault → String
  | unexpectedToken => "unexpected token"
  | unexpectedEnd => "unexpected end of input"
  | missingClosing .paren => "missing closing parenthesis \x27)\x27"
  | missingClosing .bracket => "missing closing bracket \x27]\x27"
  | missingClosing .brace => "missing closing brace \x27\x7d\x27"
  | invalidParameters => "invalid arrow function parameters"
  | missingColon => "missing \x27:\x27 in conditional expression"
  | invalidPropertyName => "invalid property name"
  | missingPropertyName => "missing property name after \x27.\x27"
  | expectedName => "expected identifier"
  | expectedExpression => "expected expression"
  | argumentCount => "wrong number of arguments"
  | unreadableNumber => "invalid token"
  | lexical _ => "invalid token"

namespace ParseError

def ofLex (e : LexError) : ParseError :=
  { fault := .lexical e, position := e.position, found := e.fault.found? }

/-- The error as seen from a text in which the expression begins at `offset`. -/
def shifted (offset : Nat) (e : ParseError) : ParseError :=
  { e with position := e.position + offset }

def detail? (e : ParseError) : Option String :=
  match e.fault with
  | .lexical lex => some lex.message
  | _ => none

def expectation : List String → String
  | [] => ""
  | [one] => ", expected " ++ one
  | several => ", expected one of: " ++ ", ".intercalate several

def message (e : ParseError) : String :=
  match e.detail? with
  | some detail => detail
  | none =>
    let found := match e.found with
      | some found => ", found " ++ found
      | none => ""
    e.fault.description ++ found ++ expectation e.expected

@[simp] theorem shifted_position (n : Nat) (e : ParseError) :
    (e.shifted n).position = e.position + n := rfl

end ParseError
end Templating
