import Templating.Expr.Error
import Templating.Template.Statement

/-!
What is wrong with a template: the cause, the directive that is at fault, and its place.
-/
namespace Templating

inductive Closer where
  | close
  | closeBlock
  | closeInsert
  | closeNamed (name : String)
  deriving DecidableEq, Repr, Inhabited

def Closer.word : Closer → String
  | close => "end"
  | closeBlock => "endblock"
  | closeInsert => "endinclude"
  | closeNamed name => "end" ++ name

def inBraces (directive : String) : String := "\x7b\x7b" ++ directive ++ "\x7d\x7d"

def inBackticks (s : String) : String := "\x60" ++ s ++ "\x60"

inductive SyntaxFault where
  | emptyDirective
  | expression (e : ParseError)
  | invalidName (candidate directive : String)
  | loopHeader (kind : LoopKind)
  | tagContent (name : String)
  | shortcutContent (aliasName : String)
  | nothingToClose (found : Closer)
  | mismatched (expected found : Closer)
  | misplacedElse
  | unclosed (expected : Closer)
  deriving DecidableEq, Repr, Inhabited

namespace SyntaxFault

def description : SyntaxFault → String
  | emptyDirective => "empty directive"
  | expression _ => "invalid expression"
  | invalidName _ _ => "invalid name"
  | loopHeader _ => "invalid loop header"
  | tagContent _ | shortcutContent _ => "content not accepted"
  | nothingToClose _ => "unexpected closing directive"
  | mismatched _ _ => "mismatched closing directive"
  | misplacedElse => "misplaced else"
  | unclosed _ => "unclosed block"

def suggestion? : SyntaxFault → Option String
  | emptyDirective => some "remove the empty braces or write an expression"
  | invalidName _ _ => some "names must be identifiers such as \x60nav\x60 or \x60main_menu\x60"
  | loopHeader _ =>
    some "write \x60for value, key in source\x60 or \x60each item, index in list\x60"
  | tagContent _ | shortcutContent _ => some "register the tag with content enabled"
  | nothingToClose _ | mismatched _ _ | unclosed _ =>
    some ("every \x60if\x60, \x60for\x60, \x60each\x60 needs \x60end\x60; \x60block\x60 needs " ++
      "\x60endblock\x60; \x60include:content\x60 needs \x60endinclude\x60; \x60name:content\x60 " ++
      "needs \x60endname\x60")
  | misplacedElse =>
    some "\x60else\x60 and \x60else if\x60 belong between \x60if\x60 and \x60end\x60"
  | expression _ => none

def reason : SyntaxFault → String
  | emptyDirective => "directive is empty"
  | expression e => e.message
  | invalidName candidate directive =>
    inBackticks candidate ++ " is not a valid " ++ directive ++ " name"
  | loopHeader kind => "expected " ++ inBackticks (kind.word ++ " value[, key] in expression")
  | tagContent name => "tag " ++ inBackticks name ++ " does not accept content"
  | shortcutContent aliasName =>
    "shortcut " ++ inBackticks ("@" ++ aliasName) ++ " does not accept content"
  | nothingToClose found => inBraces found.word ++ " has nothing to close"
  | mismatched expected found =>
    "expected " ++ inBraces expected.word ++ ", found " ++ inBraces found.word
  | misplacedElse => "no open \x60if\x60 to continue"
  | unclosed expected => "not closed, expected " ++ inBraces expected.word

end SyntaxFault

/-- A fault at an offset from the beginning of a directive. -/
structure DirectiveError where
  fault : SyntaxFault
  offset : Nat := 0
  deriving DecidableEq, Repr, Inhabited

structure SyntaxError where
  path : String
  line : Nat
  directive : String
  fault : SyntaxFault
  offset : Nat
  deriving DecidableEq, Repr, Inhabited

def DirectiveError.located (e : DirectiveError) (path directive : String) (line offset : Nat) :
    SyntaxError :=
  { path, line, directive, fault := e.fault, offset := offset + e.offset }

/-- The beginning of every error that a directive is to blame for. -/
def atDirective (directive path : String) (line : Nat) (reason : String) : String :=
  "\"" ++ inBraces directive ++ "\" in " ++ path ++ " on line " ++ toString line ++ ": " ++ reason

def SyntaxError.message (e : SyntaxError) : String :=
  atDirective e.directive e.path e.line e.fault.reason

end Templating
