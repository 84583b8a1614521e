import Templating.Template.Error
import Templating.Eval.Error

/-!
Everything that can go wrong when an engine is built or a template rendered.
-/
namespace Templating

inductive ConfigFault where
  | noDepth
  | invalidAlias (aliasName : String)
  | emptyPath (aliasName : String)
  | invalidTagName (name : String)
  | unknownTagOf (aliasName tag : String)
  | unknownTag (name : String)
  | unknownShortcut (aliasName : String)
  | noNumber (name text : String)
  deriving DecidableEq, Repr, Inhabited

def ConfigFault.reason : ConfigFault → String
  | noDepth => "max_depth must be at least 1"
  | invalidAlias aliasName => "invalid shortcut alias " ++ inBackticks aliasName
  | emptyPath aliasName => "shortcut " ++ inBackticks aliasName ++ " has an empty path"
  | invalidTagName name => "invalid tag name " ++ inBackticks name
  | unknownTagOf aliasName tag =>
    "shortcut " ++ inBackticks aliasName ++ " refers to unknown tag " ++ inBackticks tag
  | unknownTag name => "unknown tag " ++ inBackticks name
  | unknownShortcut aliasName => "unknown shortcut " ++ inBackticks aliasName
  | noNumber name text => name ++ " is not a number: " ++ text

inductive Failure where
  | invalid (e : SyntaxError)
  | notFound (path referencedFrom : String)
  | evaluation (path : String) (line : Nat) (directive : String) (e : EvalError)
  | tag (name path : String) (line : Nat) (text : String)
  | tooDeep (path : String) (limit : Nat)
  | configuration (fault : ConfigFault)
  deriving DecidableEq, Repr, Inhabited

def Failure.message : Failure → String
  | invalid e => e.message
  | notFound path referencedFrom =>
    "template not found: " ++ path ++ " (referenced from " ++ referencedFrom ++ ")"
  | evaluation path line directive e => atDirective directive path line e.message
  | tag name path line text =>
    "tag " ++ inBackticks name ++ " in " ++ path ++ " on line " ++ toString line ++ " failed: "
      ++ text
  | tooDeep path limit => "template nesting deeper than " ++ toString limit ++ " at " ++ path
  | configuration fault => "invalid configuration: " ++ fault.reason

end Templating
