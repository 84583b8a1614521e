/-!
Failures of expressions.
-/
namespace Templating

inductive EvalError where
  | propertyOfNullish (property target : String)
  | notCallable (callee : String)
  | notIterable (target : String)
  | invalidIn (key target : String)
  | invalidPath (found : String)
  | invalidArgument (function reason : String)
  | callDepth (limit : Nat)
  | host (text : String)
  deriving DecidableEq, Repr, Inhabited

def EvalError.message : EvalError → String
  | propertyOfNullish property target =>
    "cannot read property \x27" ++ property ++ "\x27 of " ++ target
  | notCallable callee => callee ++ " is not a function"
  | notIterable target => "cannot iterate over " ++ target
  | invalidIn key target =>
    "cannot use \x27in\x27 to search for \x27" ++ key ++ "\x27 in " ++ target
  | invalidPath found => "template path must be a string, found " ++ found
  | invalidArgument function reason => function ++ ": " ++ reason
  | callDepth limit => "too much recursion (more than " ++ toString limit ++ " nested calls)"
  | host text => text

end Templating
