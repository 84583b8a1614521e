import Templating.Failure
import Templating.Value

/-!
Tags: functions of the host that templates call for text. While it runs a tag may ask for renders
and go on with their outcomes; it has no other way to the engine.
-/
namespace Templating

/-- How a tag fails: with the failure of a render that it hands on, or with a text of its own. -/
inductive TagFailure where
  | handedOn (failure : Failure)
  | own (text : String)
  deriving DecidableEq, Repr, Inhabited

/-- What a tag does: it ends, or asks for a render of a template or of a source text. -/
inductive TagAction where
  | finish (result : Except TagFailure String)
  | render (path : String) (data : Value) (next : Except Failure String → TagAction)
  | renderText (source : String) (data : Value) (next : Except Failure String → TagAction)

/-- What a tag knows of its call. The data are always an object. -/
structure TagCall where
  first : Value
  data : Value
  caller : String
  line : Nat
  depth : Nat
  resolve : String → String
  handle : String → Option Value

/-- `firstIsPath` has the first argument resolved as a path, and `content` allows the form with
content. -/
structure Tag where
  firstIsPath : Bool := false
  content : Bool := false
  run : TagCall → TagAction

end Templating
