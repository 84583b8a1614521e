/-!
Expression trees: what is written between the braces of a directive. Literals are already read, and
an optional step (`?.`) is marked on the node that it guards.
-/
namespace Templating

inductive UnaryOp where
  | not | minus | plus | typeOf
  deriving DecidableEq, Repr, Inhabited

inductive BinaryOp where
  | add | sub | mul | div | mod | pow
  | eq | notEq | same | notSame
  | less | atMost | greater | atLeast
  | and | or | coalesce
  | isKey
  deriving DecidableEq, Repr, Inhabited

mutual

inductive Expr where
  | number (x : Float)
  | string (s : String)
  | bool (b : Bool)
  | null
  | undefined
  | name (id : String)
  | template (parts : List TemplatePart)
  | array (elements : List Element)
  | object (entries : List Entry)
  | member (target : Expr) (property : String) (optional : Bool)
  | index (target key : Expr) (optional : Bool)
  | call (callee : Expr) (args : List Element) (optional : Bool)
  | unary (op : UnaryOp) (operand : Expr)
  | binary (op : BinaryOp) (left right : Expr)
  | conditional (test consequent alternate : Expr)
  | function (params : List String) (body : Body)

inductive TemplatePart where
  | text (s : String)
  | expr (e : Expr)

inductive Element where
  | item (e : Expr)
  | spread (e : Expr)

/-- An entry of an object literal; `shorthand` is a name that is key and value at once. -/
inductive Entry where
  | named (key : String) (value : Expr)
  | computed (key value : Expr)
  | shorthand (id : String)
  | spread (e : Expr)

inductive Body where
  | expr (e : Expr)
  | block (statements : List Stmt)

inductive Stmt where
  | declare (id : String) (value : Option Expr)
  | expr (e : Expr)
  | result (value : Option Expr)

end

instance : Inhabited Expr := ⟨.undefined⟩

end Templating
