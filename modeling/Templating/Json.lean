/-!
JSON trees. Members keep their order, and integers are told apart from other numbers because the two
are written differently.
-/
namespace Templating

inductive Json where
  | null
  | bool (b : Bool)
  | integer (n : Int)
  | number (x : Float)
  | string (s : String)
  | array (items : List Json)
  | object (members : List (String × Json))
  deriving Inhabited

namespace Json

def member? (key : String) : Json → Option Json
  | object members => members.lookup key
  | _ => none

end Json
end Templating
