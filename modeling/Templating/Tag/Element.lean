import Templating.Tag
import Templating.Value.Text

/-!
The tag that every engine has: an HTML element. Its attributes are the members of the data in their
order, and the member `content` is what it encloses. The member `value` is an attribute of elements
that have one, and the content of others that have no other.
-/
namespace Templating.Element

def voidElements : List String :=
  ["area", "base", "br", "col", "command", "embed", "hr", "img", "input", "keygen", "link", "meta",
    "param", "source", "track", "wbr"]

def valueElements : List String :=
  ["button", "input", "li", "meter", "option", "param", "progress"]

def isAttribute (name key : String) : Bool :=
  if key = "content" then false else if key = "value" then valueElements.contains name else true

/-- An attribute is written when its value is true or a text, and without a value when that is the
truth value itself. -/
def attributeText (name key : String) (value : Value) : String :=
  if isAttribute name key && (value.isTruthy || value.string?.isSome) then
    match value with
    | .bool true => " " ++ key
    | _ => " " ++ key ++ "=\"" ++ value.toText ++ "\""
  else ""

def inner (name : String) (data : Value) : String :=
  let content := data.get "content"
  let value := data.get "value"
  if content.isTruthy then content.toText
  else if !valueElements.contains name && value.isTruthy then value.toText
  else ""

def render (name : String) (data : Value) : String :=
  let attributes := data.members.map fun (key, value) => attributeText name key value
  let opening := "<" ++ name ++ String.join attributes ++ ">"
  if voidElements.contains name then opening
  else opening ++ inner name data ++ "</" ++ name ++ ">"

def tag : Tag where
  content := true
  run call := .finish (.ok (render call.first.toText call.data))

end Templating.Element
