import Templating.Tag.Element
import Templating.Config
import Templating.Template.Grammar

/-!
The tags of an engine by name, in alphabetical order.
-/
namespace Templating

abbrev Registry := List (String × Tag)

namespace Registry

def initial : Registry := [("tag", Element.tag)]

/-- A tag of the same name is replaced. -/
def insert (tags : Registry) (name : String) (tag : Tag) : Registry := insertSorted name tag tags

def get? (tags : Registry) (name : String) : Option Tag := List.lookup name tags

def isNameStart (c : Char) : Bool := c.isAlpha || c == '_' || c == '$'

def isNamePart (c : Char) : Bool := c.isAlphanum || c == '_' || c == '$' || c == '-' || c == '.'

def isValidName (name : String) : Bool :=
  match name.toList with
  | [] => false
  | c :: cs => isNameStart c && cs.all isNamePart

def validateShortcut (tags : Registry) (aliasName : String) (target : ShortcutTarget) :
    Except ConfigFault Unit :=
  if (tags.get? target.tag).isSome then .ok () else .error (.unknownTagOf aliasName target.tag)

/-- Names have to be well formed, and shortcuts have to stand for tags that there are. -/
def validate (tags : Registry) (shortcuts : List (String × ShortcutTarget)) :
    Except ConfigFault Unit := do
  tags.forM fun (name, _) => if isValidName name then pure () else throw (.invalidTagName name)
  shortcuts.forM fun (aliasName, target) => tags.validateShortcut aliasName target

def acceptsContent (tags : Registry) (name : String) : Bool := (tags.get? name).any (·.content)

def grammar (tags : Registry) (shortcuts : List (String × ShortcutTarget)) : Grammar :=
  let withTags := tags.foldl (fun g (name, tag) => g.tag name tag.content) {}
  shortcuts.foldl
    (fun g (aliasName, target) => g.shortcut aliasName (tags.acceptsContent target.tag)) withTags

end Registry
end Templating
