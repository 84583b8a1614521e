import Templating.Text.Utf8

/-!
The directives that an engine adds to the language: tags and shortcuts, and which of them take
content.
-/
namespace Templating

structure Form where
  name : String
  content : Bool
  deriving DecidableEq, Repr, Inhabited

/-- Tags keep the order in which they are added; shortcuts are ordered as they are tried. -/
structure Grammar where
  tags : List Form := []
  shortcuts : List Form := []
  deriving DecidableEq, Repr, Inhabited

/-- Longer aliases are tried before shorter ones, and those of equal length in alphabetical order.
-/
def Form.before (a b : Form) : Bool :=
  let x := Text.utf8Size a.name.toList
  let y := Text.utf8Size b.name.toList
  y < x || (x == y && a.name < b.name)

def Form.insert (form : Form) : List Form → List Form
  | [] => [form]
  | other :: forms =>
    if form.before other then form :: other :: forms else other :: form.insert forms

namespace Grammar

def tag (g : Grammar) (name : String) (content : Bool) : Grammar :=
  { g with tags := g.tags ++ [⟨name, content⟩] }

def shortcut (g : Grammar) (aliasName : String) (content : Bool) : Grammar :=
  { g with shortcuts := Form.insert ⟨aliasName, content⟩ g.shortcuts }

end Grammar
end Templating
