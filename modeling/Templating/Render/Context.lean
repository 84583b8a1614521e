import Templating.Value

/-!
What the templates of one render share: the blocks and the content published for those that come
later, and frames of data, one for each template that was given some.
-/
namespace Templating

/-- The innermost frame comes first. -/
structure Context where
  globals : Members := []
  frames : List Members := []
  depth : Nat := 0

namespace Context

def ofData (data : Members) (depth : Nat) : Context := { frames := [data], depth }

def setGlobal (c : Context) (name : String) (value : Value) : Context :=
  { c with globals := c.globals.set name value }

def global? (c : Context) (name : String) : Option Value := c.globals.lookup name

/-- The names that a template begins with. Frames hide globals, and inner frames outer ones. -/
def flatten (c : Context) : Env :=
  c.frames.foldr (fun frame names => Members.setAll names frame) c.globals

theorem lookup_flatten (c : Context) (name : String) :
    c.flatten.lookup name =
      (c.frames.findSome? fun frame => frame.reverse.lookup name).or (c.globals.lookup name) := by
  unfold flatten
  induction c.frames with
  | nil => rfl
  | cons frame frames ih =>
    rw [List.foldr_cons, Members.lookup_setAll, ih, List.findSome?_cons]
    cases frame.reverse.lookup name with
    | none => rfl
    | some value => rfl

end Context
end Templating
