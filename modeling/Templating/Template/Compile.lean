import Templating.Template.Segment
import Templating.Template.Directive
import Templating.Template.Link

/-!
Templates from source text. The first directive that cannot be read is the one reported; balance is
looked at only when all of them can.
-/
namespace Templating

def Segment.statement (grammar : Grammar) (path : String) :
    Segment → Except SyntaxError Statement
  | text s line offset => .ok ⟨line, offset, "", .literal s⟩
  | directive s line offset =>
    match Directive.read grammar s with
    | .ok instruction => .ok ⟨line, offset, s, instruction⟩
    | .error e => .error (e.located path s line offset)

/-- A fault of balance as an error of the statement that it is laid to. -/
def LinkError.located (e : LinkError) (path : String) (statements : List Statement) : SyntaxError :=
  let s := statements[e.index]?.getD default
  DirectiveError.located ⟨e.fault, 0⟩ path s.directive s.line s.offset

def Template.compile (grammar : Grammar) (path source : String) : Except SyntaxError Template := do
  let statements ← (segmentsOf source).mapM (Segment.statement grammar path)
  match link statements with
  | .ok linked => return { path, source, statements := linked }
  | .error e => throw (e.located path statements)

end Templating
