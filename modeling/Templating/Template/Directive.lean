import Templating.Expr.Parser
import Templating.Template.Error
import Templating.Template.Grammar
import Templating.Text.Occurrence

/-!
Directives as instructions. The forms are tried in a fixed order and the first that fits decides; a
text that fits none is an expression. Every part that is read further is a tail of the directive, so
the place of an error in it follows from the two sizes.
-/
namespace Templating
open Text

namespace Directive

/-- The text after a word and the blanks that have to follow it. -/
def afterWord? (word : String) (text : List Char) : Option (List Char) :=
  match word.toList.isPrefixOf? text with
  | some (c :: rest) => if isBlank c then some (trimStart rest) else none
  | _ => none

def offsetOf (text tail : List Char) : Nat := utf8Size text - utf8Size tail

def expression (text tail : List Char) : Except DirectiveError Expr :=
  match Expr.parse (String.ofList tail) with
  | .ok e => .ok e
  | .error e => .error ⟨.expression e, offsetOf text tail + e.position⟩

def arguments (text tail : List Char) (max : Nat) : Except DirectiveError (List Expr) :=
  match Expr.parseArguments max (String.ofList tail) with
  | .ok es => .ok es
  | .error e => .error ⟨.expression e, offsetOf text tail + e.position⟩

def pathAndData (text tail : List Char) : Except DirectiveError (Expr × Option Expr) := do
  match ← arguments text tail 2 with
  | [] => throw ⟨.expression default, offsetOf text tail⟩
  | path :: rest => return (path, rest.head?)

def optionalData (text tail : List Char) : Except DirectiveError (Option Expr) := do
  if tail.isEmpty then return none
  return (← arguments text tail 1).head?

def name (text tail : List Char) (directive : String) : Except DirectiveError String :=
  let candidate := String.ofList (trimEnd tail)
  if isName candidate then .ok candidate
  else .error ⟨.invalidName candidate directive, offsetOf text tail⟩

/-- The bindings and the source of a loop header, around the first `in` that has blanks on both
sides and more than blanks after it. -/
def splitIn? : List Char → Option (List Char × List Char)
  | [] => none
  | c :: cs =>
    let source? := if isBlank c then (afterWord? "in" cs).filter (!·.isEmpty) else none
    match source? with
    | some source => some ([], source)
    | none => (splitIn? cs).map fun p => (c :: p.1, p.2)

def loopNames? (bindings : List Char) : Option (String × Option String) :=
  match (pieces [','] bindings).map fun piece => String.ofList (trim piece) with
  | [value] => if isName value then some (value, none) else none
  | [value, key] => if isName value && isName key then some (value, some key) else none
  | _ => none

def loopHeader (text tail : List Char) (kind : LoopKind) : Except DirectiveError Instruction := do
  let invalid : DirectiveError := ⟨.loopHeader kind, offsetOf text tail⟩
  match splitIn? tail with
  | none => throw invalid
  | some (bindings, source) =>
    match loopNames? (trimEnd bindings) with
    | none => throw invalid
    | some (value, key) => return .loop kind value key (← expression text source) none

/-- The forms that need no grammar, each with the instruction it stands for; none when no form fits.
-/
def builtin? (text : List Char) : Option (Except DirectiveError Instruction) :=
  if let some rest := afterWord? "extends" text then
    some (return .layout (← expression text rest))
  else if let some rest := afterWord? "include:content" text then
    some do
      let (path, data) ← pathAndData text rest
      return .insert path data true
  else if let some rest := afterWord? "include" text then
    some do
      let (path, data) ← pathAndData text rest
      return .insert path data false
  else if text = "endinclude".toList then some (.ok .closeInsert)
  else if let some rest := afterWord? "block" text then
    some (return .block (← name text rest "block"))
  else if text = "endblock".toList then some (.ok .closeBlock)
  else if let some rest := afterWord? "put" text then
    some (return .put (← name text rest "put"))
  else if let some rest := afterWord? "exists" text then
    some (return .branch (.bound (← name text rest "exists")) none)
  else if let some rest := afterWord? "existsNot" text then
    some (return .branch (.unbound (← name text rest "existsNot")) none)
  else if let some rest := [':'].isPrefixOf? text then
    some (return .emitEncoded (← expression text (trimStart rest)))
  else if 2 ≤ text.length ∧ text.head? = some '*' ∧ text.getLast? = some '*' then
    some (.ok .comment)
  else if let some rest := (afterWord? "else" text).bind (afterWord? "if") then
    some (return .elseBranch (← expression text rest) none none)
  else if text = "else".toList then some (.ok (.otherwise none))
  else if let some rest := afterWord? "if" text then
    some (return .branch (.holds (← expression text rest)) none)
  else if let some rest := afterWord? "for" text then some (loopHeader text rest .entries)
  else if let some rest := afterWord? "each" text then some (loopHeader text rest .items)
  else if text = "end".toList then some (.ok .close)
  else none

def afterContentForm? (name : String) (text : List Char) : Option (List Char) :=
  (name.toList.isPrefixOf? text).bind (afterWord? ":content")

def tagForm? (text : List Char) (form : Form) : Option (Except DirectiveError Instruction) :=
  if let some rest := afterContentForm? form.name text then
    some do
      if !form.content then throw ⟨.tagContent form.name, 0⟩
      let (first, data) ← pathAndData text rest
      return .tag form.name first data true
  else if let some rest := afterWord? form.name text then
    some do
      let (first, data) ← pathAndData text rest
      return .tag form.name first data false
  else if form.content ∧ text = "end".toList ++ form.name.toList then
    some (.ok (.closeTag form.name))
  else none

def endsWord (text : List Char) : Bool := text.head?.all isBlank

/-- A use of a shortcut; `body` is the directive after its `@`. -/
def shortcutForm? (text body : List Char) (form : Form) :
    Option (Except DirectiveError Instruction) := do
  let after ← form.name.toList.isPrefixOf? body
  match ":content".toList.isPrefixOf? after with
  | some rest =>
    if !endsWord rest then none
    else some do
      if !form.content then throw ⟨.shortcutContent form.name, 0⟩
      return .shortcut form.name (← optionalData text (trimStart rest)) true
  | none =>
    if !endsWord after then none
    else some do
      return .shortcut form.name (← optionalData text (trimStart after)) false

/-- The alias of the shortcut with content that the text closes. -/
def closedShortcut? (text : List Char) (forms : List Form) : Option String := do
  let aliasName ← "end".toList.isPrefixOf? text
  let form ← forms.find? fun form => form.content && form.name.toList == aliasName
  return form.name

def shortcutForms? (text : List Char) (forms : List Form) :
    Option (Except DirectiveError Instruction) :=
  match ['@'].isPrefixOf? text with
  | some body => forms.findSome? (shortcutForm? text body)
  | none => (closedShortcut? text forms).map fun aliasName => .ok (.closeShortcut aliasName)

def read (grammar : Grammar) (directive : String) : Except DirectiveError Instruction :=
  let text := directive.toList
  if text.isEmpty then .error ⟨.emptyDirective, 0⟩
  else
    ((builtin? text).or ((grammar.tags.findSome? (tagForm? text)).or
      (shortcutForms? text grammar.shortcuts))).getD
      (return .emit (← expression text text))

end Directive
end Templating
