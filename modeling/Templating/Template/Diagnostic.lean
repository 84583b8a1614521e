import Templating.Text.Utf8
import Templating.Template.Error

/-!
Errors shown with the line of the source they are on and a caret below the place.
-/
namespace Templating
open Text

/-- A line and a column, both counted from 1. -/
structure Location where
  line : Nat
  column : Nat
  deriving DecidableEq, Repr

def lastLine (cs : List Char) : List Char := (cs.reverse.takeWhile (· != '\n')).reverse

/-- The location of a byte offset, which is moved back to the beginning of a character and to the
end of the source. -/
def Location.ofOffset (source : String) (offset : Nat) : Location :=
  let before := takeBytes offset source.toList
  ⟨lineFeeds before + 1, (lastLine before).length + 1⟩

/-- The text up to the first line feed, without it and a carriage return before it, and the text
after it if there is one. -/
def splitLine (cs : List Char) : List Char × Option (List Char) :=
  let line := cs.takeWhile (· != '\n')
  match cs.dropWhile (· != '\n') with
  | [] => (line, none)
  | _ :: rest => (if line.getLast? = some '\r' then line.dropLast else line, some rest)

/-- The line with the given index from 0, empty when there are fewer. -/
def lineAt : Nat → List Char → List Char
  | 0, cs => (splitLine cs).1
  | n + 1, cs =>
    match (splitLine cs).2 with
    | some rest => lineAt n rest
    | none => []

structure Diagnostic where
  message : String
  source : String
  offset : Nat
  path : String := "template"
  annotation : Option String := none
  help : Option String := none

/-- As wide as the text before the caret: tabs are kept and everything else becomes a space. -/
def indentation (column : Nat) (line : List Char) : List Char :=
  (line.take (column - 1)).map fun c => if c = '\t' then '\t' else ' '

namespace Diagnostic

def location (d : Diagnostic) : Location := Location.ofOffset d.source d.offset

/-- As wide as the number of the line. -/
def gutter (d : Diagnostic) : String :=
  String.ofList (List.replicate (toString d.location.line).length ' ')

def heading (d : Diagnostic) : String :=
  let number := toString d.location.line
  "error: " ++ d.message ++ "\n"
    ++ String.ofList (List.replicate (number.length - 1) ' ') ++ " --> " ++ d.path ++ ":" ++ number
    ++ ":" ++ toString d.location.column ++ "\n"
    ++ d.gutter ++ " |\n"

def remarks (d : Diagnostic) : String :=
  let annotation := match d.annotation with
    | some text => " " ++ text
    | none => ""
  let help := match d.help with
    | some text => "help: " ++ text ++ "\n"
    | none => ""
  annotation ++ "\n" ++ help

def render (d : Diagnostic) : String :=
  let line := lineAt (d.location.line - 1) d.source.toList
  d.heading
    ++ toString d.location.line ++ " | " ++ String.ofList line ++ "\n"
    ++ d.gutter ++ " | " ++ String.ofList (indentation d.location.column line) ++ "^"
    ++ d.remarks

end Diagnostic

def SyntaxError.diagnostic (e : SyntaxError) (source : String) : String :=
  Diagnostic.render
    { message := e.fault.reason, source, offset := e.offset, path := e.path,
      annotation := some ("in " ++ inBraces (String.ofList (lineAt 0 e.directive.toList))),
      help := e.fault.suggestion? }

end Templating
