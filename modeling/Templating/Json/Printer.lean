import Templating.Json
import Templating.Decimal.Shortest

/-!
Written JSON, on one line or indented. Strings escape the quote, the backslash and control
characters and nothing else.
-/
namespace Templating.Json

def hexDigit (n : Nat) : Char := Nat.digitChar n

def escapedChar (c : Char) : List Char :=
  match c with
  | '\x22' => ['\\', '\x22']
  | '\\' => ['\\', '\\']
  | '\x08' => ['\\', 'b']
  | '\x0c' => ['\\', 'f']
  | '\n' => ['\\', 'n']
  | '\r' => ['\\', 'r']
  | '\t' => ['\\', 't']
  | _ =>
    if c.toNat < 0x20 then ['\\', 'u', '0', '0', hexDigit (c.toNat / 16), hexDigit (c.toNat % 16)]
    else [c]

def stringText (s : String) : String :=
  String.ofList ('\x22' :: s.toList.flatMap escapedChar ++ ['\x22'])

/-- Positional with at least one decimal place from `0.00001` up to 16 digits before the point, and
with a signed exponent beyond. -/
def digitsText (d : Decimal.Digits) : List Char :=
  if d.digits.isEmpty then "0.0".toList
  else if d.point ≤ 16 ∧ d.digits.length ≤ d.point then d.positional ++ ['.', '0']
  else if -5 < d.point ∧ d.point ≤ 16 then d.positional
  else d.scientific ['+']

/-- Only finite numbers have a written form of their own. -/
def numberText (x : Float) : String :=
  match Decimal.Binary.ofFloat? x with
  | none => "null"
  | some b =>
    let digits := digitsText (b.shortest .toEven)
    String.ofList (if b.negative then '-' :: digits else digits)

/-- How containers are laid out: the unit of indentation, or none for a single line. -/
abbrev Layout := Option String

def lineBreak (layout : Layout) (depth : Nat) : String :=
  match layout with
  | none => ""
  | some unit => "\n" ++ String.join (List.replicate depth unit)

def colon (layout : Layout) : String := if layout.isSome then ": " else ":"

mutual

def print (layout : Layout) (depth : Nat) : Json → String
  | null => "null"
  | bool b => if b then "true" else "false"
  | integer n => toString n
  | number x => numberText x
  | string s => stringText s
  | array [] => "[]"
  | array items =>
    "[" ++ printItems layout (depth + 1) items ++ lineBreak layout depth ++ "]"
  | object [] => "\x7b\x7d"
  | object members =>
    "\x7b" ++ printMembers layout (depth + 1) members ++ lineBreak layout depth ++ "\x7d"

def printItems (layout : Layout) (depth : Nat) : List Json → String
  | [] => ""
  | [item] => lineBreak layout depth ++ print layout depth item
  | item :: items =>
    lineBreak layout depth ++ print layout depth item ++ "," ++ printItems layout depth items

def printMembers (layout : Layout) (depth : Nat) : List (String × Json) → String
  | [] => ""
  | [(key, value)] =>
    lineBreak layout depth ++ stringText key ++ colon layout ++ print layout depth value
  | (key, value) :: members =>
    lineBreak layout depth ++ stringText key ++ colon layout ++ print layout depth value ++ ","
      ++ printMembers layout depth members

end

def compact (json : Json) : String := print none 0 json

def pretty (unit : String) (json : Json) : String := print (some unit) 0 json

end Templating.Json
