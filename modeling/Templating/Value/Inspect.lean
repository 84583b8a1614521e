import Templating.Value
import Templating.Text.Quoted
import Templating.Decimal.Shortest

/-!
Values spelled out for inspection, with the kind of each.
-/
namespace Templating.Value

/-- At least one decimal place; an exponent below `10 ^ -4` and from `10 ^ 16` on. -/
def inspectDigits (d : Decimal.Digits) : List Char :=
  if d.digits.isEmpty then "0.0".toList
  else if d.point < -3 ∨ 16 < d.point then d.scientific
  else if d.digits.length ≤ d.point then d.positional ++ ['.', '0']
  else d.positional

def inspectNumber (x : Float) : String :=
  match Decimal.Binary.ofFloat? x with
  | some b =>
    let digits := inspectDigits (b.shortest .upward)
    String.ofList (if b.negative then '-' :: digits else digits)
  | none => if x > 0 then "inf" else if x < 0 then "-inf" else "NaN"

def inspectText (s : String) : String := String.ofList (Text.quoted s.toList)

mutual

def inspect : Value → String
  | undefined => "Undefined"
  | null => "Null"
  | bool b => if b then "Bool(true)" else "Bool(false)"
  | number x => "Number(" ++ inspectNumber x ++ ")"
  | string s => "String(" ++ inspectText s ++ ")"
  | array _ items => "[" ++ ", ".intercalate (inspectItems items) ++ "]"
  | object _ members => "\x7b" ++ ", ".intercalate (inspectMembers members) ++ "\x7d"
  | function (.closure _ params _ _) => "Function(" ++ ", ".intercalate params ++ ")"
  | function _ => "Function(native)"

def inspectItems : List Value → List String
  | [] => []
  | item :: items => inspect item :: inspectItems items

def inspectMembers : List (String × Value) → List String
  | [] => []
  | (key, value) :: members =>
    (inspectText key ++ ": " ++ inspect value) :: inspectMembers members

end

end Templating.Value
