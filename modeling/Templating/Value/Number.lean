import Templating.Value
import Templating.Text.Blank
import Templating.Decimal.Numeral

/-!
The number that a value is taken for in arithmetic and comparisons.
-/
namespace Templating
open Text

/-- The number that a text is taken for: 0 for a blank one, a hexadecimal or decimal numeral, or an
infinity, with blanks around; NaN otherwise. -/
def numberOfText (cs : List Char) : Float :=
  let cs := trim cs
  if cs.isEmpty then 0
  else
    match cs with
    | '0' :: 'x' :: digits => (Decimal.readHex? digits).elim Decimal.nan (Decimal.nearest false · 1)
    | '0' :: 'X' :: digits => (Decimal.readHex? digits).elim Decimal.nan (Decimal.nearest false · 1)
    | _ =>
      if cs = "Infinity".toList ∨ cs = "+Infinity".toList then Decimal.infinity
      else if cs = "-Infinity".toList then -Decimal.infinity
      else (Decimal.readFloat? cs).getD Decimal.nan

namespace Value

mutual

/-- An array is taken for the number of its only item, and for 0 when it is empty. -/
def toNumber : Value → Float
  | undefined => Decimal.nan
  | null => 0
  | bool b => if b then 1 else 0
  | number x => x
  | string s => numberOfText s.toList
  | array _ items => itemsNumber items
  | object _ _ => Decimal.nan
  | function _ => Decimal.nan

def itemsNumber : List Value → Float
  | [] => 0
  | [item] => toNumber item
  | _ :: _ :: _ => Decimal.nan

end

end Value
end Templating
