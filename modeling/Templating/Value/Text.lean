import Templating.Value
import Templating.Decimal.Plain

/-!
The text that a value renders as.
-/
namespace Templating.Value

mutual

/-- An array is its items separated by commas, an item that is null or undefined leaving nothing. -/
def toText : Value → String
  | undefined => "undefined"
  | null => "null"
  | bool b => if b then "true" else "false"
  | number x => Decimal.plain x
  | string s => s
  | array _ items => itemsText items
  | object _ _ => "[object Object]"
  | function _ => "function"

def itemsText : List Value → String
  | [] => ""
  | [item] => if item.isNullish then "" else toText item
  | item :: items =>
    (if item.isNullish then "" else toText item) ++ "," ++ itemsText items

end

def toKey (v : Value) : String := v.toText

end Templating.Value
