import Templating.Eval.Error
import Templating.Value.Text
import Templating.Value.Number

/-!
Properties of values: what a member or an index gives, which keys a value has, and what a loop sees.
-/
namespace Templating.Value

/-- The item that a key names. Keys of items are read as numbers, so `01` and `+1` name the item 1.
-/
def itemAt? (items : List Value) (key : String) : Option Value :=
  (Decimal.readIndex? key.toList).bind fun i => items[i]?

def chars (s : String) : List Value := s.toList.map char

/-- The property `key`. Null and undefined have none, and asking them fails. -/
def property (target : Value) (key : String) : Except EvalError Value :=
  match target with
  | undefined => .error (.propertyOfNullish key "undefined")
  | null => .error (.propertyOfNullish key "null")
  | object _ members => .ok ((members.lookup key).getD undefined)
  | array _ items =>
    .ok (if key = "length" then nat items.length else (itemAt? items key).getD undefined)
  | string s =>
    .ok (if key = "length" then nat s.length else (itemAt? (chars s) key).getD undefined)
  | _ => .ok undefined

def hasKey (key target : Value) : Except EvalError Bool :=
  let key := key.toKey
  match target with
  | object _ members => .ok (members.lookup key).isSome
  | array _ items => .ok (key == "length" || (itemAt? items key).isSome)
  | other => .error (.invalidIn key other.toText)

def positioned (values : List Value) : Members :=
  values.mapIdx fun i v => (toString i, v)

/-- The keys and values that a `for` loop visits, in order. -/
def entries : Value → Members
  | object _ members => members
  | array _ items => positioned items
  | string s => positioned (chars s)
  | _ => []

/-- The most items that an object with a `length` may claim in an `each` loop. -/
def sequenceLimit : Nat := 0x1000000

def lengthBound : Int := 0xFFFFFFFFFFFFFFFF

/-- The values that an `each` loop visits, in order. -/
def sequence : Value → Except EvalError (List Value)
  | undefined => .error (.notIterable "undefined")
  | null => .error (.notIterable "null")
  | array _ items => .ok items
  | string s => .ok (chars s)
  | object _ members =>
    let length := match members.lookup "length" with
      | some v => (Decimal.toIntWithin 0 lengthBound v.toNumber).toNat
      | none => 0
    if sequenceLimit < length then .error (.notIterable "array-like object of invalid length")
    else .ok ((List.range length).map fun i => (members.lookup (toString i)).getD undefined)
  | _ => .ok []

end Templating.Value
