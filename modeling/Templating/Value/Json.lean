import Templating.Value
import Templating.Json
import Templating.Decimal.Double

/-!
Values as JSON and back. Integral numbers below `9 * 10 ^ 15` become integers, numbers that are not
finite null; functions and undefined values become null in arrays and vanish from objects.
-/
namespace Templating

def jsonNumber (x : Float) : Json :=
  match Decimal.Binary.ofFloat? x with
  | none => .null
  | some b =>
    if b.isIntegral && decide (b.numerator / b.denominator < 9000000000000000) then
      .integer b.truncate
    else .number x

namespace Value

def isOmitted : Value → Bool
  | undefined | function _ => true
  | _ => false

mutual

def toJson : Value → Json
  | undefined => .null
  | null => .null
  | bool b => .bool b
  | number x => jsonNumber x
  | string s => .string s
  | array _ items => .array (itemsJson items)
  | object _ members => .object (membersJson members)
  | function _ => .null

def itemsJson : List Value → List Json
  | [] => []
  | item :: items => toJson item :: itemsJson items

def membersJson : List (String × Value) → List (String × Json)
  | [] => []
  | (key, value) :: members =>
    if value.isOmitted then membersJson members
    else (key, toJson value) :: membersJson members

end

/-- Takes a number that no array, object or function has yet. -/
def fresh : StateM Nat Nat := fun next => (next, next + 1)

mutual

/-- The value of a JSON tree, its arrays and objects new ones. -/
def ofJson : Json → StateM Nat Value
  | .null => pure null
  | .bool b => pure (bool b)
  | .integer n => pure (number (Decimal.ofInt n))
  | .number x => pure (number x)
  | .string s => pure (string s)
  | .array items => do
    let items ← ofItems items
    return array (← fresh) items
  | .object members => do
    let members ← ofMembers members
    return object (← fresh) members

def ofItems : List Json → StateM Nat (List Value)
  | [] => pure []
  | item :: items => do
    let item ← ofJson item
    let items ← ofItems items
    return item :: items

def ofMembers : List (String × Json) → StateM Nat Members
  | [] => pure []
  | (key, value) :: members => do
    let value ← ofJson value
    let members ← ofMembers members
    return (key, value) :: members

end

end Value
end Templating
