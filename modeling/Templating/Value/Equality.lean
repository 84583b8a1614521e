import Templating.Value.Text
import Templating.Value.Number

/-!
Equality of values: strict (by identity for arrays, objects and functions), loose (after
conversion), and by content.
-/
namespace Templating

def Function.same : Function → Function → Bool
  | .builtin f, .builtin g => f == g
  | .host i _, .host j _ => i == j
  | .closure i _ _ _, .closure j _ _ _ => i == j
  | _, _ => false

namespace Value

def strictEq : Value → Value → Bool
  | undefined, undefined => true
  | null, null => true
  | bool a, bool b => a == b
  | number x, number y => x == y
  | string s, string t => s == t
  | array i _, array j _ => i == j
  | object i _, object j _ => i == j
  | function f, function g => f.same g
  | _, _ => false

/-- The number of a truth value, and every other value as it is. -/
def unbool : Value → Value
  | bool b => number (if b then 1 else 0)
  | v => v

/-- The text of an array, an object or a function, and every other value as it is. -/
def primitive : Value → Value
  | array i items => string (array i items).toText
  | object i members => string (object i members).toText
  | function f => string (function f).toText
  | v => v

/-- Equality of values none of which is a truth value or nullish. -/
def convertedEq (a b : Value) : Bool :=
  match a, b with
  | number x, string _ => x == b.toNumber
  | string _, number y => a.toNumber == y
  | number x, array _ _ => x == b.primitive.toNumber
  | number x, object _ _ => x == b.primitive.toNumber
  | number x, function _ => x == b.primitive.toNumber
  | array _ _, number y => a.primitive.toNumber == y
  | object _ _, number y => a.primitive.toNumber == y
  | function _, number y => a.primitive.toNumber == y
  | string s, array _ _ => s == b.toText
  | string s, object _ _ => s == b.toText
  | string s, function _ => s == b.toText
  | array _ _, string t => a.toText == t
  | object _ _, string t => a.toText == t
  | function _, string t => a.toText == t
  | _, _ => strictEq a b

/-- Null and undefined equal each other and nothing else; truth values count as numbers, numbers are
compared with numbers of texts, and texts with texts. -/
def looseEq (a b : Value) : Bool :=
  if a.isNullish || b.isNullish then a.isNullish && b.isNullish
  else convertedEq a.unbool b.unbool

mutual

/-- Equality of content. The order of members does not matter; functions are equal only to
themselves. -/
def contentEq : Value → Value → Bool
  | undefined, undefined => true
  | null, null => true
  | bool a, bool b => a == b
  | number x, number y => x == y
  | string s, string t => s == t
  | array _ items, array _ others => itemsEq items others
  | object _ members, object _ others =>
    members.length == others.length && membersEq members others
  | function f, function g => f.same g
  | _, _ => false

def itemsEq : List Value → List Value → Bool
  | [], [] => true
  | item :: items, other :: others => contentEq item other && itemsEq items others
  | _, _ => false

def membersEq : List (String × Value) → Members → Bool
  | [], _ => true
  | (key, value) :: members, others =>
    (match others.lookup key with
      | some other => contentEq value other
      | none => false)
    && membersEq members others

end

end Value
end Templating
