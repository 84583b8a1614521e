import Templating.Expr

/-!
Values of templates. Arrays, objects and functions carry a number that tells apart two of equal
content: copies of a value share it, and whatever makes a new value takes a number that is not in
use.
-/
namespace Templating

inductive Builtin where
  | floor | ceil | round | abs | sqrt | trunc | pow | min | max
  | keys | values | entries
  | stringify | isArray
  | toText | toNumber | toBool
  | parseInt | parseFloat | isNaN | encodeComponent
  deriving DecidableEq, Repr, Inhabited

mutual

inductive Value where
  | undefined
  | null
  | bool (b : Bool)
  | number (x : Float)
  | string (s : String)
  | array (id : Nat) (items : List Value)
  | object (id : Nat) (members : List (String × Value))
  | function (f : Function)

/-- A function of the host is known by its name; a closure holds the names that were bound where its
literal was evaluated, the latest first. -/
inductive Function where
  | builtin (f : Builtin)
  | host (id : Nat) (name : String)
  | closure (id : Nat) (params : List String) (body : Body) (env : List (String × Value))

end

/-- The names bound at some place, the latest first. -/
abbrev Env := List (String × Value)

/-- The members of an object in the order in which their keys were first set. -/
abbrev Members := List (String × Value)

instance : Inhabited Value := ⟨.undefined⟩

namespace Value

def isUndefined : Value → Bool
  | undefined => true
  | _ => false

def isNullish : Value → Bool
  | undefined | null => true
  | _ => false

def isTruthy : Value → Bool
  | undefined | null => false
  | bool b => b
  | number x => x != 0 && !x.isNaN
  | string s => !s.isEmpty
  | array _ _ | object _ _ | function _ => true

/-- The name that `typeof` gives. -/
def kind : Value → String
  | undefined => "undefined"
  | null | array _ _ | object _ _ => "object"
  | bool _ => "boolean"
  | number _ => "number"
  | string _ => "string"
  | function _ => "function"

def string? : Value → Option String
  | string s => some s
  | _ => none

def number? : Value → Option Float
  | number x => some x
  | _ => none

def bool? : Value → Option Bool
  | bool b => some b
  | _ => none

def array? : Value → Option (List Value)
  | array _ items => some items
  | _ => none

def object? : Value → Option Members
  | object _ members => some members
  | _ => none

/-- A value that is no object has no members. -/
def members (v : Value) : Members := v.object?.getD []

def get (v : Value) (key : String) : Value := (v.members.lookup key).getD undefined

def char (c : Char) : Value := string (String.singleton c)

def nat (n : Nat) : Value := number (Float.ofNat n)

end Value

/-- Sets a member, at its place when the key is there already and at the end otherwise. -/
def Members.set (members : Members) (key : String) (value : Value) : Members :=
  match members with
  | [] => [(key, value)]
  | (k, v) :: rest => if k = key then (key, value) :: rest else (k, v) :: Members.set rest key value

def Members.setAll (members : Members) (more : List (String × Value)) : Members :=
  more.foldl (fun ms m => ms.set m.1 m.2) members

def Env.bind (env : Env) (name : String) (value : Value) : Env := Members.set env name value

theorem Members.lookup_set (members : Members) (key other : String) (value : Value) :
    (members.set key value).lookup other =
      if other = key then some value else members.lookup other := by
  induction members with
  | nil =>
    by_cases h : other = key
    · simp [Members.set, h]
    · simp [Members.set, List.lookup_cons, beq_false_of_ne h, h]
  | cons m ms ih =>
    obtain ⟨k, v⟩ := m
    by_cases hk : k = key
    · subst hk
      by_cases h : other = k
      · simp [Members.set, h]
      · simp [Members.set, List.lookup_cons, beq_false_of_ne h, h]
    · by_cases h : other = k
      · subst h
        simp [Members.set, hk]
      · simp [Members.set, List.lookup_cons, beq_false_of_ne h, hk, ih]

theorem Members.lookup_setAll (members more : Members) (name : String) :
    (members.setAll more).lookup name = (more.reverse.lookup name).or (members.lookup name) := by
  induction more generalizing members with
  | nil => rfl
  | cons m more ih =>
    obtain ⟨key, value⟩ := m
    change ((members.set key value).setAll more).lookup name = _
    rw [ih, Members.lookup_set, List.reverse_cons, List.lookup_append, Option.or_assoc]
    by_cases heq : name = key
    · simp [heq]
    · simp [List.lookup_cons, beq_false_of_ne heq, heq]

end Templating
