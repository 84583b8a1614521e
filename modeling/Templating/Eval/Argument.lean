import Templating.Eval.Error
import Templating.Value.Number

/-!
Arguments of functions and methods.
-/
namespace Templating

/-- The argument at a position, undefined when it is not given. -/
def argument (args : List Value) (i : Nat) : Value := (args[i]?).getD .undefined

/-- The whole number of an argument, within signed words of 64 bits, or a default when it is
undefined. Fractions are cut off and NaN counts as 0. -/
def whole (v : Value) (default : Int) : Int :=
  if v.isUndefined then default
  else Decimal.toIntWithin (-0x8000000000000000) 0x7FFFFFFFFFFFFFFF v.toNumber

/-- A position that counts from the end when it is negative, brought within a length. -/
def relative (index : Int) (length : Nat) : Nat :=
  if index < 0 then (length + index).toNat else min index.toNat length

def sliceBounds (args : List Value) (length : Nat) : Nat × Nat :=
  let start := relative (whole (argument args 0) 0) length
  let stop := relative (whole (argument args 1) length) length
  (start, max stop start)

def itemFrom? {α : Type} (items : List α) (index : Int) : Option α :=
  let index := if index < 0 then index + items.length else index
  if index < 0 then none else items[index.toNat]?

def between {α : Type} (items : List α) (start stop : Nat) : List α :=
  (items.take stop).drop start

def invalidArgument {α : Type} (function reason : String) : Except EvalError α :=
  .error (.invalidArgument function reason)

def callback (args : List Value) (method : String) : Except EvalError Function :=
  match args with
  | .function f :: _ => .ok f
  | other :: _ => invalidArgument method (other.kind ++ " is not a function")
  | [] => invalidArgument method "missing callback"

theorem relative_le (index : Int) (length : Nat) : relative index length ≤ length := by
  unfold relative
  split <;> omega

theorem sliceBounds_le (args : List Value) (length : Nat) :
    (sliceBounds args length).1 ≤ (sliceBounds args length).2 ∧
      (sliceBounds args length).2 ≤ length := by
  have h1 := relative_le (whole (argument args 0) 0) length
  have h2 := relative_le (whole (argument args 1) length) length
  simp only [sliceBounds]
  omega

end Templating
