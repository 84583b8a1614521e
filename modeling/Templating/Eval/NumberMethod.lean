import Templating.Eval.Argument
import Templating.Decimal.Fixed
import Templating.Decimal.Plain
import Templating.Decimal.Radix

/-!
Methods of numbers.
-/
namespace Templating
open Decimal

namespace NumberMethod

/-- A power by repeated squaring, each product rounded. -/
def powerFrom (result base : Float) (n : Nat) : Float :=
  if h : n = 0 then result
  else powerFrom (if n % 2 = 1 then result * base else result) (base * base) (n / 2)
termination_by n
decreasing_by omega

def powerOfTen (n : Nat) : Float := powerFrom 1 10 n

def fixedText (places : Nat) (x : Float) : String :=
  match Binary.ofFloat? x with
  | some b => String.ofList (b.fixed places)
  | none => plain x

/-- The number with the given count of decimal places, halves rounded away from zero. Numbers that
reach `10 ^ 21` when scaled are not rounded first. -/
def toFixed (places : Nat) (x : Float) : String :=
  if x.isNaN || x.isInf then plain x
  else
    let factor := powerOfTen places
    let shifted := x.abs * factor
    if shifted ≥ 1e21 then fixedText places x
    else
      let rounded := (shifted + 0.5).floor / factor
      let digits := fixedText places rounded
      if x < 0 && rounded != 0 then "-" ++ digits else digits

/-- Integers below `9 * 10 ^ 15` in the digits of a radix; all other numbers are written in base
ten. -/
def toRadix (radix : Nat) (x : Float) : String :=
  match Binary.ofFloat? x with
  | some b =>
    let magnitude := b.numerator / b.denominator
    if radix = 10 ∨ !b.isIntegral ∨ 9000000000000000 ≤ magnitude then plain x
    else
      let digits := radixDigits radix magnitude
      String.ofList (if b.negative && magnitude != 0 then '-' :: digits else digits)
  | none => plain x

def run (x : Float) (name : String) (args : List Value) : Except EvalError (Option Value) :=
  match name with
  | "toFixed" =>
    let places := whole (argument args 0) 0
    if places < 0 ∨ 100 < places then invalidArgument name "digits must be between 0 and 100"
    else .ok (some (.string (toFixed places.toNat x)))
  | "toString" =>
    let radix := whole (argument args 0) 10
    if radix < 2 ∨ 36 < radix then invalidArgument name "radix must be between 2 and 36"
    else .ok (some (.string (toRadix radix.toNat x)))
  | "valueOf" => .ok (some (.number x))
  | _ => .ok none

end NumberMethod
end Templating
