import Templating.Decimal.Shortest

/-!
The text of a number in a template: never an exponent, no sign on zero, and integers below `10 ^ 21`
with all their digits.
-/
namespace Templating.Decimal

def Binary.plain (b : Binary) : List Char :=
  if b.mantissa = 0 then ['0']
  else
    let magnitude :=
      if b.isIntegral ∧ b.numerator / b.denominator < Nat.pow 10 21 then
        decimalDigits (b.numerator / b.denominator)
      else (b.shortest .upward).positional
    if b.negative then '-' :: magnitude else magnitude

def plain (x : Float) : String :=
  match Binary.ofFloat? x with
  | some b => String.ofList b.plain
  | none => if x > 0 then "Infinity" else if x < 0 then "-Infinity" else "NaN"

end Templating.Decimal
