import Templating.Decimal.Shortest

/-!
Decimals with a given number of places, rounded from the exact value of a double; a tie goes to the
even digit.
-/
namespace Templating.Decimal

/-- `n` units of the last of `places` places. -/
def placed (places n : Nat) : List Char :=
  if places = 0 then decimalDigits n
  else
    let fraction := decimalDigits (n % Nat.pow 10 places)
    decimalDigits (n / Nat.pow 10 places) ++ '.' :: zeros (places - fraction.length) ++ fraction

def Binary.fixed (places : Nat) (b : Binary) : List Char :=
  let units := roundHalfEven (b.numerator * Nat.pow 10 places) b.denominator
  let magnitude := placed places units
  if b.negative then '-' :: magnitude else magnitude

end Templating.Decimal
