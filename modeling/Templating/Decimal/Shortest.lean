import Templating.Decimal.Double

/-!
The fewest decimal digits that still name a double: the first grid of 1, 2, … 17 digits that has a
point among the numbers rounding to the double gives them. Of two such points the nearer is taken;
which of two equally near ones is for the format to say, and so are the places where an exponent is
written.
-/
namespace Templating.Decimal

/-- The number `0.d₁d₂… * 10 ^ point`; the last digit is not zero, and zero has no digits. -/
structure Digits where
  digits : List Char
  point : Int
  deriving DecidableEq, Repr

/-- Which of two equally near decimals is taken. -/
inductive Tie where
  | upward
  | toEven
  deriving DecidableEq, Repr

def decimalDigits (n : Nat) : List Char := Nat.toDigits 10 n

/-- The count of digits before the decimal point of `num / den`, negative for zeros after it. -/
def decimalPoint (num den : Nat) : Int :=
  if den ≤ num then (decimalDigits (num / den)).length
  else (decimalDigits (num * Nat.pow 10 400 / den)).length - 400

/-- The numbers that round to a double, in units of a quarter of its last place: the double, the
ends below and above it, and whether the ends belong to them. -/
structure Neighbourhood where
  value : Nat
  low : Nat
  high : Nat
  closed : Bool

def Binary.neighbourhood (b : Binary) : Neighbourhood where
  value := 4 * b.mantissa
  low := 4 * b.mantissa - if b.mantissa = hiddenBit ∧ minExponent < b.exponent then 1 else 2
  high := 4 * b.mantissa + 2
  closed := b.mantissa % 2 == 0

/-- The multiple of `10 ^ t` that is to stand for `b`, when one rounds to it. -/
def Binary.gridPoint? (tie : Tie) (b : Binary) (t : Int) : Option Nat :=
  let hood := b.neighbourhood
  let unit := Nat.pow 2 (b.exponent - 2).toNat * Nat.pow 10 (-t).toNat
  let step := Nat.pow 10 t.toNat * Nat.pow 2 (2 - b.exponent).toNat
  let value := hood.value * unit
  let below := value / step
  let fitsBelow :=
    if hood.closed then hood.low * unit ≤ below * step else hood.low * unit < below * step
  let fitsAbove :=
    if hood.closed then (below + 1) * step ≤ hood.high * unit
    else (below + 1) * step < hood.high * unit
  let excess := value - below * step
  let shortfall := (below + 1) * step - value
  if fitsBelow ∧ fitsAbove then
    let takesBelow :=
      decide (excess < shortfall) || (excess == shortfall && tie == .toEven && below % 2 == 0)
    some (if takesBelow then below else below + 1)
  else if fitsBelow then some below
  else if fitsAbove then some (below + 1)
  else none

def dropTrailingZeros (ds : List Char) : List Char := (ds.reverse.dropWhile (· == '0')).reverse

def Binary.shortest (tie : Tie) (b : Binary) : Digits :=
  if b.mantissa = 0 then ⟨[], 0⟩
  else
    let point := decimalPoint b.numerator b.denominator
    let found := (List.range 17).findSome? fun (n : Nat) =>
      let t := point - (n + 1)
      (b.gridPoint? tie t).map fun d => (d, t)
    match found with
    | some (d, t) =>
      let ds := decimalDigits d
      ⟨dropTrailingZeros ds, ds.length + t⟩
    | none => ⟨[], 0⟩

def zeros (n : Nat) : List Char := List.replicate n '0'

/-- All digits, without an exponent: `0.001`, `12.5`, `1200`. -/
def Digits.positional (d : Digits) : List Char :=
  if d.point ≤ 0 then '0' :: '.' :: zeros (-d.point).toNat ++ d.digits
  else if d.digits.length ≤ d.point then d.digits ++ zeros (d.point - d.digits.length).toNat
  else d.digits.take d.point.toNat ++ '.' :: d.digits.drop d.point.toNat

/-- One digit before the point and a power of ten: `1e21`, `1.5e-7`. A mark may stand before
exponents that are not negative. -/
def Digits.scientific (d : Digits) (plus : List Char := []) : List Char :=
  let power := d.point - 1
  let exponent := 'e' :: (if power < 0 then [] else plus) ++ (toString power).toList
  match d.digits with
  | [] => '0' :: exponent
  | [first] => first :: exponent
  | first :: rest => first :: '.' :: rest ++ exponent

end Templating.Decimal
