/-!
Doubles as exact numbers: a finite double is a sign, a mantissa and a power of two, and every
quotient of natural numbers has a nearest double, a tie going to the even mantissa.
-/
namespace Templating.Decimal

/-- The number `mantissa * 2 ^ exponent`, negated when `negative`. -/
structure Binary where
  negative : Bool
  mantissa : Nat
  exponent : Int
  deriving DecidableEq, Repr

def minExponent : Int := -1074

/-- The weight of the leading bit of a normal mantissa, which the bits of a double leave out. -/
def hiddenBit : Nat := 0x10000000000000

def signBit : Nat := 0x8000000000000000

/-- The biased exponent of infinities and NaNs. -/
def topExponent : Nat := 2047

/-- There is none for an infinity or a NaN. -/
def Binary.ofFloat? (x : Float) : Option Binary :=
  let bits := x.toBits.toNat
  let negative := bits / signBit == 1
  let biased : Nat := bits / hiddenBit % (topExponent + 1)
  let fraction := bits % hiddenBit
  if biased = topExponent then none
  else if biased = 0 then some ⟨negative, fraction, minExponent⟩
  else some ⟨negative, fraction + hiddenBit, (biased : Int) + minExponent - 1⟩

def Binary.numerator (b : Binary) : Nat := b.mantissa * Nat.pow 2 b.exponent.toNat

def Binary.denominator (b : Binary) : Nat := Nat.pow 2 (-b.exponent).toNat

def roundHalfEven (num den : Nat) : Nat :=
  let q := num / den
  let r := num % den
  if 2 * r < den ∨ 2 * r = den ∧ q % 2 = 0 then q else q + 1

/-- `num / den` divided by `2 ^ e`, as a numerator and a denominator. -/
def scaled (num den : Nat) (e : Int) : Nat × Nat :=
  (num * Nat.pow 2 (-e).toNat, den * Nat.pow 2 e.toNat)

/-- The exponent at which the mantissa of `num / den` has all its digits, or the smallest one. -/
def exponentFor (num den : Nat) : Int :=
  let guess : Int := num.log2 - den.log2 - 52
  let (n, d) := scaled num den guess
  max (if n / d < hiddenBit then guess - 1 else guess) minExponent

/-- The double nearest to `num / den`: infinite when its mantissa would need an exponent too large.
-/
def nearest (negative : Bool) (num den : Nat) : Float :=
  let magnitude :=
    if num = 0 then 0
    else
      let e := exponentFor num den
      let (n, d) := scaled num den e
      min ((e - minExponent).toNat * hiddenBit + roundHalfEven n d) (topExponent * hiddenBit)
  Float.ofBits (UInt64.ofNat (magnitude + if negative then signBit else 0))

def Binary.toFloat (b : Binary) : Float := nearest b.negative b.numerator b.denominator

def nan : Float := 0.0 / 0.0

def infinity : Float := 1.0 / 0.0

def ofInt (n : Int) : Float := nearest (decide (n < 0)) n.natAbs 1

def Binary.truncate (b : Binary) : Int :=
  let n : Int := b.numerator / b.denominator
  if b.negative then -n else n

def Binary.isIntegral (b : Binary) : Bool := b.numerator % b.denominator == 0

/-- The integer of `x` within `low` and `high`: fractions are cut off, an infinity is the bound on
its side and a NaN is 0. -/
def toIntWithin (low high : Int) (x : Float) : Int :=
  match Binary.ofFloat? x with
  | some b => max low (min high b.truncate)
  | none => if x > 0 then high else if x < 0 then low else 0

/-- What is left of `x` after whole multiples of `y` are taken away; it has the sign of `x`. -/
def remainder (x y : Float) : Float :=
  match Binary.ofFloat? x, Binary.ofFloat? y with
  | some a, some b =>
    if b.mantissa = 0 then nan
    else
      let e := min a.exponent b.exponent
      let m := a.mantissa * Nat.pow 2 (a.exponent - e).toNat
      let n := b.mantissa * Nat.pow 2 (b.exponent - e).toNat
      Binary.toFloat ⟨a.negative, m % n, e⟩
  | some _, none => if y.isNaN then nan else x
  | none, _ => nan

theorem toIntWithin_mem {low high : Int} (h : low ≤ 0 ∧ 0 ≤ high) (x : Float) :
    low ≤ toIntWithin low high x ∧ toIntWithin low high x ≤ high := by
  unfold toIntWithin
  split
  · omega
  · split
    · omega
    · split <;> omega

end Templating.Decimal
