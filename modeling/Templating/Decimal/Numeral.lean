import Templating.Decimal.Double

/-!
Decimal numerals: a sign, digits with an optional point, and an optional power of ten. Either side
of the point may be empty, not both. A numeral denotes the double nearest to it.
-/
namespace Templating.Decimal

/-- The number `coefficient * 10 ^ exponent`, negated when `negative`. -/
structure Numeral where
  negative : Bool
  coefficient : Nat
  exponent : Int
  deriving DecidableEq, Repr

def digitsValue (base : Nat) (value : Char → Nat) (cs : List Char) : Nat :=
  cs.foldl (fun n c => n * base + value c) 0

def decimalDigitValue (c : Char) : Nat := c.toNat - '0'.toNat

def decimalValue (cs : List Char) : Nat := digitsValue 10 decimalDigitValue cs

def splitSign : List Char → Bool × List Char
  | '-' :: cs => (true, cs)
  | '+' :: cs => (false, cs)
  | cs => (false, cs)

/-- The power of ten that ends a numeral, 0 when the text has ended before it. -/
def readExponent? : List Char → Option Int
  | [] => some 0
  | c :: cs =>
    if c = 'e' ∨ c = 'E' then
      let (negative, ds) := splitSign cs
      if ds.isEmpty || !ds.all Char.isDigit then none
      else some (if negative then -(decimalValue ds : Int) else decimalValue ds)
    else none

def Numeral.read? (cs : List Char) : Option Numeral :=
  let (negative, cs) := splitSign cs
  let whole := cs.takeWhile Char.isDigit
  let rest := cs.dropWhile Char.isDigit
  let (fraction, rest) := match rest with
    | '.' :: cs => (cs.takeWhile Char.isDigit, cs.dropWhile Char.isDigit)
    | _ => ([], rest)
  if whole.isEmpty && fraction.isEmpty then none
  else (readExponent? rest).map fun e =>
    ⟨negative, decimalValue (whole ++ fraction), e - fraction.length⟩

/-- Beyond these powers of ten the result is infinite or zero whatever the digits. -/
def exponentLimit : Int := 400

def Numeral.toFloat (n : Numeral) : Float :=
  if n.coefficient = 0 ∨ n.exponent < -exponentLimit - (n.coefficient.log2 : Int) then
    nearest n.negative 0 1
  else if exponentLimit < n.exponent then nearest n.negative (Nat.pow 10 400) 1
  else
    nearest n.negative (n.coefficient * Nat.pow 10 n.exponent.toNat)
      (Nat.pow 10 (-n.exponent).toNat)

def readFloat? (cs : List Char) : Option Float := (Numeral.read? cs).map Numeral.toFloat

def digitValue? (base : Nat) (c : Char) : Option Nat :=
  let n :=
    if c.isDigit then c.toNat - '0'.toNat
    else if c.isLower then c.toNat - 'a'.toNat + 10
    else if c.isUpper then c.toNat - 'A'.toNat + 10
    else base
  if n < base then some n else none

def isHexDigit (c : Char) : Bool := (digitValue? 16 c).isSome

/-- An unsigned number of at most 64 bits in the given base, with an optional plus sign. -/
def readNat? (base : Nat) (cs : List Char) : Option Nat :=
  let ds := match cs with
    | '+' :: ds => ds
    | _ => cs
  if ds.isEmpty || !ds.all (fun c => (digitValue? base c).isSome) then none
  else
    let n := digitsValue base (fun c => (digitValue? base c).getD 0) ds
    if n ≤ 0xFFFFFFFFFFFFFFFF then some n else none

def readHex? (cs : List Char) : Option Nat := readNat? 16 cs

def readIndex? (cs : List Char) : Option Nat := readNat? 10 cs

end Templating.Decimal
