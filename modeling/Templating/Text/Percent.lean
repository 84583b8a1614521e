import Templating.Text.Utf8

/-!
Percent encoding of a component of an address: bytes of UTF-8 outside the unreserved ASCII
characters become a percent sign and two upper-case hexadecimal digits.
-/
namespace Templating.Text

def isUnreserved (c : Char) : Bool := c.isAlphanum || "-_.!~*\x27()".toList.contains c

def upperHexDigit (n : Nat) : Char :=
  if n < 10 then Char.ofNat (n + 0x30) else Char.ofNat (n + 0x37)

def percentByte (b : Nat) : List Char :=
  if b < 128 && isUnreserved (Char.ofNat b) then [Char.ofNat b]
  else ['%', upperHexDigit (b / 16), upperHexDigit (b % 16)]

def percentEncode (cs : List Char) : List Char := (utf8Bytes cs).flatMap percentByte

theorem percentEncode_append (cs ds : List Char) :
    percentEncode (cs ++ ds) = percentEncode cs ++ percentEncode ds := by
  simp [percentEncode, utf8Bytes]

end Templating.Text
