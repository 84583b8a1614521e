/-!
Natural numbers in the digits of a base from 2 to 36, letters following the nine.
-/
namespace Templating.Decimal

def digitChar (n : Nat) : Char := if n < 10 then Char.ofNat (0x30 + n) else Char.ofNat (0x57 + n)

/-- Digits of a base below two are those of base two. -/
def radixDigits (base n : Nat) : List Char :=
  if _h : n < max base 2 then [digitChar n]
  else radixDigits base (n / max base 2) ++ [digitChar (n % max base 2)]
termination_by n
decreasing_by exact Nat.div_lt_self (by omega) (by omega)

theorem radixDigits_ne_nil (base n : Nat) : radixDigits base n ≠ [] := by
  rw [radixDigits]
  split <;> simp

end Templating.Decimal
