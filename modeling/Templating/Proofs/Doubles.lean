import Mathlib
import Templating.Decimal.Double

/-!
Doubles and their bits. A finite double is known by its sign, its mantissa and its exponent, of
which only the canonical ones occur; besides there are two infinities and one NaN. Equality of
doubles tells apart no zeros and holds of no NaN.
-/
namespace Templating.Decimal
open Float.Model Float.Model.UnpackedFloat

abbrev Word := BitVec Format.binary64.numBits

theorem toNat_unpackExponent (b : Word) :
    (unpackExponent b).toNat = b.toNat / hiddenBit % (topExponent + 1) := by
  simp [unpackExponent, hiddenBit, topExponent, Nat.shiftRight_eq_div_pow]

theorem toNat_unpackMantissa (b : Word) : (unpackMantissa b).toNat = b.toNat % hiddenBit := by
  simp [unpackMantissa, hiddenBit]

/-- A double is known by its bits. -/
theorem ofBits_eq_of_toNat {x : Float} {n : Nat} (h : x.toBits.toNat = n) :
    Float.ofBits (UInt64.ofNat n) = x := by
  rw [← h, UInt64.ofNat_toNat, Float.ofBits_toBits]

/-- NaNs have only one pattern of bits. -/
theorem toNat_of_not_a_number {b : Word} (valid : Format.binary64.Valid b)
    (top : b.toNat / hiddenBit % (topExponent + 1) = topExponent)
    (nonzero : b.toNat % hiddenBit ≠ 0) : b.toNat = 0x7FF8000000000000 := by
  have hexp : unpackExponent b = -1#_ := by
    rw [← BitVec.toNat_inj, toNat_unpackExponent]
    exact top
  have hmant : unpackMantissa b ≠ 0#_ := by
    rw [ne_eq, ← BitVec.toNat_inj, toNat_unpackMantissa]
    simpa using nonzero
  exact congrArg BitVec.toNat (valid.eq_packedNaN hexp hmant)

theorem ofFloat?_eq_none {x : Float} (h : Binary.ofFloat? x = none) :
    x = infinity ∨ x = -infinity ∨ x = nan := by
  have hlt : x.toBits.toNat < 2 ^ 64 := x.toBits.toNat_lt
  have top : x.toBits.toNat / hiddenBit % (topExponent + 1) = topExponent := by
    by_contra htop
    simp only [Binary.ofFloat?, if_neg htop] at h
    split at h <;> cases h
  by_cases nonzero : x.toBits.toNat % hiddenBit = 0
  · have hbits : x.toBits.toNat = 0x7FF0000000000000 ∨ x.toBits.toNat = 0xFFF0000000000000 := by
      simp only [hiddenBit, topExponent] at *
      omega
    rcases hbits with hbits | hbits
    · left
      rw [← ofBits_eq_of_toNat hbits]
      decide
    · right; left
      rw [← ofBits_eq_of_toNat hbits]
      decide
  · right; right
    rw [← ofBits_eq_of_toNat (toNat_of_not_a_number x.toModel.valid top nonzero)]
    decide

/-- What a sign, a mantissa and an exponent have to be to be those of a double. -/
structure Binary.Canonical (b : Binary) : Prop where
  exponent_ge : minExponent ≤ b.exponent
  exponent_le : b.exponent ≤ minExponent + 2045
  mantissa_lt : b.mantissa < 2 * hiddenBit
  leading : minExponent < b.exponent → hiddenBit ≤ b.mantissa

/-- The bits of a double less the sign. Numbers of two neighbouring exponents lie next to each
other here: the leading bit of the mantissa counts one in the exponent. -/
def Binary.magnitude (b : Binary) : Nat :=
  (b.exponent - minExponent).toNat * hiddenBit + b.mantissa

def Binary.bits (b : Binary) : Nat := b.magnitude + if b.negative then signBit else 0

theorem ofFloat?_eq_some {x : Float} {b : Binary} (h : Binary.ofFloat? x = some b) :
    b.Canonical ∧ x.toBits.toNat = b.bits := by
  have hlt : x.toBits.toNat < 2 ^ 64 := x.toBits.toNat_lt
  simp only [Binary.ofFloat?] at h
  split_ifs at h with htop hzero <;> cases h <;> refine ⟨⟨?_, ?_, ?_, ?_⟩, ?_⟩ <;>
    simp only [Binary.bits, Binary.magnitude, hiddenBit, signBit, topExponent, minExponent,
      beq_iff_eq] at * <;>
    (try split) <;> omega

theorem isFinite_eq_isSome (x : Float) : x.isFinite = (Binary.ofFloat? x).isSome := by
  cases h : Binary.ofFloat? x with
  | none =>
    rcases ofFloat?_eq_none h with rfl | rfl | rfl
    · decide
    · decide
    · decide
  | some b =>
    have hexp : @unpackExponent Format.binary64 x.toBits.toBitVec ≠ -1#_ := by
      intro htop
      have hbits : x.toBits.toNat / hiddenBit % (topExponent + 1) = topExponent := by
        change x.toBits.toBitVec.toNat / hiddenBit % (topExponent + 1) = topExponent
        rw [← toNat_unpackExponent, htop]
        rfl
      simp [Binary.ofFloat?, hbits] at h
    change (UnpackedFloat.unpack Format.binary64 x.toBits.toBitVec).isFinite = true
    rw [UnpackedFloat.unpack]
    simp only [if_neg hexp]
    split_ifs
    · rfl
    · rfl
    · rfl

/-- There are two zeros. -/
theorem eq_zero_of_mantissa {x : Float} {b : Binary} (h : Binary.ofFloat? x = some b)
    (hzero : b.mantissa = 0) : x = 0 ∨ x = -0 := by
  obtain ⟨hcanonical, hbits⟩ := ofFloat?_eq_some h
  have hmin : b.exponent = minExponent := by
    have := hcanonical.exponent_ge
    have := hcanonical.leading
    have : 0 < hiddenBit := by decide
    omega
  rw [Binary.bits, Binary.magnitude, hmin, hzero] at hbits
  rw [← ofBits_eq_of_toNat hbits]
  cases b.negative
  · decide
  · decide

theorem Binary.truncate_eq_zero {b : Binary} (h : b.mantissa = 0) : b.truncate = 0 := by
  simp [Binary.truncate, Binary.numerator, h]

/-- One number, whichever zero it is, or both of them none. -/
def sameNumber (x y : Float) : Bool := x == y || x.isNaN && y.isNaN

theorem sameNumber_self (x : Float) : sameNumber x x = true := by
  rw [sameNumber, Bool.and_self, Bool.or_eq_true, Float.beq_self_iff,
    Float.isNaN_eq_decide_eq_nan, decide_eq_true_eq]
  exact (em _).symm

/-- Equal doubles are equal to the same doubles. -/
theorem beq_congr_left {x y : Float} (h : (x == y) = true) (z : Float) :
    (x == z) = (y == z) := by
  have hzeros : (0 : Float) ≠ -0 := by decide
  rw [Bool.eq_iff_iff, Float.beq_iff_ne_nan_and_eq, Float.beq_iff_ne_nan_and_eq]
  obtain ⟨hx, hy, rfl | ⟨rfl, rfl⟩ | ⟨rfl, rfl⟩⟩ := Float.beq_iff_ne_nan_and_eq.mp h
  · rfl
  all_goals simp [hx, hy, hzeros, hzeros.symm, or_comm, eq_comm]

theorem beq_eq_false_of_isNaN {x : Float} (h : x.isNaN = true) (y : Float) :
    (x == y) = false := by
  rw [Float.isNaN_eq_decide_eq_nan, decide_eq_true_eq] at h
  rw [h, Float.nan_beq_eq_false]

/-- Doubles are one number when no double tells them apart. -/
theorem sameNumber_iff {x y : Float} :
    sameNumber x y = true ↔ ∀ z : Float, (x == z) = (y == z) := by
  constructor
  · intro h z
    rw [sameNumber, Bool.or_eq_true, Bool.and_eq_true] at h
    rcases h with h | ⟨hx, hy⟩
    · exact beq_congr_left h z
    · rw [beq_eq_false_of_isNaN hx, beq_eq_false_of_isNaN hy]
  · intro h
    have hself := sameNumber_self
    simp only [sameNumber, Bool.or_eq_true, Bool.and_self, Bool.and_eq_true] at hself ⊢
    rcases hself y with hy | hy
    · exact .inl ((h y).trans hy)
    · rcases hself x with hx | hx
      · rw [h x, beq_eq_false_of_isNaN hy] at hx
        cases hx
      · exact .inr ⟨hx, hy⟩

end Templating.Decimal
