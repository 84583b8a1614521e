import Templating.Decimal.Shortest
import Templating.Proofs.Doubles

/-!
The rounding of quotients. The double nearest to a quotient is the one whose neighbourhood holds it:
a neighbourhood ends half a unit of the last place away, and the ends belong to the even mantissas.
-/
namespace Templating.Decimal

theorem zpow_eq_div {a : ℚ} (h : a ≠ 0) (e : Int) : a ^ e = a ^ e.toNat / a ^ (-e).toNat := by
  rw [← zpow_natCast_sub_natCast₀ h]
  congr 1
  omega

theorem div_two_zpow_pred (q : ℚ) (e : Int) : q / 2 ^ (e - 1) = 2 * (q / 2 ^ e) := by
  rw [zpow_sub_one₀ two_ne_zero]
  field_simp

/-- Dividing by a power of two leaves a quotient of natural numbers. -/
theorem scaled_div (num den : Nat) (e : Int) :
    ((scaled num den e).1 : ℚ) / (scaled num den e).2 = num / den / 2 ^ e := by
  rw [zpow_eq_div two_ne_zero e, div_div_div_eq]
  simp [scaled]

theorem scaled_snd_pos {den : Nat} (h : 0 < den) (num : Nat) (e : Int) :
    0 < (scaled num den e).2 := Nat.mul_pos h (Nat.pow_pos (by decide))

theorem roundHalfEven_eq_of_two_mul {num den m : Nat} (hden : 0 < den)
    (low : 2 * (den * m) ≤ 2 * num + den) (high : 2 * num ≤ 2 * (den * m) + den)
    (tie : m % 2 = 1 → 2 * (den * m) < 2 * num + den ∧ 2 * num < 2 * (den * m) + den) :
    roundHalfEven num den = m := by
  have hdiv := Nat.div_add_mod num den
  have hmod := Nat.mod_lt num hden
  simp only [roundHalfEven]
  generalize num / den = q at *
  generalize num % den = r at *
  rcases lt_trichotomy q m with hlt | rfl | hgt
  · have hstep : den * (q + 1) ≤ den * m := Nat.mul_le_mul_left den hlt
    rw [Nat.mul_succ] at hstep
    have hnext : m = q + 1 := by
      by_contra hne
      have hstep' : den * (q + 2) ≤ den * m := Nat.mul_le_mul_left den (by omega)
      rw [Nat.mul_add] at hstep'
      omega
    subst hnext
    rw [if_neg]
    omega
  · rw [if_pos]
    omega
  · have hstep : den * (m + 1) ≤ den * q := Nat.mul_le_mul_left den hgt
    rw [Nat.mul_succ] at hstep
    omega

/-- The number next to a quotient is the one at most a half away, the even one of two. -/
theorem roundHalfEven_eq {num den m : Nat} (hden : 0 < den)
    (low : (m : ℚ) - 1 / 2 ≤ num / den) (high : (num : ℚ) / den ≤ m + 1 / 2)
    (tie : m % 2 = 1 → (m : ℚ) - 1 / 2 < num / den ∧ (num : ℚ) / den < m + 1 / 2) :
    roundHalfEven num den = m := by
  have hpos : (0 : ℚ) < den := Nat.cast_pos.mpr hden
  refine roundHalfEven_eq_of_two_mul hden ?_ ?_ fun hodd => ?_
  · rw [le_div_iff₀ hpos] at low
    have : (2 * (den * m) : ℚ) ≤ 2 * num + den := by linarith
    exact_mod_cast this
  · rw [div_le_iff₀ hpos] at high
    have : (2 * num : ℚ) ≤ 2 * (den * m) + den := by linarith
    exact_mod_cast this
  · obtain ⟨hlow, hhigh⟩ := tie hodd
    rw [lt_div_iff₀ hpos] at hlow
    rw [div_lt_iff₀ hpos] at hhigh
    have h : (2 * (den * m) : ℚ) < 2 * num + den := by linarith
    have h' : (2 * num : ℚ) < 2 * (den * m) + den := by linarith
    exact ⟨by exact_mod_cast h, by exact_mod_cast h'⟩

section Exponent

variable {num den : Nat} {e : Int}

/-- The lengths of its parts tell the length of a quotient but for one bit. -/
theorem log2_sub_bounds (hnum : 0 < num) (hden : 0 < den) :
    (2 : ℚ) ^ ((num.log2 : Int) - den.log2 - 1) ≤ num / den ∧
      (num : ℚ) / den < 2 ^ ((num.log2 : Int) - den.log2 + 1) := by
  have hpos : (0 : ℚ) < den := Nat.cast_pos.mpr hden
  have numLow : (2 : ℚ) ^ num.log2 ≤ num := by exact_mod_cast Nat.log2_self_le hnum.ne'
  have numHigh : (num : ℚ) < 2 ^ (num.log2 + 1) := by exact_mod_cast Nat.lt_log2_self
  have denLow : (2 : ℚ) ^ den.log2 ≤ den := by exact_mod_cast Nat.log2_self_le hden.ne'
  have denHigh : (den : ℚ) < 2 ^ (den.log2 + 1) := by exact_mod_cast Nat.lt_log2_self
  constructor
  · calc (2 : ℚ) ^ ((num.log2 : Int) - den.log2 - 1)
        = 2 ^ num.log2 / 2 ^ (den.log2 + 1) := by
          rw [← zpow_natCast_sub_natCast₀ two_ne_zero]
          congr 1
          push_cast
          ring
      _ ≤ num / den := div_le_div₀ (by positivity) numLow hpos denHigh.le
  · calc (num : ℚ) / den < 2 ^ (num.log2 + 1) / den := div_lt_div_of_pos_right numHigh hpos
      _ ≤ 2 ^ (num.log2 + 1) / 2 ^ den.log2 := by gcongr
      _ = 2 ^ ((num.log2 : Int) - den.log2 + 1) := by
          rw [← zpow_natCast_sub_natCast₀ two_ne_zero]
          congr 1
          push_cast
          ring

def leadingExponent (num den : Nat) : Int :=
  let guess : Int := num.log2 - den.log2 - 52
  if (scaled num den guess).1 / (scaled num den guess).2 < hiddenBit then guess - 1 else guess

theorem exponentFor_eq_max (num den : Nat) :
    exponentFor num den = max (leadingExponent num den) minExponent := rfl

theorem hiddenBit_cast : (hiddenBit : ℚ) = 2 ^ (52 : Int) := by
  norm_num [hiddenBit]

theorem scaled_div_lt_hiddenBit (hden : 0 < den) :
    (scaled num den e).1 / (scaled num den e).2 < hiddenBit ↔
      (num : ℚ) / den < hiddenBit * 2 ^ e := by
  rw [Nat.div_lt_iff_lt_mul (scaled_snd_pos hden num e), ← div_lt_iff₀ (by positivity),
    ← scaled_div, div_lt_iff₀ (Nat.cast_pos.mpr (scaled_snd_pos hden num e))]
  exact_mod_cast Iff.rfl

theorem leadingExponent_bounds (hnum : 0 < num) (hden : 0 < den) :
    hiddenBit * 2 ^ leadingExponent num den ≤ (num : ℚ) / den ∧
      (num : ℚ) / den < 2 * hiddenBit * 2 ^ leadingExponent num den := by
  obtain ⟨low, high⟩ := log2_sub_bounds hnum hden
  simp only [leadingExponent]
  set guess : Int := num.log2 - den.log2 - 52 with hguess
  have hlow : hiddenBit * 2 ^ (guess - 1) = (2 : ℚ) ^ ((num.log2 : Int) - den.log2 - 1) := by
    rw [hiddenBit_cast, ← zpow_add₀ two_ne_zero]
    congr 1
    omega
  have hhigh : 2 * hiddenBit * 2 ^ guess = (2 : ℚ) ^ ((num.log2 : Int) - den.log2 + 1) := by
    rw [hiddenBit_cast, mul_assoc, ← zpow_add₀ two_ne_zero, ← zpow_one_add₀ two_ne_zero]
    congr 1
    omega
  split_ifs with hshort
  · rw [scaled_div_lt_hiddenBit hden] at hshort
    refine ⟨hlow ▸ low, ?_⟩
    calc (num : ℚ) / den < hiddenBit * 2 ^ guess := hshort
      _ = 2 * hiddenBit * 2 ^ (guess - 1) := by
        rw [zpow_sub_one₀ two_ne_zero]
        ring
  · rw [scaled_div_lt_hiddenBit hden] at hshort
    exact ⟨not_lt.mp hshort, hhigh ▸ high⟩

theorem exponentFor_eq (hnum : 0 < num) (hden : 0 < den) (hmin : minExponent ≤ e)
    (low : minExponent < e → hiddenBit * 2 ^ e ≤ (num : ℚ) / den)
    (high : (num : ℚ) / den < 2 * hiddenBit * 2 ^ e) : exponentFor num den = e := by
  obtain ⟨leadLow, leadHigh⟩ := leadingExponent_bounds hnum hden
  have hpos : (0 : ℚ) < hiddenBit := by norm_num [hiddenBit]
  have hlt {a b : Int} (h : (hiddenBit : ℚ) * 2 ^ a < 2 * hiddenBit * 2 ^ b) : a ≤ b := by
    have h' : (2 : ℚ) ^ a < 2 ^ (b + 1) := by
      rw [zpow_add_one₀ two_ne_zero]
      nlinarith
    exact Int.lt_add_one_iff.mp ((zpow_lt_zpow_iff_right₀ one_lt_two).mp h')
  have hle : leadingExponent num den ≤ e := hlt (leadLow.trans_lt high)
  rw [exponentFor_eq_max]
  rcases hmin.lt_or_eq with hgt | heq
  · have hge : e ≤ leadingExponent num den := hlt ((low hgt).trans_lt leadHigh)
    omega
  · omega

end Exponent

def Neighbourhood.Holds (hood : Neighbourhood) (x : ℚ) : Prop :=
  hood.low ≤ x ∧ x ≤ hood.high ∧ (hood.closed = false → hood.low < x ∧ x < hood.high)

def Binary.Takes (b : Binary) (q : ℚ) : Prop := b.neighbourhood.Holds (q / 2 ^ (b.exponent - 2))

namespace Binary

variable {b : Binary} {num den : Nat} {q : ℚ}

theorem takes_iff : b.Takes q ↔ b.neighbourhood.Holds (4 * (q / 2 ^ b.exponent)) := by
  rw [Takes, zpow_sub₀ two_ne_zero]
  norm_num
  rw [div_div_eq_mul_div, mul_comm q, mul_div_assoc]

end Binary

theorem Binary.Canonical.magnitude_lt {b : Binary} (hb : b.Canonical) :
    b.magnitude < topExponent * hiddenBit := by
  have := hb.exponent_le
  have := hb.mantissa_lt
  simp only [Binary.magnitude, topExponent, hiddenBit] at *
  omega

theorem nearest_of_exponentFor {b : Binary} (hb : b.Canonical) {num den : Nat} (hnum : 0 < num)
    {e : Int} {m : Nat} (hexp : exponentFor num den = e)
    (hm : roundHalfEven (scaled num den e).1 (scaled num den e).2 = m)
    (heq : (e - minExponent).toNat * hiddenBit + m = b.magnitude) :
    nearest b.negative num den = Float.ofBits (UInt64.ofNat b.bits) := by
  simp only [nearest, if_neg hnum.ne', hexp, hm, heq, min_eq_left hb.magnitude_lt.le]
  rfl

namespace Binary

variable {b : Binary} {q : ℚ}

theorem neighbourhood_low (hpos : 0 < b.mantissa) :
    (b.neighbourhood.low : ℚ) =
      4 * b.mantissa - if b.mantissa = hiddenBit ∧ minExponent < b.exponent then 1 else 2 := by
  simp only [neighbourhood]
  rw [Nat.cast_sub (by split_ifs <;> omega)]
  push_cast
  rfl

theorem neighbourhood_low_ge (hpos : 0 < b.mantissa) :
    (4 * b.mantissa - 2 : ℚ) ≤ b.neighbourhood.low := by
  rw [neighbourhood_low hpos]
  split_ifs <;> linarith

theorem neighbourhood_high : (b.neighbourhood.high : ℚ) = 4 * b.mantissa + 2 := by
  simp [neighbourhood]

namespace Takes

theorem ge (h : b.Takes q) (hpos : 0 < b.mantissa) : b.mantissa - 1 / 2 ≤ q / 2 ^ b.exponent := by
  have := (takes_iff.mp h).1
  linarith [neighbourhood_low_ge hpos]

theorem le (h : b.Takes q) : q / 2 ^ b.exponent ≤ b.mantissa + 1 / 2 := by
  have := (takes_iff.mp h).2.1
  rw [neighbourhood_high] at this
  linarith

theorem inside (h : b.Takes q) (hpos : 0 < b.mantissa) (hodd : b.mantissa % 2 = 1) :
    b.mantissa - 1 / 2 < q / 2 ^ b.exponent ∧ q / 2 ^ b.exponent < b.mantissa + 1 / 2 := by
  obtain ⟨low, high⟩ := (takes_iff.mp h).2.2 (by simp [neighbourhood, hodd])
  rw [neighbourhood_high] at high
  constructor <;> linarith [neighbourhood_low_ge hpos]

/-- Below a mantissa that is the leading bit alone the doubles lie twice as close. -/
theorem ge_of_least (h : b.Takes q) (hm : b.mantissa = hiddenBit) (he : minExponent < b.exponent) :
    hiddenBit - 1 / 4 ≤ q / 2 ^ b.exponent := by
  have := (takes_iff.mp h).1
  rw [neighbourhood_low (by rw [hm]; decide), if_pos ⟨hm, he⟩, hm] at this
  linarith

theorem pos (h : b.Takes q) (hpos : 0 < b.mantissa) : 0 < q := by
  have hone : (1 : ℚ) ≤ b.mantissa := by exact_mod_cast hpos
  have := h.ge hpos
  by_contra hle
  have : q / 2 ^ b.exponent ≤ 0 := div_nonpos_of_nonpos_of_nonneg (not_lt.mp hle) (by positivity)
  linarith

variable {num den : Nat}

/-- The mantissa that rounding finds at the exponent of the double. -/
theorem roundHalfEven_eq_mantissa (h : b.Takes (num / den)) (hpos : 0 < b.mantissa)
    (hden : 0 < den) :
    roundHalfEven (scaled num den b.exponent).1 (scaled num den b.exponent).2 = b.mantissa := by
  refine roundHalfEven_eq (scaled_snd_pos hden num _) ?_ ?_ fun hodd => ?_
  · exact scaled_div num den _ ▸ h.ge hpos
  · exact scaled_div num den _ ▸ h.le
  · exact scaled_div num den _ ▸ h.inside hpos hodd

theorem exponentFor_eq (h : b.Takes (num / den)) (hb : b.Canonical) (hnum : 0 < num)
    (hden : 0 < den)
    (hreach : minExponent < b.exponent → (hiddenBit : ℚ) ≤ num / den / 2 ^ b.exponent) :
    exponentFor num den = b.exponent := by
  have hunit : (0 : ℚ) < 2 ^ b.exponent := by positivity
  have hmantissa : (b.mantissa : ℚ) + 1 ≤ 2 * hiddenBit := by exact_mod_cast hb.mantissa_lt
  refine Decimal.exponentFor_eq hnum hden hb.exponent_ge (fun he => ?_) ?_
  · exact (le_div_iff₀ hunit).mp (hreach he)
  · rw [← div_lt_iff₀ hunit]
    linarith [h.le]

/-- When a quotient rounds up to the exponent of a double, the mantissa is the leading bit alone. -/
theorem mantissa_eq_of_lt (h : b.Takes (num / den)) (hb : b.Canonical) (hpos : 0 < b.mantissa)
    (he : minExponent < b.exponent) (hlt : (num : ℚ) / den / 2 ^ b.exponent < hiddenBit) :
    b.mantissa = hiddenBit := by
  refine le_antisymm ?_ (hb.leading he)
  by_contra hgt
  have : (hiddenBit : ℚ) + 1 ≤ b.mantissa := by exact_mod_cast not_le.mp hgt
  linarith [h.ge hpos]

theorem roundHalfEven_eq_double (h : b.Takes (num / den)) (hm : b.mantissa = hiddenBit)
    (he : minExponent < b.exponent) (hden : 0 < den)
    (hlt : (num : ℚ) / den / 2 ^ b.exponent < hiddenBit) :
    roundHalfEven (scaled num den (b.exponent - 1)).1 (scaled num den (b.exponent - 1)).2 =
      2 * hiddenBit := by
  have hge := h.ge_of_least hm he
  have hcast : ((2 * hiddenBit : Nat) : ℚ) = 2 * hiddenBit := Nat.cast_mul _ _
  refine roundHalfEven_eq (scaled_snd_pos hden num _) ?_ ?_ fun hodd => ?_
  · rw [scaled_div, div_two_zpow_pred, hcast]
    linarith
  · rw [scaled_div, div_two_zpow_pred, hcast]
    linarith
  · omega

theorem exponentFor_eq_pred (h : b.Takes (num / den)) (hm : b.mantissa = hiddenBit)
    (he : minExponent < b.exponent) (hnum : 0 < num) (hden : 0 < den)
    (hlt : (num : ℚ) / den / 2 ^ b.exponent < hiddenBit) :
    exponentFor num den = b.exponent - 1 := by
  have hunit : (0 : ℚ) < 2 ^ (b.exponent - 1) := by positivity
  have hbit : (1 : ℚ) ≤ hiddenBit := by norm_num [hiddenBit]
  have hge := h.ge_of_least hm he
  refine Decimal.exponentFor_eq hnum hden (by omega) (fun _ => ?_) ?_
  · rw [← le_div_iff₀ hunit, div_two_zpow_pred]
    linarith
  · rw [← div_lt_iff₀ hunit, div_two_zpow_pred]
    linarith

end Takes
end Binary

/-- Rounding gives the double whose neighbourhood holds the quotient. -/
theorem nearest_of_takes {b : Binary} (hb : b.Canonical) (hpos : 0 < b.mantissa) {num den : Nat}
    (hden : 0 < den) (h : b.Takes (num / den)) :
    nearest b.negative num den = Float.ofBits (UInt64.ofNat b.bits) := by
  have hnum : 0 < num := by
    rcases Nat.eq_zero_or_pos num with rfl | hnum
    · simpa using h.pos hpos
    · exact hnum
  by_cases hreach : minExponent < b.exponent → (hiddenBit : ℚ) ≤ num / den / 2 ^ b.exponent
  · exact nearest_of_exponentFor hb hnum (h.exponentFor_eq hb hnum hden hreach)
      (h.roundHalfEven_eq_mantissa hpos hden) rfl
  · push Not at hreach
    obtain ⟨he, hbelow⟩ := hreach
    have hm := h.mantissa_eq_of_lt hb hpos he hbelow
    refine nearest_of_exponentFor hb hnum (h.exponentFor_eq_pred hm he hnum hden hbelow)
      (h.roundHalfEven_eq_double hm he hden hbelow) ?_
    simp only [Binary.magnitude, hm, hiddenBit]
    omega

end Templating.Decimal
