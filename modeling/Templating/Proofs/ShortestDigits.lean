import Templating.Decimal.Numeral
import Templating.Proofs.Rounding

/-!
The digits found for a double. A point of a decimal grid is found when it rounds to the double, and
a grid of seventeen digits always has such a point; so the digits stand for a number that rounds to
the double.
-/
namespace Templating.Decimal

theorem decimalValue_eq_ofDigitChars (cs : List Char) :
    decimalValue cs = Nat.ofDigitChars 10 cs 0 := by
  simp only [decimalValue, digitsValue, decimalDigitValue, Nat.ofDigitChars_eq_foldl, mul_comm]

theorem decimalValue_append (cs ds : List Char) :
    decimalValue (cs ++ ds) = decimalValue cs * 10 ^ ds.length + decimalValue ds := by
  simp only [decimalValue_eq_ofDigitChars, Nat.ofDigitChars_append]
  rw [Nat.ofDigitChars_eq_ofDigitChars_zero, mul_comm]

@[simp]
theorem decimalValue_zeros (n : Nat) : decimalValue (zeros n) = 0 := by
  simp [decimalValue_eq_ofDigitChars, zeros]

@[simp]
theorem length_zeros (n : Nat) : (zeros n).length = n := List.length_replicate

@[simp]
theorem decimalValue_decimalDigits (n : Nat) : decimalValue (decimalDigits n) = n := by
  rw [decimalValue_eq_ofDigitChars, decimalDigits, Nat.ofDigitChars_ten_toDigits]

theorem isDigit_of_mem_decimalDigits {n : Nat} {c : Char} (h : c ∈ decimalDigits n) :
    c.isDigit = true := Nat.isDigit_of_mem_toDigits (by decide) (by decide) h

theorem pow_length_decimalDigits_le {n : Nat} (h : 0 < n) :
    10 ^ ((decimalDigits n).length - 1) ≤ n := by
  rcases Nat.eq_zero_or_pos ((decimalDigits n).length - 1) with hzero | hpos
  · rw [hzero]
    exact h
  · by_contra hlt
    have := (Nat.length_toDigits_le_iff (by decide : 1 < 10) hpos).mpr (not_le.mp hlt)
    rw [← decimalDigits] at this
    omega

theorem eq_dropTrailingZeros_append (ds : List Char) :
    ∃ k, ds = dropTrailingZeros ds ++ zeros k := by
  have hmem : ∀ c ∈ ds.reverse.takeWhile (· == '0'), c = '0' := fun c hc =>
    beq_iff_eq.mp (List.mem_takeWhile_imp (p := (· == '0')) hc)
  refine ⟨(ds.reverse.takeWhile (· == '0')).length, List.reverse_injective ?_⟩
  rw [dropTrailingZeros, List.reverse_append, List.reverse_reverse, zeros, List.reverse_replicate,
    ← List.eq_replicate_iff.mpr ⟨rfl, hmem⟩, List.takeWhile_append_dropWhile]

/-- The number that a run of digits and the place of its point stand for. -/
def Digits.value (d : Digits) : ℚ := decimalValue d.digits * 10 ^ (d.point - d.digits.length)

/-- Trailing zeros left out count in the place of the point. -/
theorem Digits.value_dropTrailingZeros (ds : List Char) (t : Int) :
    Digits.value ⟨dropTrailingZeros ds, ds.length + t⟩ = decimalValue ds * 10 ^ t := by
  obtain ⟨k, hk⟩ := eq_dropTrailingZeros_append ds
  have hlength : ds.length = (dropTrailingZeros ds).length + k := by
    rw [← length_zeros k, ← List.length_append, ← hk]
  have hvalue : decimalValue ds = decimalValue (dropTrailingZeros ds) * 10 ^ k := by
    conv_lhs => rw [hk, decimalValue_append, decimalValue_zeros, length_zeros, Nat.add_zero]
  have hpoint : (ds.length + t - (dropTrailingZeros ds).length : Int) = k + t := by omega
  rw [Digits.value, hpoint, hvalue, zpow_add₀ (by norm_num), zpow_natCast]
  push_cast
  ring

namespace Binary

variable {b : Binary} {t : Int} {d : Nat}

theorem numerator_div_denominator (b : Binary) :
    (b.numerator : ℚ) / b.denominator = b.mantissa * 2 ^ b.exponent := by
  simp only [numerator, denominator, Nat.pow_eq, Nat.cast_mul, Nat.cast_pow, Nat.cast_ofNat]
  rw [mul_div_assoc, ← zpow_eq_div two_ne_zero]

def gridUnit (b : Binary) (t : Int) : Nat :=
  Nat.pow 2 (b.exponent - 2).toNat * Nat.pow 10 (-t).toNat

def gridStep (b : Binary) (t : Int) : Nat :=
  Nat.pow 10 t.toNat * Nat.pow 2 (2 - b.exponent).toNat

theorem gridUnit_pos (b : Binary) (t : Int) : 0 < b.gridUnit t :=
  Nat.mul_pos (Nat.pow_pos (by decide)) (Nat.pow_pos (by decide))

theorem gridStep_div_gridUnit (b : Binary) (t : Int) :
    (b.gridStep t : ℚ) / b.gridUnit t = 10 ^ t / 2 ^ (b.exponent - 2) := by
  rw [zpow_eq_div (by norm_num : (10 : ℚ) ≠ 0), zpow_eq_div two_ne_zero, div_div_div_eq,
    neg_sub]
  simp only [gridStep, gridUnit, Nat.pow_eq, Nat.cast_mul, Nat.cast_pow, Nat.cast_ofNat]
  rw [mul_comm (10 ^ (-t).toNat : ℚ)]

/-- A point of a grid rounds to a double. -/
theorem takes_grid_iff :
    b.Takes (d * 10 ^ t) ↔
      b.neighbourhood.low * b.gridUnit t ≤ d * b.gridStep t ∧
        d * b.gridStep t ≤ b.neighbourhood.high * b.gridUnit t ∧
        (b.neighbourhood.closed = false →
          b.neighbourhood.low * b.gridUnit t < d * b.gridStep t ∧
            d * b.gridStep t < b.neighbourhood.high * b.gridUnit t) := by
  have hpos : (0 : ℚ) < b.gridUnit t := Nat.cast_pos.mpr (b.gridUnit_pos t)
  have hpoint : (d * 10 ^ t / 2 ^ (b.exponent - 2) : ℚ) = d * b.gridStep t / b.gridUnit t := by
    rw [mul_div_assoc, mul_div_assoc, gridStep_div_gridUnit]
  simp only [Takes, Neighbourhood.Holds, hpoint, le_div_iff₀ hpos, div_le_iff₀ hpos,
    lt_div_iff₀ hpos, div_lt_iff₀ hpos]
  norm_cast

/-- The last point of a grid that is not above a double. -/
def gridBelow (b : Binary) (t : Int) : Nat :=
  b.neighbourhood.value * b.gridUnit t / b.gridStep t

def FitsBelow (b : Binary) (t : Int) : Prop :=
  if b.neighbourhood.closed then
    b.neighbourhood.low * b.gridUnit t ≤ b.gridBelow t * b.gridStep t
  else b.neighbourhood.low * b.gridUnit t < b.gridBelow t * b.gridStep t

def FitsAbove (b : Binary) (t : Int) : Prop :=
  if b.neighbourhood.closed then
    (b.gridBelow t + 1) * b.gridStep t ≤ b.neighbourhood.high * b.gridUnit t
  else (b.gridBelow t + 1) * b.gridStep t < b.neighbourhood.high * b.gridUnit t

instance (b : Binary) (t : Int) : Decidable (b.FitsBelow t) := by
  unfold FitsBelow
  infer_instance

instance (b : Binary) (t : Int) : Decidable (b.FitsAbove t) := by
  unfold FitsAbove
  infer_instance

theorem gridPoint?_eq (tie : Tie) (b : Binary) (t : Int) :
    ∃ takesBelow : Bool, b.gridPoint? tie t =
      if b.FitsBelow t ∧ b.FitsAbove t then
        some (if takesBelow then b.gridBelow t else b.gridBelow t + 1)
      else if b.FitsBelow t then some (b.gridBelow t)
      else if b.FitsAbove t then some (b.gridBelow t + 1)
      else none :=
  ⟨_, rfl⟩

theorem gridPoint?_eq_some {tie : Tie} (h : b.gridPoint? tie t = some d) :
    b.FitsBelow t ∧ d = b.gridBelow t ∨ b.FitsAbove t ∧ d = b.gridBelow t + 1 := by
  obtain ⟨takesBelow, heq⟩ := gridPoint?_eq tie b t
  rw [heq] at h
  split_ifs at h with hboth htakes hbelow habove <;> cases h
  · exact .inl ⟨hboth.1, rfl⟩
  · exact .inr ⟨hboth.2, rfl⟩
  · exact .inl ⟨hbelow, rfl⟩
  · exact .inr ⟨habove, rfl⟩

theorem gridPoint?_eq_none {tie : Tie} (h : b.gridPoint? tie t = none) :
    ¬ b.FitsBelow t ∧ ¬ b.FitsAbove t := by
  obtain ⟨takesBelow, heq⟩ := gridPoint?_eq tie b t
  rw [heq] at h
  split_ifs at h with hboth hbelow habove
  exact ⟨hbelow, habove⟩

theorem gridStep_pos (b : Binary) (t : Int) : 0 < b.gridStep t :=
  Nat.mul_pos (Nat.pow_pos (by decide)) (Nat.pow_pos (by decide))

theorem gridBelow_mul_le (b : Binary) (t : Int) :
    b.gridBelow t * b.gridStep t ≤ b.neighbourhood.value * b.gridUnit t := Nat.div_mul_le_self _ _

theorem lt_gridBelow_succ_mul (b : Binary) (t : Int) :
    b.neighbourhood.value * b.gridUnit t < (b.gridBelow t + 1) * b.gridStep t :=
  Nat.lt_mul_of_div_lt (Nat.lt_succ_self _) (b.gridStep_pos t)

theorem neighbourhood_low_lt (hpos : 0 < b.mantissa) :
    b.neighbourhood.low < b.neighbourhood.value := by
  simp only [neighbourhood]
  split <;> omega

theorem neighbourhood_lt_high (b : Binary) : b.neighbourhood.value < b.neighbourhood.high := by
  simp only [neighbourhood]
  omega

theorem gridPoint?_takes {tie : Tie} (hpos : 0 < b.mantissa) (h : b.gridPoint? tie t = some d) :
    b.Takes (d * 10 ^ t) := by
  have hunit := b.gridUnit_pos t
  have hlow := Nat.mul_lt_mul_of_pos_right (neighbourhood_low_lt hpos) hunit
  have hhigh := Nat.mul_lt_mul_of_pos_right b.neighbourhood_lt_high hunit
  have hbelow := b.gridBelow_mul_le t
  have habove := b.lt_gridBelow_succ_mul t
  rw [takes_grid_iff]
  rcases gridPoint?_eq_some h with ⟨hfits, rfl⟩ | ⟨hfits, rfl⟩
  · rw [FitsBelow] at hfits
    split at hfits
    case isTrue hclosed => exact ⟨hfits, by omega, by simp [hclosed]⟩
    case isFalse => exact ⟨hfits.le, by omega, fun _ => ⟨hfits, by omega⟩⟩
  · rw [FitsAbove] at hfits
    split at hfits
    case isTrue hclosed => exact ⟨by omega, hfits, by simp [hclosed]⟩
    case isFalse => exact ⟨by omega, hfits.le, fun _ => ⟨by omega, hfits⟩⟩

theorem gridPoint?_isSome {tie : Tie}
    (hfine : b.gridStep t < (b.neighbourhood.high - b.neighbourhood.low) * b.gridUnit t) :
    (b.gridPoint? tie t).isSome := by
  by_contra hnone
  obtain ⟨hbelow, habove⟩ := gridPoint?_eq_none (Option.not_isSome_iff_eq_none.mp hnone)
  rw [Nat.sub_mul] at hfine
  rw [FitsBelow] at hbelow
  rw [FitsAbove, Nat.succ_mul] at habove
  split at hbelow <;> split at habove <;> omega

theorem neighbourhood_width (hb : b.Canonical) (hpos : 0 < b.mantissa) :
    4 * (b.mantissa : ℚ) < 10 ^ 16 * (b.neighbourhood.high - b.neighbourhood.low) := by
  have hlt : (b.mantissa : ℚ) < 2 * hiddenBit := by exact_mod_cast hb.mantissa_lt
  have hbit : (hiddenBit : ℚ) = 4503599627370496 := rfl
  rw [neighbourhood_high, neighbourhood_low hpos]
  split_ifs with hleast
  · rw [hleast.1, hbit]
    norm_num
  · linarith

/-- A grid finer than a neighbourhood has a point in it. -/
theorem gridPoint?_isSome_of_lt {tie : Tie} (hpos : 0 < b.mantissa)
    (hfine : (10 : ℚ) ^ t <
      (b.neighbourhood.high - b.neighbourhood.low) * 2 ^ (b.exponent - 2)) :
    (b.gridPoint? tie t).isSome := by
  have hunit : (0 : ℚ) < b.gridUnit t := Nat.cast_pos.mpr (b.gridUnit_pos t)
  have hle := (neighbourhood_low_lt hpos).le.trans b.neighbourhood_lt_high.le
  apply gridPoint?_isSome
  rw [← div_lt_iff₀ (by positivity), ← gridStep_div_gridUnit, div_lt_iff₀ hunit,
    ← Nat.cast_sub hle] at hfine
  exact_mod_cast hfine

end Binary

/-- The digits of a quotient tell a power of ten below it. -/
theorem pow_length_decimalDigits_le_div {num den : Nat} (h : 0 < num / den) :
    (10 : ℚ) ^ ((decimalDigits (num / den)).length - 1 : Int) ≤ num / den := by
  have hlen : 0 < (decimalDigits (num / den)).length := Nat.length_toDigits_pos
  calc (10 : ℚ) ^ ((decimalDigits (num / den)).length - 1 : Int)
      = ((10 ^ ((decimalDigits (num / den)).length - 1) : Nat) : ℚ) := by
        rw [← Nat.cast_pred hlen, zpow_natCast]
        norm_cast
    _ ≤ ((num / den : Nat) : ℚ) := Nat.cast_le.mpr (pow_length_decimalDigits_le h)
    _ ≤ num / den := Nat.cast_div_le

theorem pow_length_sub_le {num den k : Nat} (h : 0 < num * Nat.pow 10 k / den) :
    (10 : ℚ) ^ ((decimalDigits (num * Nat.pow 10 k / den)).length - k - 1 : Int) ≤ num / den := by
  rw [sub_right_comm, zpow_sub₀ (by norm_num), zpow_natCast, div_le_iff₀ (by positivity)]
  calc (10 : ℚ) ^ ((decimalDigits (num * Nat.pow 10 k / den)).length - 1 : Int)
      ≤ (num * Nat.pow 10 k : Nat) / den := pow_length_decimalDigits_le_div h
    _ = num / den * 10 ^ k := by
        rw [Nat.pow_eq]
        push_cast
        ring

theorem pow_decimalPoint_le {num den : Nat} (hden : 0 < den) (h : den ≤ num * Nat.pow 10 400) :
    (10 : ℚ) ^ (decimalPoint num den - 1) ≤ num / den := by
  rw [decimalPoint]
  split_ifs with hle
  · exact pow_length_decimalDigits_le_div (Nat.div_pos hle hden)
  · exact pow_length_sub_le (k := 400) (Nat.div_pos h hden)

/-- Ten is more than three bits long. -/
theorem two_pow_le_ten_pow {m n : Nat} (h : m ≤ 3 * n) : Nat.pow 2 m ≤ Nat.pow 10 n :=
  calc 2 ^ m ≤ 2 ^ (3 * n) := Nat.pow_le_pow_right (by decide) h
    _ = (2 ^ 3) ^ n := Nat.pow_mul 2 3 n
    _ ≤ 10 ^ n := Nat.pow_le_pow_left (by decide) n

namespace Binary

variable {b : Binary}

theorem denominator_pos (b : Binary) : 0 < b.denominator := Nat.pow_pos (by decide)

theorem numerator_pos (hpos : 0 < b.mantissa) : 0 < b.numerator :=
  Nat.mul_pos hpos (Nat.pow_pos (by decide))

theorem denominator_le (hb : b.Canonical) : b.denominator ≤ Nat.pow 10 400 := by
  have := hb.exponent_ge
  simp only [minExponent] at this
  exact two_pow_le_ten_pow (n := 400) (by omega)

theorem exists_gridPoint (tie : Tie) (hb : b.Canonical) (hpos : 0 < b.mantissa) :
    (b.gridPoint? tie (decimalPoint b.numerator b.denominator - 17)).isSome := by
  have hscale : b.denominator ≤ b.numerator * Nat.pow 10 400 :=
    (denominator_le hb).trans (Nat.le_mul_of_pos_left _ (numerator_pos hpos))
  have hpoint := pow_decimalPoint_le b.denominator_pos hscale
  generalize decimalPoint b.numerator b.denominator = point at *
  rw [numerator_div_denominator] at hpoint
  have hunit : (2 : ℚ) ^ b.exponent = 4 * 2 ^ (b.exponent - 2) := by
    rw [zpow_sub₀ two_ne_zero]
    ring
  apply gridPoint?_isSome_of_lt hpos
  calc (10 : ℚ) ^ (point - 17) = 10 ^ (point - 1) / 10 ^ 16 := by
        rw [← zpow_natCast, ← zpow_sub₀ (by norm_num)]
        congr 1
        push_cast
        ring
    _ ≤ b.mantissa * 2 ^ b.exponent / 10 ^ 16 := by gcongr
    _ = 4 * b.mantissa / 10 ^ 16 * 2 ^ (b.exponent - 2) := by
        rw [hunit]
        ring
    _ < (b.neighbourhood.high - b.neighbourhood.low) * 2 ^ (b.exponent - 2) := by
        gcongr
        rw [div_lt_iff₀ (by norm_num)]
        linarith [neighbourhood_width hb hpos]

theorem shortest_eq (tie : Tie) (hb : b.Canonical) (hpos : 0 < b.mantissa) :
    ∃ d t, b.gridPoint? tie t = some d ∧
      b.shortest tie = ⟨dropTrailingZeros (decimalDigits d), (decimalDigits d).length + t⟩ := by
  simp only [shortest, if_neg hpos.ne']
  split
  case h_1 found d t hfound =>
    obtain ⟨n, -, hn⟩ := List.exists_of_findSome?_eq_some hfound
    obtain ⟨point, hpoint, heq⟩ := Option.map_eq_some_iff.mp hn
    cases heq
    exact ⟨d, _, hpoint, rfl⟩
  case h_2 found hfound =>
    have hnone := List.findSome?_eq_none_iff.mp hfound 16 (by decide)
    exact absurd (Option.map_eq_none_iff.mp hnone)
      (Option.isSome_iff_ne_none.mp (exists_gridPoint tie hb hpos))

/-- The digits found for a double round to it. -/
theorem shortest_takes (tie : Tie) (hb : b.Canonical) (hpos : 0 < b.mantissa) :
    b.Takes (b.shortest tie).value := by
  obtain ⟨d, t, hpoint, heq⟩ := shortest_eq tie hb hpos
  rw [heq, Digits.value_dropTrailingZeros, decimalValue_decimalDigits]
  exact gridPoint?_takes hpos hpoint

theorem isDigit_of_mem_shortest (tie : Tie) (hb : b.Canonical) (hpos : 0 < b.mantissa) {c : Char}
    (hc : c ∈ (b.shortest tie).digits) : c.isDigit = true := by
  obtain ⟨d, t, -, heq⟩ := shortest_eq tie hb hpos
  obtain ⟨k, hk⟩ := eq_dropTrailingZeros_append (decimalDigits d)
  refine isDigit_of_mem_decimalDigits (n := d) ?_
  rw [heq] at hc
  rw [hk]
  exact List.mem_append_left _ hc

end Binary

end Templating.Decimal
