import Templating.Eval.Argument
import Templating.Proofs.JsonValues

/-!
Whole numbers as doubles. Below `2 ^ 53` every whole number is a double, sums and products that stay
below are exact, and cutting off the fraction gives the number back.
-/
namespace Templating.Decimal
open Float.Model Float.Model.UnpackedFloat

variable {n k : Nat}

theorem log2_mul_two_pow (hpos : 0 < n) (k : Nat) : (n * 2 ^ k).log2 = n.log2 + k := by
  have hne : n * 2 ^ k ≠ 0 := (Nat.mul_pos hpos (Nat.two_pow_pos k)).ne'
  have hlow : 2 ^ n.log2 ≤ n := Nat.log2_self_le hpos.ne'
  have hhigh : n < 2 ^ (n.log2 + 1) := Nat.lt_log2_self
  rw [Nat.log2_eq_iff hne, pow_add, Nat.add_right_comm, pow_add]
  exact ⟨Nat.mul_le_mul_right _ hlow, Nat.mul_lt_mul_of_pos_right hhigh (Nat.two_pow_pos k)⟩

theorem log2_le_of_lt (h : n < 2 ^ 53) : n.log2 ≤ 52 := by
  rcases Nat.eq_zero_or_pos n with rfl | hpos
  · decide
  · exact Nat.le_of_lt_succ ((Nat.log2_lt hpos.ne').mpr h)

def spareBits (n : Nat) : Nat := 52 - n.log2

theorem spareBits_cast (h : n < 2 ^ 53) : -(spareBits n : Int) = n.log2 - 52 := by
  have hlog := log2_le_of_lt h
  rw [spareBits]
  omega

def wholeUnpacked (s : Sign) (n : Nat) (h : 0 < n) : UnpackedFloat :=
  .finite s (n * 2 ^ spareBits n) (-spareBits n) (Nat.mul_pos h (Nat.two_pow_pos _))

theorem shiftRight_exact (m j : Nat) :
    ExtendedMantissa.ofMantissaAndAccuracy (m * 2 ^ j) .exact >>> j =
      ExtendedMantissa.ofMantissaAndAccuracy m .exact := by
  change Nat.repeat ExtendedMantissa.shiftRightOne j _ = _
  induction j generalizing m with
  | zero => simp [Nat.repeat]
  | succ j ih =>
    have hpow : m * 2 ^ (j + 1) = m * 2 * 2 ^ j := by ring
    rw [Nat.repeat, hpow, ih]
    simp [ExtendedMantissa.shiftRightOne, ExtendedMantissa.ofMantissaAndAccuracy]

theorem targetExponent_whole (hpos : 0 < n) (hlt : n < 2 ^ 53) (k : Nat) :
    Format.binary64.targetExponent (totalExponent (n * 2 ^ k) (-k)) = -spareBits n := by
  rw [totalExponent, log2_mul_two_pow hpos, Format.targetExponent, spareBits_cast hlt]
  simp only [Format.minExponent, Format.mantissaBits]
  omega

/-- A mantissa with more bits than it needs loses none that count. -/
theorem shift_whole (hpos : 0 < n) (hlt : n < 2 ^ 53) (hk : spareBits n ≤ k) :
    shiftToTargetExponent .binary64 (n * 2 ^ k) (-k) .exact =
      (ExtendedMantissa.ofMantissaAndAccuracy (n * 2 ^ spareBits n) .exact,
        -(spareBits n : Int)) := by
  have hshift : (-(spareBits n : Int) - -k).toNat = k - spareBits n := by omega
  have hsplit : n * 2 ^ k = n * 2 ^ spareBits n * 2 ^ (k - spareBits n) := by
    rw [mul_assoc, ← pow_add, Nat.add_sub_cancel' hk]
  have hexponent : -(k : Int) + (k - spareBits n : Nat) = -spareBits n := by omega
  simp only [shiftToTargetExponent, targetExponent_whole hpos hlt, shiftToExponent, hshift,
    hexponent]
  rw [hsplit, shiftRight_exact]

theorem roundWithAccuracy_whole (s : Sign) (hpos : 0 < n) (hlt : n < 2 ^ 53)
    (hk : spareBits n ≤ k) :
    roundWithAccuracy .binary64 s (n * 2 ^ k) (-k) .exact = wholeUnpacked s n hpos := by
  have hne : n * 2 ^ spareBits n ≠ 0 := (Nat.mul_pos hpos (Nat.two_pow_pos _)).ne'
  have hrounded (m : Nat) :
      (ExtendedMantissa.ofMantissaAndAccuracy m .exact).roundedMantissa = m := rfl
  simp only [roundWithAccuracy, shift_whole hpos hlt hk, hrounded,
    shift_whole hpos hlt (le_refl (spareBits n))]
  exact dif_neg hne

theorem round_whole (s : Sign) (hpos : 0 < n) (hlt : n < 2 ^ 53) (k : Nat) :
    UnpackedFloat.round .binary64 s (n * 2 ^ k) (-k) = wholeUnpacked s n hpos := by
  -- a mantissa with too few bits is first filled up from below
  have hshift : (-(k : Int) - -spareBits n).toNat = spareBits n - k := by omega
  have hexponent : -(k : Int) - (spareBits n - k : Nat) = -(max k (spareBits n) : Nat) := by omega
  have hmax : k + (spareBits n - k) = max k (spareBits n) := by omega
  have hmantissa : n * 2 ^ k * 2 ^ (spareBits n - k) = n * 2 ^ max k (spareBits n) := by
    rw [mul_assoc, ← pow_add, hmax]
  simp only [UnpackedFloat.round, targetExponent_whole hpos hlt, decreaseExponent, hshift,
    Nat.shiftLeft_eq, hmantissa, hexponent]
  exact roundWithAccuracy_whole s hpos hlt (le_max_right _ _)

theorem mantissa_bounds (hpos : 0 < n) (hlt : n < 2 ^ 53) :
    2 ^ 52 ≤ n * 2 ^ spareBits n ∧ n * 2 ^ spareBits n < 2 ^ 53 := by
  have hne : n * 2 ^ spareBits n ≠ 0 := (Nat.mul_pos hpos (Nat.two_pow_pos _)).ne'
  have hlog := log2_le_of_lt hlt
  have hfull : (n * 2 ^ spareBits n).log2 = 52 := by
    rw [log2_mul_two_pow hpos, spareBits]
    omega
  exact (Nat.log2_eq_iff hne).mp hfull

theorem toNat_one_append {m : Nat} (hlow : 2 ^ 52 ≤ m) (hhigh : m < 2 ^ 53) :
    (1#1 ++ BitVec.ofNat 52 m).toNat = m := by
  have hor := Nat.two_pow_add_eq_or_of_lt (Nat.mod_lt m (Nat.two_pow_pos 52)) 1
  rw [BitVec.toNat_append, BitVec.toNat_ofNat, BitVec.toNat_ofNat, Nat.shiftLeft_eq]
  norm_num at hor ⊢
  omega

theorem pack_whole (s : Sign) (hpos : 0 < n) (hlt : n < 2 ^ 53) :
    UnpackedFloat.pack .binary64 (wholeUnpacked s n hpos) =
      packComponents .binary64 s (BitVec.ofNat 11 (n.log2 + 1023))
        (BitVec.ofNat 52 (n * 2 ^ spareBits n)) := by
  have hlog := log2_le_of_lt hlt
  have hfull : (n * 2 ^ spareBits n).log2 + 1 = Format.binary64.mantissaBits := by
    have hbits : Format.binary64.mantissaBits = 53 := rfl
    rw [log2_mul_two_pow hpos, spareBits, hbits]
    omega
  have hbiased : (-(spareBits n : Int) + Format.binary64.exponentBias +
      Format.binary64.mantissaBitsWithoutImplicit).toNat = n.log2 + 1023 := by
    have hbias : Format.binary64.exponentBias = 1023 := rfl
    have hbits : Format.binary64.mantissaBitsWithoutImplicit = 52 := rfl
    rw [spareBits_cast hlt, hbias, hbits]
    omega
  have hfits : ¬2 ^ Format.binary64.exponentBits ≤ n.log2 + 1023 + 1 := by
    norm_num
    omega
  simp only [wholeUnpacked, UnpackedFloat.pack, hbiased]
  rw [if_neg hfits, if_pos hfull]

theorem unpack_pack_whole (s : Sign) (hpos : 0 < n) (hlt : n < 2 ^ 53) :
    UnpackedFloat.unpack .binary64 (UnpackedFloat.pack .binary64 (wholeUnpacked s n hpos)) =
      wholeUnpacked s n hpos := by
  obtain ⟨hlow, hhigh⟩ := mantissa_bounds hpos hlt
  have hlog := log2_le_of_lt hlt
  have hexponent : (BitVec.ofNat 11 (n.log2 + 1023)).toNat = n.log2 + 1023 :=
    Nat.mod_eq_of_lt (by omega)
  have htop : BitVec.ofNat 11 (n.log2 + 1023) ≠ -1#11 := by
    rw [ne_eq, ← BitVec.toNat_inj, hexponent]
    simp
    omega
  have hzero : BitVec.ofNat 11 (n.log2 + 1023) ≠ 0#11 := by
    rw [ne_eq, ← BitVec.toNat_inj, hexponent]
    simp
  rw [pack_whole s hpos hlt, UnpackedFloat.unpack]
  simp only [unpackExponent_packComponents, unpackMantissa_packComponents,
    unpackSign_packComponents, Sign.ofBitVec_toBitVec, hexponent, if_neg htop, if_neg hzero,
    toNat_one_append hlow hhigh]
  have hbias : Format.binary64.exponentBias = 1023 := rfl
  have hfull : ((n.log2 + 1023 : Nat) : Int) - (Format.binary64.exponentBias + (52 : Nat)) =
      -spareBits n := by
    rw [spareBits_cast hlt, hbias]
    omega
  simp only [wholeUnpacked, hfull]

def exactly (s : Sign) (n : Nat) (h : 0 < n) : Float := ⟨Float.Model.pack (wholeUnpacked s n h)⟩

section

variable {a b : Nat}

theorem unpack_exactly (s : Sign) (hpos : 0 < n) (hlt : n < 2 ^ 53) :
    (exactly s n hpos).toModel.unpack = wholeUnpacked s n hpos :=
  unpack_pack_whole s hpos hlt

theorem spareBits_mul_le (ha : 0 < a) (hb : 0 < b) (hlt : a * b < 2 ^ 53) :
    spareBits (a * b) ≤ spareBits a + spareBits b := by
  have hproduct : 2 ^ (a.log2 + b.log2) ≤ a * b := by
    rw [pow_add]
    exact Nat.mul_le_mul (Nat.log2_self_le ha.ne') (Nat.log2_self_le hb.ne')
  have hlog : a.log2 + b.log2 ≤ (a * b).log2 :=
    (Nat.le_log2 (Nat.mul_pos ha hb).ne').mpr hproduct
  have hbound := log2_le_of_lt hlt
  simp only [spareBits]
  omega

theorem exactly_mul (s t : Sign) (ha : 0 < a) (hb : 0 < b) (hlt : a * b < 2 ^ 53) :
    exactly s a ha * exactly t b hb = exactly (s * t) (a * b) (Nat.mul_pos ha hb) := by
  have hla : a < 2 ^ 53 := (Nat.le_mul_of_pos_right a hb).trans_lt hlt
  have hlb : b < 2 ^ 53 := (Nat.le_mul_of_pos_left b ha).trans_lt hlt
  have hmantissa : a * 2 ^ spareBits a * (b * 2 ^ spareBits b) =
      a * b * 2 ^ (spareBits a + spareBits b) := by ring
  have hexponent : -(spareBits a : Int) + -spareBits b = -(spareBits a + spareBits b : Nat) := by
    push_cast
    ring
  change (⟨Float.Model.pack (UnpackedFloat.mul _ (exactly s a ha).toModel.unpack
    (exactly t b hb).toModel.unpack)⟩ : Float) = _
  rw [unpack_exactly s ha hla, unpack_exactly t hb hlb, wholeUnpacked, wholeUnpacked,
    UnpackedFloat.mul, hmantissa, hexponent,
    roundWithAccuracy_whole (s * t) (Nat.mul_pos ha hb) hlt (spareBits_mul_le ha hb hlt)]
  rfl

theorem decreaseExponent_whole (n : Nat) {k : Nat} (h : spareBits n ≤ k) :
    decreaseExponent (n * 2 ^ spareBits n) (-spareBits n) (-k) = (n * 2 ^ k, -(k : Int)) := by
  have hshift : (-(spareBits n : Int) - -k).toNat = k - spareBits n := by omega
  have hmantissa : n * 2 ^ spareBits n * 2 ^ (k - spareBits n) = n * 2 ^ k := by
    rw [mul_assoc, ← pow_add, Nat.add_sub_cancel' h]
  have hexponent : -(spareBits n : Int) - (k - spareBits n : Nat) = -k := by omega
  simp only [decreaseExponent, hshift, Nat.shiftLeft_eq, hmantissa, hexponent]

theorem normalize_whole (hpos : 0 < n) (hlt : n < 2 ^ 53) (k : Nat) :
    UnpackedFloat.normalize .binary64 (n * 2 ^ k : Nat) (-k) .positive =
      wholeUnpacked .positive n hpos := by
  have hmantissa : 0 < ((n * 2 ^ k : Nat) : Int) :=
    Int.natCast_pos.mpr (Nat.mul_pos hpos (Nat.two_pow_pos k))
  rw [UnpackedFloat.normalize, Int.compare_eq_gt.mpr hmantissa]
  exact round_whole .positive hpos hlt k

theorem exactly_add (ha : 0 < a) (hb : 0 < b) (hlt : a + b < 2 ^ 53) :
    exactly .positive a ha + exactly .positive b hb =
      exactly .positive (a + b) (Nat.add_pos_left ha b) := by
  have hla : a < 2 ^ 53 := by omega
  have hlb : b < 2 ^ 53 := by omega
  have hleast : min (-(spareBits a : Int)) (-spareBits b) =
      -(max (spareBits a) (spareBits b) : Nat) := by
    omega
  have hsum (k : Nat) :
      ((a * 2 ^ k : Nat) : Int) + (b * 2 ^ k : Nat) = ((a + b) * 2 ^ k : Nat) := by
    push_cast
    ring
  change (⟨Float.Model.pack (UnpackedFloat.add _ (exactly .positive a ha).toModel.unpack
    (exactly .positive b hb).toModel.unpack)⟩ : Float) = _
  rw [unpack_exactly .positive ha hla, unpack_exactly .positive hb hlb]
  simp only [wholeUnpacked, UnpackedFloat.add, hleast,
    decreaseExponent_whole a (le_max_left _ (spareBits b)),
    decreaseExponent_whole b (le_max_right (spareBits a) _), Sign.apply, hsum,
    normalize_whole (Nat.add_pos_left ha b) hlt]
  rfl

theorem neg_exactly (hpos : 0 < n) (hlt : n < 2 ^ 53) :
    -exactly .positive n hpos = exactly .negative n hpos := by
  change (⟨Float.Model.pack (UnpackedFloat.neg (exactly .positive n hpos).toModel.unpack)⟩ :
    Float) = _
  rw [unpack_exactly .positive hpos hlt]
  rfl

theorem toFloat_eq_exactly (hpos : 0 < n) (hlt : n < 2 ^ 53) :
    n.toUInt64.toFloat = exactly .positive n hpos := by
  have hword : n.toUInt64.toNat = n := by
    rw [Nat.toUInt64_eq, UInt64.toNat_ofNat']
    omega
  have hnormal := normalize_whole hpos hlt 0
  simp only [pow_zero, mul_one, Nat.cast_zero, neg_zero] at hnormal
  change (⟨Float.Model.pack (UnpackedFloat.normalize _ (n.toUInt64.toNat : Int) 0 .positive)⟩ :
    Float) = _
  rw [hword, hnormal]
  rfl

theorem ofNat_eq_exactly (hpos : 0 < n) (hlt : n < 2 ^ 53) :
    Float.ofNat n = exactly .positive n hpos := by
  have hone : Float.exactlyRepresentablePowersOfTen[0] = exactly .positive 1 one_pos := by decide
  have hproduct : Float.ofNat n = n.toUInt64.toFloat * Float.exactlyRepresentablePowersOfTen[0] :=
    dif_pos ⟨hlt, Nat.zero_le 22⟩
  rw [hproduct, hone, toFloat_eq_exactly hpos hlt,
    exactly_mul .positive .positive hpos one_pos (by omega)]
  simp only [mul_one]
  rfl

end

theorem toNat_unpackSign (b : Word) : (unpackSign b).toNat = b.toNat / signBit := by
  have hlt : b.toNat < 2 ^ 64 := b.isLt
  simp [unpackSign, signBit, Nat.shiftRight_eq_div_pow]
  omega

theorem ofFloat?_exactly (s : Sign) (hpos : 0 < n) (hlt : n < 2 ^ 53) :
    Binary.ofFloat? (exactly s n hpos) =
      some ⟨s == .negative, n * 2 ^ spareBits n, -spareBits n⟩ := by
  obtain ⟨hlow, hhigh⟩ := mantissa_bounds hpos hlt
  have hlog := log2_le_of_lt hlt
  have hbits : (exactly s n hpos).toBits.toNat =
      (packComponents .binary64 s (BitVec.ofNat 11 (n.log2 + 1023))
        (BitVec.ofNat 52 (n * 2 ^ spareBits n))).toNat :=
    congrArg BitVec.toNat (pack_whole s hpos hlt)
  have hbiased : (exactly s n hpos).toBits.toNat / hiddenBit % (topExponent + 1) =
      n.log2 + 1023 := by
    rw [hbits, ← toNat_unpackExponent, unpackExponent_packComponents]
    exact Nat.mod_eq_of_lt (by omega)
  have hfraction : (exactly s n hpos).toBits.toNat % hiddenBit =
      n * 2 ^ spareBits n - hiddenBit := by
    rw [hbits, ← toNat_unpackMantissa, unpackMantissa_packComponents, BitVec.toNat_ofNat]
    simp only [hiddenBit]
    omega
  have hsign : ((exactly s n hpos).toBits.toNat / signBit == 1) = (s == .negative) := by
    rw [hbits, ← toNat_unpackSign, unpackSign_packComponents]
    cases s <;> rfl
  have htop : n.log2 + 1023 ≠ topExponent := by
    rw [topExponent]
    omega
  have hmantissa : n * 2 ^ spareBits n - hiddenBit + hiddenBit = n * 2 ^ spareBits n :=
    Nat.sub_add_cancel hlow
  have hexponent : ((n.log2 + 1023 : Nat) : Int) + minExponent - 1 = -spareBits n := by
    rw [spareBits_cast hlt, minExponent]
    omega
  simp only [Binary.ofFloat?, hbiased, hfraction, hsign, if_neg htop,
    if_neg (Nat.succ_ne_zero (n.log2 + 1022)), hmantissa, hexponent]

structure IsWhole (x : Float) (i : Int) : Prop where
  exact : ∃ b, Binary.ofFloat? x = some b ∧ b.isIntegral = true ∧ b.truncate = i

theorem isWhole_exactly (s : Sign) (hpos : 0 < n) (hlt : n < 2 ^ 53) :
    IsWhole (exactly s n hpos) (s.apply n) := by
  have hnumerator (negative : Bool) :
      (⟨negative, n * 2 ^ spareBits n, -spareBits n⟩ : Binary).numerator = n * 2 ^ spareBits n := by
    simp [Binary.numerator]
  have hdenominator (negative : Bool) :
      (⟨negative, n * 2 ^ spareBits n, -spareBits n⟩ : Binary).denominator = 2 ^ spareBits n := by
    simp [Binary.denominator]
  refine ⟨_, ofFloat?_exactly s hpos hlt, ?_, ?_⟩
  · rw [Binary.isIntegral, hnumerator, hdenominator, Nat.mul_mod_left]
    rfl
  · have hquotient : ((n * 2 ^ spareBits n : Nat) : Int) / (2 ^ spareBits n : Nat) = n := by
      rw [← Int.natCast_ediv, Nat.mul_div_cancel n (Nat.two_pow_pos _)]
    rw [Binary.truncate, hnumerator, hdenominator, hquotient]
    cases s with
    | positive => rfl
    | negative => rfl

theorem isIntegral_of_mantissa {b : Binary} (h : b.mantissa = 0) : b.isIntegral = true := by
  simp [Binary.isIntegral, Binary.numerator, h]

theorem Binary.mantissa_eq_zero_iff {b : Binary} (h : b.isIntegral = true) :
    b.mantissa = 0 ↔ b.numerator / b.denominator = 0 := by
  constructor
  · intro hzero
    rw [← natAbs_truncate, truncate_eq_zero hzero]
    rfl
  · intro hquotient
    have hremainder : b.numerator % b.denominator = 0 := beq_iff_eq.mp h
    by_contra hne
    refine (numerator_pos (Nat.pos_of_ne_zero hne)).ne' ?_
    rw [← Nat.div_add_mod b.numerator b.denominator, hquotient, hremainder, Nat.mul_zero]

theorem isWhole_zero : IsWhole 0 0 :=
  ⟨⟨false, 0, minExponent⟩, by decide, isIntegral_of_mantissa rfl, Binary.truncate_eq_zero rfl⟩

namespace IsWhole

variable {x y : Float} {i j : Int}

theorem eq_zero (h : IsWhole x 0) : x = 0 ∨ x = -0 := by
  obtain ⟨b, hb, hintegral, htruncate⟩ := h
  have hquotient : b.numerator / b.denominator = 0 := by
    rw [← b.natAbs_truncate, htruncate]
    rfl
  exact eq_zero_of_mantissa hb ((Binary.mantissa_eq_zero_iff hintegral).mpr hquotient)

theorem ofInt_eq (h : IsWhole x i) (hne : i ≠ 0) : ofInt i = x := by
  obtain ⟨b, hb, hintegral, rfl⟩ := h
  rw [ofInt_truncate hb hintegral, if_neg]
  exact fun hzero => hne (Binary.truncate_eq_zero hzero)

theorem beq_self (h : IsWhole x i) : (x == x) = true := by
  obtain ⟨b, hb, -⟩ := h
  rw [Float.beq_self_iff]
  rintro rfl
  have hnan : Binary.ofFloat? Float.nan = none := by decide
  rw [hnan] at hb
  cases hb

/-- A whole number is in at most two doubles, and these are equal. -/
theorem beq (h : IsWhole x i) (h' : IsWhole y i) : (x == y) = true := by
  rcases eq_or_ne i 0 with rfl | hne
  · rcases h.eq_zero with rfl | rfl <;> rcases h'.eq_zero with rfl | rfl <;> decide
  · rw [← h'.ofInt_eq hne, h.ofInt_eq hne]
    exact h.beq_self

end IsWhole

theorem ofInt_natCast (hlt : n < 2 ^ 53) : ofInt n = Float.ofNat n := by
  rcases Nat.eq_zero_or_pos n with rfl | hpos
  · decide
  · rw [ofNat_eq_exactly hpos hlt]
    exact (isWhole_exactly .positive hpos hlt).ofInt_eq (Int.natCast_ne_zero.mpr hpos.ne')

theorem ofInt_neg_natCast (hpos : 0 < n) (hlt : n < 2 ^ 53) : ofInt (-n) = -Float.ofNat n := by
  rw [ofNat_eq_exactly hpos hlt, neg_exactly hpos hlt]
  exact (isWhole_exactly .negative hpos hlt).ofInt_eq
    (neg_ne_zero.mpr (Int.natCast_ne_zero.mpr hpos.ne'))

theorem ofInt_eq_signed {i : Int} (h : i.natAbs < 2 ^ 53) :
    ofInt i = if i < 0 then -Float.ofNat i.natAbs else Float.ofNat i.natAbs := by
  split_ifs with hneg
  · have hi : i = -(i.natAbs : Int) := by omega
    conv_lhs => rw [hi, ofInt_neg_natCast (by omega) h]
  · have hi : i = (i.natAbs : Int) := by omega
    conv_lhs => rw [hi, ofInt_natCast h]

theorem isWhole_ofNat (hlt : n < 2 ^ 53) : IsWhole (Float.ofNat n) n := by
  rcases Nat.eq_zero_or_pos n with rfl | hpos
  · exact isWhole_zero
  · rw [ofNat_eq_exactly hpos hlt]
    exact isWhole_exactly .positive hpos hlt

theorem isWhole_ofInt {i : Int} (h : i.natAbs < 2 ^ 53) : IsWhole (ofInt i) i := by
  rcases Int.natAbs_eq i with hi | hi
  · rw [hi, ofInt_natCast h]
    exact isWhole_ofNat h
  · rcases Nat.eq_zero_or_pos i.natAbs with hzero | hpos
    · rw [Int.natAbs_eq_zero.mp hzero]
      exact isWhole_zero
    · rw [hi, ofInt_neg_natCast hpos h, ofNat_eq_exactly hpos h, neg_exactly hpos h]
      exact isWhole_exactly .negative hpos h

section

variable {a b : Nat}

theorem unpack_zero : (0 : Float).toModel.unpack = .zero .positive := by
  have hzero : (0 : Float) = ⟨Float.Model.pack (.zero .positive)⟩ := by decide
  rw [hzero]
  exact unpack_packedZero

theorem zero_mul_exactly (hb : 0 < b) (hlt : b < 2 ^ 53) : 0 * exactly .positive b hb = 0 := by
  change (⟨Float.Model.pack (UnpackedFloat.mul _ (0 : Float).toModel.unpack
    (exactly .positive b hb).toModel.unpack)⟩ : Float) = _
  rw [unpack_zero, unpack_exactly .positive hb hlt]
  change (⟨Float.Model.pack (.zero .positive)⟩ : Float) = 0
  decide

theorem zero_add_exactly (hb : 0 < b) (hlt : b < 2 ^ 53) :
    0 + exactly .positive b hb = exactly .positive b hb := by
  change (⟨Float.Model.pack (UnpackedFloat.add _ (0 : Float).toModel.unpack
    (exactly .positive b hb).toModel.unpack)⟩ : Float) = _
  rw [unpack_zero, unpack_exactly .positive hb hlt]
  rfl

theorem exactly_add_zero (ha : 0 < a) (hlt : a < 2 ^ 53) :
    exactly .positive a ha + 0 = exactly .positive a ha := by
  change (⟨Float.Model.pack (UnpackedFloat.add _ (exactly .positive a ha).toModel.unpack
    (0 : Float).toModel.unpack)⟩ : Float) = _
  rw [unpack_zero, unpack_exactly .positive ha hlt]
  rfl

theorem ofNat_zero : Float.ofNat 0 = 0 := by decide

theorem ofNat_mul_ofNat (hb : 0 < b) (hfits : b < 2 ^ 53) (hlt : a * b < 2 ^ 53) :
    Float.ofNat a * Float.ofNat b = Float.ofNat (a * b) := by
  rcases Nat.eq_zero_or_pos a with rfl | ha
  · rw [Nat.zero_mul, ofNat_zero, ofNat_eq_exactly hb hfits, zero_mul_exactly hb hfits]
  · have hla : a < 2 ^ 53 := (Nat.le_mul_of_pos_right a hb).trans_lt hlt
    rw [ofNat_eq_exactly ha hla, ofNat_eq_exactly hb hfits, exactly_mul _ _ ha hb hlt,
      ofNat_eq_exactly (Nat.mul_pos ha hb) hlt]
    rfl

theorem ofNat_add_ofNat (hlt : a + b < 2 ^ 53) :
    Float.ofNat a + Float.ofNat b = Float.ofNat (a + b) := by
  have hla : a < 2 ^ 53 := (Nat.le_add_right a b).trans_lt hlt
  have hlb : b < 2 ^ 53 := (Nat.le_add_left b a).trans_lt hlt
  rcases Nat.eq_zero_or_pos a with rfl | ha <;> rcases Nat.eq_zero_or_pos b with rfl | hb
  · decide
  · rw [ofNat_zero, Nat.zero_add, ofNat_eq_exactly hb hlb, zero_add_exactly hb hlb]
  · rw [ofNat_zero, Nat.add_zero, ofNat_eq_exactly ha hla, exactly_add_zero ha hla]
  · rw [ofNat_eq_exactly ha hla, ofNat_eq_exactly hb hlb, exactly_add ha hb hlt,
      ofNat_eq_exactly (Nat.add_pos_left ha b) hlt]

end

theorem toIntWithin_ofNat {low high : Int} (hlt : n < 2 ^ 53) (hlow : low ≤ n) (hhigh : n ≤ high) :
    toIntWithin low high (Float.ofNat n) = n := by
  obtain ⟨b, hb, -, htruncate⟩ := isWhole_ofNat hlt
  simp only [toIntWithin, hb, htruncate]
  omega

theorem whole_nat (hlt : n < 2 ^ 53) (default : Int) : whole (.nat n) default = n :=
  toIntWithin_ofNat hlt (by omega) (by omega)

def Unsigned : UnpackedFloat → Prop
  | .zero s | .infinity s | .finite s _ _ _ => s = .positive
  | .notANumber => True

theorem unpackSign_pack {f : UnpackedFloat} (h : Unsigned f) :
    unpackSign (UnpackedFloat.pack .binary64 f) = 0#1 := by
  cases f with
  | notANumber => decide
  | zero s =>
    cases h
    decide
  | infinity s =>
    cases h
    decide
  | finite s m e hm =>
    cases h
    rw [UnpackedFloat.pack]
    split_ifs
    · decide
    · exact unpackSign_packComponents _ _ _
    · exact unpackSign_packComponents _ _ _

theorem toNat_toBits_lt {f : UnpackedFloat} (h : Unsigned f) :
    (⟨Float.Model.pack f⟩ : Float).toBits.toNat < signBit := by
  have hsign : (UnpackedFloat.pack .binary64 f).toNat / signBit = 0 := by
    rw [← toNat_unpackSign, unpackSign_pack h]
    rfl
  exact (Nat.div_eq_zero_iff_lt (by decide)).mp hsign

theorem unsigned_roundWithAccuracy (m : Nat) (e : Int) (accuracy : Accuracy) :
    Unsigned (roundWithAccuracy .binary64 .positive m e accuracy) := by
  simp only [roundWithAccuracy]
  split_ifs
  · rfl
  · rfl

theorem exists_unsigned_ofNat (n : Nat) :
    ∃ f, Unsigned f ∧ Float.ofNat n = ⟨Float.Model.pack f⟩ := by
  by_cases hlt : n < 2 ^ 53
  · rcases Nat.eq_zero_or_pos n with rfl | hpos
    · exact ⟨.zero .positive, rfl, by decide⟩
    · exact ⟨wholeUnpacked .positive n hpos, rfl, ofNat_eq_exactly hpos hlt⟩
  · refine ⟨UnpackedFloat.ofScientific .binary64 n 0, ?_, dif_neg fun h => hlt h.1⟩
    have hne : n ≠ 0 := by omega
    have hsmall : ¬(0 : Int) < -(2 ^ Format.binary64.exponentBits + (n.log2 : Int)) := by
      norm_num
    rw [UnpackedFloat.ofScientific, dif_neg hne, if_neg (by decide), if_neg hsmall,
      if_pos (le_refl 0), UnpackedFloat.mul]
    exact unsigned_roundWithAccuracy _ _ _

/-- Large numbers are rounded, but none becomes negative. -/
theorem ofNat_beq_negOne (n : Nat) : (Float.ofNat n == -1) = false := by
  obtain ⟨f, hf, heq⟩ := exists_unsigned_ofNat n
  have hsign := toNat_toBits_lt hf
  rw [← heq] at hsign
  by_contra hne
  obtain ⟨-, -, hone | ⟨-, hone⟩ | ⟨-, hone⟩⟩ :=
    Float.beq_iff_ne_nan_and_eq.mp (eq_true_of_ne_false hne)
  · rw [hone] at hsign
    exact absurd hsign (by decide)
  · exact absurd hone (by decide)
  · exact absurd hone (by decide)

end Templating.Decimal
