import Templating.Eval.Builtin
import Templating.Eval.Method
import Templating.Proofs.NumericTexts
import Templating.Proofs.Trimming
import Templating.Proofs.WholeDoubles

/-!
Whole numbers in the digits of a radix. A number is written with the digits of its positional
notation, the leading one not zero, and reading them in the same radix gives the number back.
-/
namespace Templating.Decimal

variable {radix d n : Nat}

def alphabet : List Char := "0123456789abcdefghijklmnopqrstuvwxyz".toList

/-- A natural number in the positional notation of a radix, the leading digit first. -/
structure IsNumeral (radix n : Nat) (ds : List Char) : Prop where
  nonempty : ds ≠ []
  digits : ∀ c ∈ ds, c ∈ alphabet.take radix
  value : digitsValue radix (alphabet.idxOf ·) ds = n
  leading : n ≠ 0 → ds.head? ≠ some '0'
  zero : n = 0 → ds = ['0']

theorem getElem?_alphabet : ∀ d < 36, alphabet[d]? = some (digitChar d) := by decide

theorem idxOf_digitChar : ∀ d < 36, alphabet.idxOf (digitChar d) = d := by decide

theorem digitValue?_digitChar_max : ∀ d < 36, digitValue? 36 (digitChar d) = some d := by decide

theorem digitChar_mem (hd : d < radix) (hradix : radix ≤ 36) :
    digitChar d ∈ alphabet.take radix := by
  refine List.mem_of_getElem? (i := d) ?_
  rw [List.getElem?_take_of_lt hd, getElem?_alphabet d (by omega)]

/-- The values of digits are the same in all radixes that have them. -/
theorem digitValue?_digitChar (hd : d < radix) (hradix : radix ≤ 36) :
    digitValue? radix (digitChar d) = some d := by
  have hmax := digitValue?_digitChar_max d (by omega)
  unfold digitValue? at hmax ⊢
  split_ifs at hmax ⊢ <;> simp_all

def radixValues (radix n : Nat) : List Nat :=
  if n = 0 then [0] else (Nat.digits radix n).reverse

theorem radixDigits_eq (hradix : 2 ≤ radix) (n : Nat) :
    radixDigits radix n = (radixValues radix n).map digitChar := by
  induction n using Nat.strong_induction_on with
  | _ n ih =>
    rw [radixDigits, Nat.max_eq_left hradix]
    split_ifs with hlt
    · rcases Nat.eq_zero_or_pos n with rfl | hpos
      · rfl
      · rw [radixValues, if_neg hpos.ne', Nat.digits_of_lt radix n hpos.ne' hlt]
        rfl
    · have hpos : 0 < n := by omega
      have hquotient : 0 < n / radix := Nat.div_pos (Nat.le_of_not_lt hlt) (by omega)
      rw [ih (n / radix) (Nat.div_lt_self hpos hradix), radixValues, if_neg hquotient.ne',
        radixValues, if_neg hpos.ne', Nat.digits_def' hradix hpos]
      simp

theorem lt_of_mem_radixValues (hradix : 2 ≤ radix) (h : d ∈ radixValues radix n) : d < radix := by
  rw [radixValues] at h
  split_ifs at h with hzero
  · rw [List.mem_singleton.mp h]
    omega
  · exact Nat.digits_lt_base hradix (List.mem_reverse.mp h)

theorem head?_radixValues (hne : n ≠ 0) : (radixValues radix n).head? ≠ some 0 := by
  rw [radixValues, if_neg hne, List.head?_reverse, List.getLast?_eq_some_getLast
    (Nat.digits_ne_nil_iff_ne_zero.mpr hne)]
  exact fun h => Nat.getLast_digit_ne_zero radix hne (Option.some.inj h)

/-- The value that digits add to what is before them. -/
theorem foldl_radixValues (radix n : Nat) :
    (radixValues radix n).foldl (fun m d => m * radix + d) 0 = n := by
  rw [radixValues]
  split_ifs with hzero
  · simp [hzero]
  · conv_rhs => rw [← Nat.ofDigits_digits radix n, Nat.ofDigits_eq_foldr]
    rw [List.foldl_reverse]
    simp only [Nat.cast_id, Nat.mul_comm radix, Nat.add_comm]

theorem isNumeral_radixDigits (hlow : 2 ≤ radix) (hhigh : radix ≤ 36) (n : Nat) :
    IsNumeral radix n (radixDigits radix n) where
  nonempty := radixDigits_ne_nil radix n
  digits c hc := by
    rw [radixDigits_eq hlow] at hc
    obtain ⟨d, hd, rfl⟩ := List.mem_map.mp hc
    exact digitChar_mem (lt_of_mem_radixValues hlow hd) hhigh
  value := by
    rw [radixDigits_eq hlow, digitsValue, List.foldl_map]
    refine .trans ?_ (foldl_radixValues radix n)
    refine List.foldl_ext _ _ _ fun m d hd => ?_
    have hvalue := lt_of_mem_radixValues hlow hd
    rw [idxOf_digitChar d (by omega)]
  leading hne := by
    rw [radixDigits_eq hlow, List.head?_map]
    intro hhead
    obtain ⟨d, hd, hchar⟩ := Option.map_eq_some_iff.mp hhead
    have hvalue := lt_of_mem_radixValues hlow (List.mem_of_head? hd)
    have hzero : d = 0 := calc
      d = alphabet.idxOf (digitChar d) := (idxOf_digitChar d (by omega)).symm
      _ = alphabet.idxOf '0' := by rw [hchar]
      _ = 0 := by decide
    exact head?_radixValues hne (hzero ▸ hd)
  zero hzero := by
    rw [hzero, radixDigits_eq hlow]
    rfl

theorem digitChar_eq {d : Nat} (h : d < 10) : digitChar d = Nat.digitChar d := by
  interval_cases d <;> rfl

theorem radixDigits_ten (n : Nat) : radixDigits 10 n = decimalDigits n := by
  induction n using Nat.strong_induction_on with
  | _ n ih =>
    rw [radixDigits, decimalDigits, Nat.toDigits_eq_if (by decide)]
    split_ifs with hlt hlt' hlt'
    · rw [digitChar_eq hlt]
    · exact absurd hlt hlt'
    · exact absurd hlt' hlt
    · have hmod : n % 10 < 10 := Nat.mod_lt n (by decide)
      have hdiv : n / 10 < n := Nat.div_lt_self (by omega) (by decide)
      change radixDigits 10 (n / 10) ++ [digitChar (n % 10)] = _
      rw [ih _ hdiv, digitChar_eq hmod]
      rfl

def signOf (n : Int) : List Char := if n < 0 then ['-'] else []

theorem Binary.truncate_neg_iff {b : Binary} : b.truncate < 0 ↔
    (b.negative && b.numerator / b.denominator != 0) = true := by
  have hcast : (b.numerator : Int) / b.denominator = (b.numerator / b.denominator : Nat) := rfl
  rw [Binary.truncate, hcast, Bool.and_eq_true, bne_iff_ne]
  generalize b.numerator / b.denominator = magnitude
  cases b.negative with
  | false => simp
  | true => simp [Nat.pos_iff_ne_zero]

theorem signOf_truncate_append (b : Binary) (ds : List Char) : signOf b.truncate ++ ds =
    if b.negative && b.numerator / b.denominator != 0 then '-' :: ds else ds := by
  simp only [signOf, Binary.truncate_neg_iff]
  split_ifs <;> rfl

theorem Binary.plain_whole {b : Binary} (integral : b.isIntegral = true)
    (hlt : b.numerator / b.denominator < Nat.pow 10 21) :
    b.plain = signOf b.truncate ++ decimalDigits (b.numerator / b.denominator) := by
  rw [signOf_truncate_append]
  by_cases hzero : b.numerator / b.denominator = 0
  · have hmantissa := (Binary.mantissa_eq_zero_iff integral).mpr hzero
    simp [Binary.plain, hmantissa, hzero, decimalDigits]
  · have hmantissa := mt (Binary.mantissa_eq_zero_iff integral).mp hzero
    simp [Binary.plain, hmantissa, hzero, integral, hlt]

/-- Base ten is no exception. -/
theorem toRadix_whole {x : Float} {n : Int} (h : IsWhole x n) (small : n.natAbs < 9000000000000000)
    (radix : Nat) : NumberMethod.toRadix radix x =
      String.ofList (signOf n ++ radixDigits radix n.natAbs) := by
  obtain ⟨b, hb, integral, rfl⟩ := h
  rw [b.natAbs_truncate] at small ⊢
  have hradix : NumberMethod.toRadix radix x = if radix = 10 then plain x else
      String.ofList (signOf b.truncate ++ radixDigits radix (b.numerator / b.denominator)) := by
    simp only [NumberMethod.toRadix, hb, integral, signOf_truncate_append, Bool.not_true,
      Bool.false_eq_true, Nat.not_le.mpr small, or_false]
  rw [hradix]
  split_ifs with hten
  · have hlarge : b.numerator / b.denominator < Nat.pow 10 21 := small.trans (by decide)
    rw [hten, plain, hb, radixDigits_ten, ← Binary.plain_whole integral hlarge]
  · rfl

theorem le_foldl {ds : List Nat} (hradix : 0 < radix) (n : Nat) :
    n ≤ ds.foldl (fun m d => m * radix + d) n := by
  induction ds generalizing n with
  | nil => exact le_refl n
  | cons d ds ih =>
    have hproduct : n ≤ n * radix := Nat.le_mul_of_pos_right n hradix
    exact (hproduct.trans (Nat.le_add_right _ d)).trans (ih _)

/-- Sums and products that stay below `2 ^ 53` are exact all along. -/
theorem foldl_ofNat {ds : List Nat} (hradix : 0 < radix) (hsmall : radix < 2 ^ 53)
    (hlt : ds.foldl (fun m d => m * radix + d) n < 2 ^ 53) :
    ds.foldl (fun x d => x * Float.ofNat radix + Float.ofNat d) (Float.ofNat n) =
      Float.ofNat (ds.foldl (fun m d => m * radix + d) n) := by
  induction ds generalizing n with
  | nil => rfl
  | cons d ds ih =>
    have hstep : n * radix + d < 2 ^ 53 := (le_foldl hradix _).trans_lt hlt
    rw [List.foldl_cons, List.foldl_cons, ofNat_mul_ofNat hradix hsmall (by omega),
      ofNat_add_ofNat hstep]
    exact ih hlt

end Templating.Decimal

namespace Templating.Builtin
open Decimal Text

variable {radix n : Nat}

theorem leadingDigits_radixDigits (hlow : 2 ≤ radix) (hhigh : radix ≤ 36) (hlt : n < 2 ^ 53) :
    leadingDigits radix (radixDigits radix n) = some (Float.ofNat n) := by
  have hvalues : (radixDigits radix n).map (digitValue? radix) =
      (radixValues radix n).map some := by
    rw [radixDigits_eq hlow, List.map_map]
    refine List.map_congr_left fun d hd => ?_
    exact digitValue?_digitChar (lt_of_mem_radixValues hlow hd) hhigh
  have hall : (((radixDigits radix n).map (digitValue? radix)).takeWhile
      Option.isSome).reduceOption = radixValues radix n := by
    rw [hvalues, List.takeWhile_eq_self_iff.mpr (by simp), List.reduceOption]
    simp
  have hvalue := foldl_radixValues radix n
  have hfold : (radixValues radix n).foldl
      (fun x d => x * Float.ofNat radix + Float.ofNat d) 0 = Float.ofNat n := by
    rw [← ofNat_zero, foldl_ofNat (by omega) (by omega) (by rwa [hvalue]), hvalue]
  rw [leadingDigits, hall, ← hfold]
  cases hds : radixValues radix n with
  | nil =>
    have hne := radixDigits_ne_nil radix n
    rw [radixDigits_eq hlow, hds] at hne
    exact absurd rfl hne
  | cons d ds => rfl

/-- Nothing but `0x` in front of digits of base 16 is passed over. -/
theorem readInt_eq {text : String} {negative : Bool} {cs : List Char} {x : Float}
    (hlow : 2 ≤ radix) (hhigh : radix ≤ 36)
    (hsplit : splitSign (trimStart text.toList) = (negative, cs))
    (hhex : radix = 16 → 'x' ∉ cs ∧ 'X' ∉ cs) (hdigits : leadingDigits radix cs = some x) :
    readInt text radix = if negative then -x else x := by
  have hzero : radix ≠ 0 := by omega
  have hbounds : ¬(radix < 2 ∨ 36 < radix) := by omega
  unfold readInt
  by_cases hsixteen : radix = 16
  · obtain ⟨hx, hX⟩ := hhex hsixteen
    simp only [hsplit, hzero, false_or, if_pos hsixteen]
    split
    · simp at hx
    · simp at hX
    · simp only [hzero, hbounds, if_false, hdigits]
  · simp only [hsplit, hzero, false_or, if_neg hsixteen, if_false, hbounds, hdigits]

theorem not_blank_or_sign {c : Char} (h : c ∈ alphabet) :
    isBlank c = false ∧ c ≠ '+' ∧ c ≠ '-' := by
  have hall : alphabet.all (fun c => !isBlank c && c != '+' && c != '-') = true := by decide
  simpa [and_assoc] using List.all_eq_true.mp hall c h

theorem no_x_among_sixteen : 'x' ∉ alphabet.take 16 ∧ 'X' ∉ alphabet.take 16 := by decide

theorem splitSign_numeral {ds : List Char} (h : IsNumeral radix n ds) (i : Int) :
    splitSign (trimStart (signOf i ++ ds)) = (decide (i < 0), ds) := by
  obtain ⟨c, rest, rfl⟩ := List.exists_cons_of_ne_nil h.nonempty
  obtain ⟨hblank, hplus, hminus⟩ :=
    not_blank_or_sign (List.mem_of_mem_take (h.digits c List.mem_cons_self))
  have htrim {d : Char} (hd : isBlank d = false) (ds : List Char) :
      trimStart (d :: ds) = d :: ds := @trimStart_append _ [] nofun ⟨d, ds, rfl, hd⟩
  rw [signOf]
  split_ifs with hneg
  · rw [List.cons_append, htrim (by decide), decide_eq_true hneg]
    rfl
  · rw [List.nil_append, htrim hblank, decide_eq_false hneg]
    exact BeginsBare.splitSign_eq ⟨c, rest, rfl, hplus, hminus⟩

theorem readInt_radixDigits (hlow : 2 ≤ radix) (hhigh : radix ≤ 36) {i : Int}
    (hlt : i.natAbs < 2 ^ 53) :
    readInt (String.ofList (signOf i ++ radixDigits radix i.natAbs)) radix = ofInt i := by
  have hnumeral := isNumeral_radixDigits hlow hhigh i.natAbs
  have hsplit : splitSign (trimStart (String.ofList (signOf i ++
      radixDigits radix i.natAbs)).toList) = (decide (i < 0), radixDigits radix i.natAbs) := by
    rw [String.toList_ofList, splitSign_numeral hnumeral]
  have hhex : radix = 16 → 'x' ∉ radixDigits radix i.natAbs ∧ 'X' ∉ radixDigits radix i.natAbs := by
    rintro rfl
    exact ⟨fun h => no_x_among_sixteen.1 (hnumeral.digits _ h),
      fun h => no_x_among_sixteen.2 (hnumeral.digits _ h)⟩
  rw [readInt_eq hlow hhigh hsplit hhex (leadingDigits_radixDigits hlow hhigh hlt),
    ofInt_eq_signed hlt]
  simp only [decide_eq_true_eq]

theorem run_parseInt {σ : Type} (text : String) (hfits : radix < 2 ^ 32) :
    (Builtin.run .parseInt [.string text, .nat radix] : EvalM σ Value) =
      pure (.number (readInt text radix)) := by
  have hradix : (toIntWithin 0 0xFFFFFFFF (Value.nat radix).toNumber).toNat = radix := by
    have hwithin : toIntWithin 0 0xFFFFFFFF (Float.ofNat radix) = radix :=
      toIntWithin_ofNat (by omega) (by omega) (by omega)
    exact congrArg Int.toNat hwithin
  change (pure (.number (readInt text
    (toIntWithin 0 0xFFFFFFFF (Value.nat radix).toNumber).toNat)) : EvalM σ Value) = _
  rw [hradix]

theorem run_toString (x : Float) (hlow : 2 ≤ radix) (hhigh : radix ≤ 36) :
    NumberMethod.run x "toString" [.nat radix] =
      .ok (some (.string (NumberMethod.toRadix radix x))) := by
  have hradix : whole (argument [.nat radix] 0) 10 = radix := whole_nat (by omega) 10
  have hbounds : ¬((radix : Int) < 2 ∨ 36 < (radix : Int)) := by omega
  simp only [NumberMethod.run, hradix, if_neg hbounds, Int.toNat_natCast]

/-- A whole number below `9 * 10 ^ 15` has a text in every radix: a minus sign if it is negative,
and the numeral of its magnitude. Reading the text in the same radix gives the number again. -/
theorem radix_round_trip {x : Float} {i : Int} (whole : IsWhole x i)
    (small : i.natAbs < 9000000000000000) (hlow : 2 ≤ radix) (hhigh : radix ≤ 36) :
    ∃ ds text y, IsNumeral radix i.natAbs ds ∧
      text = String.ofList (signOf i ++ ds) ∧
      (∀ (σ : Type) (call : Caller σ) (st : EvalState σ),
        (callMethod call (.number x) "toString" [.nat radix]).run.run st =
          (.ok (some (.string text)), st) ∧
        (Builtin.run .parseInt [.string text, .nat radix]).run.run st = (.ok (.number y), st)) ∧
      IsWhole y i ∧ (y == x) = true := by
  have hfits : i.natAbs < 2 ^ 53 := by omega
  have hy := isWhole_ofInt hfits
  refine ⟨_, _, ofInt i, isNumeral_radixDigits hlow hhigh i.natAbs, rfl, fun σ call st => ⟨?_, ?_⟩,
    hy, hy.beq whole⟩
  · have hcall : callMethod call (.number x) "toString" [.nat radix] =
        liftM (NumberMethod.run x "toString" [.nat radix]) := rfl
    rw [hcall, run_toString x hlow hhigh, toRadix_whole whole small]
    rfl
  · rw [run_parseInt _ (by omega), readInt_radixDigits hlow hhigh hfits]
    rfl

/-- The number -255 in base 16. -/
theorem radix_round_trip_minus_ff : ∃ ds text y, IsNumeral 16 255 ds ∧
    text = String.ofList ('-' :: ds) ∧
    (∀ (σ : Type) (call : Caller σ) (st : EvalState σ),
      (callMethod call (.number (ofInt (-255))) "toString" [.nat 16]).run.run st =
        (.ok (some (.string text)), st) ∧
      (Builtin.run .parseInt [.string text, .nat 16]).run.run st = (.ok (.number y), st)) ∧
    IsWhole y (-255) ∧ (y == ofInt (-255)) = true :=
  have hwhole : IsWhole (ofInt (-255)) (-255) := isWhole_ofInt (by decide)
  @radix_round_trip 16 _ (-255) hwhole (by decide) (by decide) (by decide)

end Templating.Builtin
