import Templating.Decimal.Plain
import Templating.Proofs.Lexemes
import Templating.Proofs.ShortestDigits
import Templating.Value.Number

/-!
The texts of numbers read back. What is written for a double is a numeral without an exponent that
rounds to the double, or one of the words for what is not finite.
-/
namespace Templating.Decimal
open Text

/-- A natural number with some of its digits behind a point. -/
inductive Writes : List Char → Nat → Nat → Prop
  | whole {ds : List Char} (digits : ∀ c ∈ ds, c.isDigit = true) (nonempty : ds ≠ []) :
      Writes ds (decimalValue ds) 0
  | pointed {ws fs : List Char} (whole : ∀ c ∈ ws, c.isDigit = true)
      (fraction : ∀ c ∈ fs, c.isDigit = true) (nonempty : ws ≠ []) :
      Writes (ws ++ '.' :: fs) (decimalValue (ws ++ fs)) fs.length

def signed (negative : Bool) (cs : List Char) : List Char := if negative then '-' :: cs else cs

theorem splitSign_signed (negative : Bool) {c : Char} (hc : c.isDigit = true) (cs : List Char) :
    splitSign (signed negative (c :: cs)) = (negative, c :: cs) := by
  cases negative with
  | true => rfl
  | false =>
    have hminus : c ≠ '-' := by rintro rfl; exact absurd hc (by decide)
    have hplus : c ≠ '+' := by rintro rfl; exact absurd hc (by decide)
    simp [signed, splitSign, hminus, hplus]

theorem takeWhile_isDigit_append {ds : List Char} (h : ∀ c ∈ ds, c.isDigit = true)
    (rest : List Char) :
    (ds ++ rest).takeWhile Char.isDigit = ds ++ rest.takeWhile Char.isDigit ∧
      (ds ++ rest).dropWhile Char.isDigit = rest.dropWhile Char.isDigit :=
  ⟨List.takeWhile_append_of_pos h, List.dropWhile_append_of_pos h⟩

/-- What a text of digits is read as, its sign apart. -/
theorem read?_whole {cs ds : List Char} {negative : Bool} (hsign : splitSign cs = (negative, ds))
    (digits : ∀ c ∈ ds, c.isDigit = true) (nonempty : ds ≠ []) :
    Numeral.read? cs = some ⟨negative, decimalValue ds, 0⟩ := by
  obtain ⟨htake, hdrop⟩ := takeWhile_isDigit_append digits []
  rw [List.append_nil] at htake hdrop
  simp [Numeral.read?, hsign, htake, hdrop, nonempty, readExponent?]

theorem read?_pointed {cs ws fs : List Char} {negative : Bool}
    (hsign : splitSign cs = (negative, ws ++ '.' :: fs)) (whole : ∀ c ∈ ws, c.isDigit = true)
    (fraction : ∀ c ∈ fs, c.isDigit = true) (nonempty : ws ≠ []) :
    Numeral.read? cs = some ⟨negative, decimalValue (ws ++ fs), -fs.length⟩ := by
  obtain ⟨htake, hdrop⟩ := takeWhile_isDigit_append whole ('.' :: fs)
  obtain ⟨hfraction, hend⟩ := takeWhile_isDigit_append fraction []
  rw [List.append_nil] at hfraction hend
  simp [Numeral.read?, hsign, htake, hdrop, hfraction, hend, nonempty, readExponent?]

namespace Writes

variable {cs : List Char} {n places : Nat}

theorem exists_head (h : Writes cs n places) : ∃ c rest, cs = c :: rest ∧ c.isDigit = true := by
  cases h with
  | whole digits nonempty =>
    obtain ⟨c, rest, rfl⟩ := List.exists_cons_of_ne_nil nonempty
    exact ⟨c, rest, rfl, digits c List.mem_cons_self⟩
  | pointed whole _ nonempty =>
    obtain ⟨c, rest, rfl⟩ := List.exists_cons_of_ne_nil nonempty
    exact ⟨c, _, rfl, whole c List.mem_cons_self⟩

theorem splitSign_eq (h : Writes cs n places) (negative : Bool) :
    splitSign (signed negative cs) = (negative, cs) := by
  obtain ⟨c, rest, rfl, hc⟩ := h.exists_head
  exact splitSign_signed negative hc rest

theorem read?_eq (h : Writes cs n places) (negative : Bool) :
    Numeral.read? (signed negative cs) = some ⟨negative, n, -places⟩ := by
  have hsign := h.splitSign_eq negative
  cases h with
  | whole digits nonempty => exact read?_whole hsign digits nonempty
  | pointed whole fraction nonempty => exact read?_pointed hsign whole fraction nonempty

theorem mem (h : Writes cs n places) {c : Char} (hc : c ∈ cs) : c.isDigit = true ∨ c = '.' := by
  cases h with
  | whole digits nonempty => exact .inl (digits c hc)
  | pointed whole fraction nonempty =>
    rcases List.mem_append.mp hc with hc | hc
    · exact .inl (whole c hc)
    · rcases List.mem_cons.mp hc with rfl | hc
      · exact .inr rfl
      · exact .inl (fraction c hc)

end Writes

def isNumeralPart (c : Char) : Bool := c.isDigit || c == '.' || c == '-'

theorem isBlank_of_isNumeralPart {c : Char} (h : isNumeralPart c = true) : isBlank c = false := by
  have hcodes : ∀ n ∈ blankCodes, isNumeralPart (Char.ofNat n) = false := by decide
  by_contra hblank
  have hpart := hcodes _ (toNat_mem_blankCodes (Bool.not_eq_false _ ▸ hblank))
  rw [Char.ofNat_toNat, h] at hpart
  cases hpart

theorem trim_eq_self {cs : List Char} (h : ∀ c ∈ cs, isBlank c = false) : trim cs = cs := by
  have hdrop {ds : List Char} (hds : ∀ c ∈ ds, isBlank c = false) : ds.dropWhile isBlank = ds :=
    List.dropWhile_eq_self_iff.mpr fun hl => by simp [hds _ (List.getElem_mem hl)]
  rw [trim, trimStart, hdrop h, trimEnd, hdrop (by simpa using h), List.reverse_reverse]

/-- Numerals are read as decimals. -/
theorem numberOfText_eq_read {cs : List Char} (nonempty : cs ≠ [])
    (h : ∀ c ∈ cs, isNumeralPart c = true) :
    numberOfText cs = (readFloat? cs).getD nan := by
  have hnot {c : Char} (hc : isNumeralPart c = false) : c ∉ cs := fun hmem => by
    rw [h c hmem] at hc
    cases hc
  simp only [numberOfText, trim_eq_self fun c hc => isBlank_of_isNumeralPart (h c hc)]
  rw [if_neg (by simpa using nonempty)]
  split
  · exact absurd (by simp) (hnot (c := 'x') (by decide))
  · exact absurd (by simp) (hnot (c := 'X') (by decide))
  · have hword {w : List Char} (hw : 'I' ∈ w) : cs ≠ w := by
      rintro rfl
      exact hnot (c := 'I') (by decide) hw
    rw [if_neg, if_neg]
    · exact hword (by decide)
    · rintro (heq | heq)
      · exact hword (by decide) heq
      · exact hword (by decide) heq

namespace Writes

variable {cs : List Char} {n places : Nat}

theorem isNumeralPart_of_mem (h : Writes cs n places) (negative : Bool) {c : Char}
    (hc : c ∈ signed negative cs) : isNumeralPart c = true := by
  have hmem : c = '-' ∨ c ∈ cs := by
    cases negative with
    | true => exact List.mem_cons.mp hc
    | false => exact .inr hc
  rw [isNumeralPart]
  rcases hmem with rfl | hmem
  · rfl
  · rcases h.mem hmem with hdigit | rfl
    · rw [hdigit]
      rfl
    · rfl

theorem numberOfText_eq (h : Writes cs n places) (negative : Bool) :
    numberOfText (signed negative cs) = Numeral.toFloat ⟨negative, n, -places⟩ := by
  have hne : signed negative cs ≠ [] := by
    obtain ⟨c, rest, rfl, -⟩ := h.exists_head
    cases negative <;> exact List.cons_ne_nil _ _
  rw [numberOfText_eq_read hne fun c hc => h.isNumeralPart_of_mem negative hc, readFloat?,
    h.read?_eq negative]
  rfl

end Writes

theorem isDigit_of_mem_zeros {n : Nat} {c : Char} (h : c ∈ zeros n) : c.isDigit = true := by
  rw [List.eq_of_mem_replicate h]
  rfl

namespace Digits

variable {d : Digits}

theorem value_eq_div {places : Nat} (h : d.point - d.digits.length = -places) :
    d.value = decimalValue d.digits / 10 ^ places := by
  rw [value, h, zpow_neg, zpow_natCast, div_eq_mul_inv]

/-- A numeral of the number that digits stand for. -/
def WrittenAs (d : Digits) (cs : List Char) : Prop :=
  ∃ n places, Writes cs n places ∧ (n : ℚ) / 10 ^ places = d.value

/-- Zeros stand between the point and the digits. -/
theorem writtenAs_fraction (digits : ∀ c ∈ d.digits, c.isDigit = true) (hpoint : d.point ≤ 0) :
    d.WrittenAs (['0'] ++ '.' :: (zeros (-d.point).toNat ++ d.digits)) := by
  have hzero : ∀ c ∈ ['0'], c.isDigit = true := List.forall_mem_singleton.mpr rfl
  have hmem : ∀ c ∈ zeros (-d.point).toNat ++ d.digits, c.isDigit = true := fun c hc =>
    (List.mem_append.mp hc).elim isDigit_of_mem_zeros (digits c)
  have hplaces : d.point - d.digits.length =
      -((zeros (-d.point).toNat ++ d.digits).length : Int) := by
    simp only [List.length_append, length_zeros]
    omega
  have hvalue : decimalValue (['0'] ++ (zeros (-d.point).toNat ++ d.digits)) =
      decimalValue d.digits := by
    rw [decimalValue_append, decimalValue_append, decimalValue_zeros]
    simp [decimalValue, digitsValue, decimalDigitValue]
  refine ⟨_, _, .pointed hzero hmem (List.cons_ne_nil _ _), ?_⟩
  rw [hvalue, value_eq_div hplaces]

/-- Zeros fill up the places before the point. -/
theorem writtenAs_integer (digits : ∀ c ∈ d.digits, c.isDigit = true) (nonempty : d.digits ≠ [])
    (hlength : d.digits.length ≤ d.point) :
    d.WrittenAs (d.digits ++ zeros (d.point - d.digits.length).toNat) := by
  have hmem : ∀ c ∈ d.digits ++ zeros (d.point - d.digits.length).toNat, c.isDigit = true :=
    fun c hc => (List.mem_append.mp hc).elim (digits c) isDigit_of_mem_zeros
  have hplaces : d.point - d.digits.length = ((d.point - d.digits.length).toNat : Int) := by
    omega
  refine ⟨_, _, .whole hmem (List.append_ne_nil_of_left_ne_nil nonempty _), ?_⟩
  rw [value, hplaces, zpow_natCast, Int.toNat_natCast, decimalValue_append, decimalValue_zeros,
    length_zeros]
  simp

/-- The point is among the digits. -/
theorem writtenAs_pointed (digits : ∀ c ∈ d.digits, c.isDigit = true) (nonempty : d.digits ≠ [])
    (hpoint : 0 < d.point) (hlength : d.point < d.digits.length) :
    d.WrittenAs (d.digits.take d.point.toNat ++ '.' :: d.digits.drop d.point.toNat) := by
  have hplaces : d.point - d.digits.length = -((d.digits.drop d.point.toNat).length : Int) := by
    rw [List.length_drop]
    omega
  have hne : d.digits.take d.point.toNat ≠ [] := by
    rw [ne_eq, List.take_eq_nil_iff]
    exact not_or.mpr ⟨by omega, nonempty⟩
  refine ⟨_, _, .pointed (fun c hc => digits c (List.mem_of_mem_take hc))
    (fun c hc => digits c (List.mem_of_mem_drop hc)) hne, ?_⟩
  rw [List.take_append_drop, value_eq_div hplaces]

theorem writtenAs_positional (digits : ∀ c ∈ d.digits, c.isDigit = true)
    (nonempty : d.digits ≠ []) : d.WrittenAs d.positional := by
  rw [positional]
  split_ifs with hpoint hlength
  · exact writtenAs_fraction digits hpoint
  · exact writtenAs_integer digits nonempty hlength
  · exact writtenAs_pointed digits nonempty (not_le.mp hpoint) (not_le.mp hlength)

end Digits

namespace Binary

variable {b : Binary} {n places : Nat}

/-- What rounds to a double other than zero is at least half the least one. -/
theorem half_least_le (hb : b.Canonical) (hpos : 0 < b.mantissa) {q : ℚ} (h : b.Takes q) :
    (2 : ℚ) ^ (minExponent - 1) ≤ q := by
  have hone : (1 : ℚ) ≤ b.mantissa := by exact_mod_cast hpos
  have hhalf : 1 / 2 * 2 ^ b.exponent ≤ q := by
    rw [← le_div_iff₀ (by positivity)]
    linarith [h.ge hpos]
  have hunit : (2 : ℚ) ^ minExponent ≤ 2 ^ b.exponent :=
    zpow_le_zpow_right₀ one_le_two hb.exponent_ge
  rw [zpow_sub_one₀ two_ne_zero]
  linarith

/-- A numeral that rounds to a double other than zero has not too many places. -/
theorem places_le (hb : b.Canonical) (hpos : 0 < b.mantissa) (h : b.Takes (n / 10 ^ places)) :
    places ≤ 400 + n.log2 := by
  have hn : (n : ℚ) < 2 ^ (n.log2 + 1) := by exact_mod_cast Nat.lt_log2_self
  have hten : (2 : ℚ) ^ (3 * places) ≤ 10 ^ places := by
    exact_mod_cast two_pow_le_ten_pow (le_refl (3 * places))
  have hlt : (2 : ℚ) ^ (minExponent - 1) < 2 ^ ((n.log2 + 1 : Nat) - (3 * places : Nat) : Int) :=
    calc (2 : ℚ) ^ (minExponent - 1) ≤ n / 10 ^ places := half_least_le hb hpos h
      _ < 2 ^ (n.log2 + 1) / 10 ^ places := by gcongr
      _ ≤ 2 ^ (n.log2 + 1) / 2 ^ (3 * places) := by gcongr
      _ = 2 ^ ((n.log2 + 1 : Nat) - (3 * places : Nat) : Int) :=
        (zpow_natCast_sub_natCast₀ two_ne_zero _ _).symm
  have := (zpow_lt_zpow_iff_right₀ one_lt_two).mp hlt
  simp only [minExponent] at this
  omega

/-- A numeral that rounds to a double is read as it. -/
theorem toFloat_of_takes (hb : b.Canonical) (hpos : 0 < b.mantissa)
    (h : b.Takes (n / 10 ^ places)) :
    Numeral.toFloat ⟨b.negative, n, -places⟩ = Float.ofBits (UInt64.ofNat b.bits) := by
  have hn : n ≠ 0 := by
    rintro rfl
    simpa using h.pos hpos
  have hplaces := places_le hb hpos h
  have hwhole : (-places : Int).toNat = 0 := by omega
  rw [Numeral.toFloat, if_neg, if_neg]
  · simp only [hwhole, neg_neg, Int.toNat_natCast, Nat.pow_eq, pow_zero, mul_one]
    refine nearest_of_takes hb hpos (Nat.pow_pos (by decide)) ?_
    exact_mod_cast h
  · simp only [exponentLimit]
    omega
  · simp only [exponentLimit]
    omega

theorem takes_self (hpos : 0 < b.mantissa) : b.Takes (b.numerator / b.denominator) := by
  have hunit : (2 : ℚ) ^ b.exponent ≠ 0 := by positivity
  have hlow : (b.neighbourhood.low : ℚ) < b.neighbourhood.value := by
    exact_mod_cast neighbourhood_low_lt hpos
  have hhigh : (b.neighbourhood.value : ℚ) < b.neighbourhood.high := by
    exact_mod_cast b.neighbourhood_lt_high
  have hvalue : (b.neighbourhood.value : ℚ) = 4 * b.mantissa := by
    simp [neighbourhood]
  rw [takes_iff, numerator_div_denominator, mul_div_cancel_right₀ _ hunit, ← hvalue]
  exact ⟨hlow.le, hhigh.le, fun _ => ⟨hlow, hhigh⟩⟩

/-- What is written for a double other than zero. -/
theorem exists_writes_plain (hb : b.Canonical) (hpos : 0 < b.mantissa) :
    ∃ cs n places, b.plain = signed b.negative cs ∧ Writes cs n places ∧
      b.Takes (n / 10 ^ places) := by
  rw [plain, if_neg hpos.ne']
  by_cases hinteger : b.isIntegral = true ∧ b.numerator / b.denominator < Nat.pow 10 21
  · have hdvd : b.denominator ∣ b.numerator :=
      Nat.dvd_of_mod_eq_zero (beq_iff_eq.mp hinteger.1)
    have hdigits : Writes (decimalDigits (b.numerator / b.denominator)) _ 0 :=
      .whole (fun c hc => isDigit_of_mem_decimalDigits hc) Nat.toDigits_ne_nil
    refine ⟨_, _, _, ?_, hdigits, ?_⟩
    · rw [if_pos hinteger]
      rfl
    · rw [decimalValue_decimalDigits, Nat.cast_div_charZero hdvd, pow_zero, div_one]
      exact takes_self hpos
  · have htakes := shortest_takes .upward hb hpos
    have hne : (b.shortest .upward).digits ≠ [] := fun hnil => by
      have hzero : (b.shortest .upward).value = 0 := by
        simp [Digits.value, hnil, decimalValue, digitsValue]
      exact (htakes.pos hpos).ne' hzero
    obtain ⟨n, places, hwrites, hvalue⟩ :=
      Digits.writtenAs_positional (fun c hc => isDigit_of_mem_shortest .upward hb hpos hc) hne
    refine ⟨_, n, places, ?_, hwrites, hvalue ▸ htakes⟩
    rw [if_neg hinteger]
    rfl

theorem numberOfText_plain (hb : b.Canonical) (hpos : 0 < b.mantissa) :
    numberOfText b.plain = Float.ofBits (UInt64.ofNat b.bits) := by
  obtain ⟨cs, n, places, hplain, hwrites, htakes⟩ := exists_writes_plain hb hpos
  rw [hplain, hwrites.numberOfText_eq, toFloat_of_takes hb hpos htakes]

end Binary

/-- The text of a number is taken for the number. -/
theorem numberOfText_plain (x : Float) : sameNumber x (numberOfText (plain x).toList) = true := by
  rw [plain]
  split
  case h_1 b hb =>
    obtain ⟨hcanonical, hbits⟩ := ofFloat?_eq_some hb
    rw [String.toList_ofList]
    rcases Nat.eq_zero_or_pos b.mantissa with hzero | hpos
    · rw [Binary.plain, if_pos hzero]
      rcases eq_zero_of_mantissa hb hzero with rfl | rfl
      · decide
      · decide
    · rw [Binary.numberOfText_plain hcanonical hpos, ofBits_eq_of_toNat hbits]
      exact sameNumber_self x
  case h_2 h =>
    rcases ofFloat?_eq_none h with rfl | rfl | rfl <;> decide

end Templating.Decimal
