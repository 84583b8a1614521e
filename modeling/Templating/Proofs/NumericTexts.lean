import Templating.Proofs.NumberText

/-!
The texts that are taken for numbers. Without the blanks around it such a text is empty, the word
for infinity, a decimal literal, or a hexadecimal one; all others are taken for NaN. A hexadecimal
literal may have a plus sign behind its mark, and its value has to fit a word of 64 bits.
-/
namespace Templating.Decimal
open Text

open Float.Model Float.Model.UnpackedFloat in
/-- Bits with the exponent of the infinities are those of an infinity when no others are set. -/
theorem isNaN_ofBits {bits : UInt64}
    (h : bits.toNat / hiddenBit % (topExponent + 1) = topExponent → bits.toNat % hiddenBit = 0) :
    (Float.ofBits bits).isNaN = false := by
  let word : Word := bits.toBitVec
  have hmantissa (hexp : unpackExponent word = -1#_) : unpackMantissa word = 0#_ := by
    have htop : word.toNat / hiddenBit % (topExponent + 1) = topExponent := by
      rw [← toNat_unpackExponent, hexp]
      rfl
    rw [← BitVec.toNat_inj, toNat_unpackMantissa]
    exact h htop
  have hvalid : Format.binary64.Valid word := ⟨fun hexp hne => absurd (hmantissa hexp) hne⟩
  have hself : Float.ofBits bits = ⟨⟨bits, hvalid⟩⟩ := Float.ofBits_toBits ⟨⟨bits, hvalid⟩⟩
  rw [hself]
  change (UnpackedFloat.unpack Format.binary64 word).isNaN = false
  rw [UnpackedFloat.unpack]
  split_ifs with hexp hzero
  · rfl
  · exact absurd (hmantissa hexp) hzero
  · rfl
  · rfl
  · rfl

theorem exists_nearest_eq (negative : Bool) (num den : Nat) :
    ∃ magnitude ≤ topExponent * hiddenBit, nearest negative num den =
      Float.ofBits (UInt64.ofNat (magnitude + if negative then signBit else 0)) := by
  refine ⟨_, ?_, rfl⟩
  split_ifs
  · exact Nat.zero_le _
  · exact min_le_right _ _

theorem isNaN_nearest (negative : Bool) (num den : Nat) :
    (nearest negative num den).isNaN = false := by
  obtain ⟨magnitude, hle, heq⟩ := exists_nearest_eq negative num den
  rw [heq]
  apply isNaN_ofBits
  rw [UInt64.toNat_ofNat']
  simp only [topExponent, hiddenBit, signBit] at *
  split_ifs <;> omega

theorem isNaN_toFloat (n : Numeral) : n.toFloat.isNaN = false := by
  unfold Numeral.toFloat
  split_ifs <;> exact isNaN_nearest _ _ _

/-- One digit or more, of some kind. -/
structure IsRun (isDigit : Char → Bool) (ds : List Char) : Prop where
  nonempty : ds ≠ []
  digits : ∀ c ∈ ds, isDigit c = true

inductive Signed (body : List Char → Prop) : List Char → Prop
  | bare {cs : List Char} (h : body cs) : Signed body cs
  | plus {cs : List Char} (h : body cs) : Signed body ('+' :: cs)
  | minus {cs : List Char} (h : body cs) : Signed body ('-' :: cs)

/-- Digits with an optional point behind or among them, or a point with digits behind it. -/
inductive Significand : List Char → Prop
  | whole {ds : List Char} (digits : IsRun Char.isDigit ds) : Significand ds
  | pointed {ds fs : List Char} (digits : IsRun Char.isDigit ds)
      (fraction : ∀ c ∈ fs, c.isDigit = true) : Significand (ds ++ '.' :: fs)
  | fraction {fs : List Char} (digits : IsRun Char.isDigit fs) : Significand ('.' :: fs)

/-- The power of ten at the end of a literal, which may be missing. -/
inductive Power : List Char → Prop
  | none : Power []
  | ten {e : Char} {cs : List Char} (letter : e = 'e' ∨ e = 'E')
      (digits : Signed (IsRun Char.isDigit) cs) : Power (e :: cs)

inductive Magnitude : List Char → Prop
  | mk {cs es : List Char} (significand : Significand cs) (power : Power es) : Magnitude (cs ++ es)

def IsDecimalLiteral : List Char → Prop := Signed Magnitude

theorem isRun_iff {p : Char → Bool} {ds : List Char} :
    IsRun p ds ↔ ¬(ds.isEmpty || !ds.all p) = true := by
  rw [Bool.or_eq_true, not_or, List.isEmpty_iff, Bool.not_eq_true', Bool.not_eq_false,
    List.all_eq_true]
  exact ⟨fun h => ⟨h.nonempty, h.digits⟩, fun h => ⟨h.1, h.2⟩⟩

def BeginsBare (cs : List Char) : Prop := ∃ c rest, cs = c :: rest ∧ c ≠ '+' ∧ c ≠ '-'

theorem BeginsBare.splitSign_eq {cs : List Char} (h : BeginsBare cs) :
    splitSign cs = (false, cs) := by
  obtain ⟨c, rest, rfl, hplus, hminus⟩ := h
  simp [splitSign, hplus, hminus]

theorem BeginsBare.append {cs : List Char} (h : BeginsBare cs) (ds : List Char) :
    BeginsBare (cs ++ ds) := by
  obtain ⟨c, rest, rfl, hc⟩ := h
  exact ⟨c, rest ++ ds, rfl, hc⟩

/-- Where nothing begins with a sign of its own, the sign is read off first. -/
theorem signed_iff {body : List Char → Prop} (hbody : ∀ cs, body cs → BeginsBare cs)
    {cs : List Char} : Signed body cs ↔ body (splitSign cs).2 := by
  constructor
  · intro h
    cases h with
    | bare h => rwa [(hbody cs h).splitSign_eq]
    | plus h => exact h
    | minus h => exact h
  · intro h
    unfold splitSign at h
    split at h
    · exact .minus h
    · exact .plus h
    · exact .bare h

theorem IsRun.beginsBare {ds : List Char} (h : IsRun Char.isDigit ds) : BeginsBare ds := by
  obtain ⟨c, rest, rfl⟩ := List.exists_cons_of_ne_nil h.nonempty
  have hc : c.isDigit = true := h.digits c List.mem_cons_self
  refine ⟨c, rest, rfl, ?_, ?_⟩
  · rintro rfl
    cases hc
  · rintro rfl
    cases hc

theorem Significand.beginsBare {cs : List Char} (h : Significand cs) : BeginsBare cs := by
  cases h with
  | whole digits => exact digits.beginsBare
  | pointed digits _ => exact digits.beginsBare.append _
  | @fraction fs _ => exact ⟨'.', fs, rfl, by decide, by decide⟩

theorem signed_run_iff {cs : List Char} :
    Signed (IsRun Char.isDigit) cs ↔ IsRun Char.isDigit (splitSign cs).2 :=
  signed_iff fun _ h => h.beginsBare

theorem isDecimalLiteral_iff {cs : List Char} : IsDecimalLiteral cs ↔ Magnitude (splitSign cs).2 :=
  signed_iff fun _ ⟨significand, _⟩ => significand.beginsBare.append _

theorem readExponent?_isSome_iff {cs : List Char} :
    (readExponent? cs).isSome = true ↔ Power cs := by
  cases cs with
  | nil => exact iff_of_true rfl .none
  | cons c cs =>
    have hpower : Power (c :: cs) ↔ (c = 'e' ∨ c = 'E') ∧ IsRun Char.isDigit (splitSign cs).2 := by
      rw [← signed_run_iff]
      exact ⟨fun | .ten letter digits => ⟨letter, digits⟩, fun h => .ten h.1 h.2⟩
    rw [hpower, isRun_iff]
    rcases hsign : splitSign cs with ⟨negative, ds⟩
    simp only [readExponent?, hsign]
    by_cases hletter : c = 'e' ∨ c = 'E'
    · rw [if_pos hletter, Option.isSome_ite', and_iff_right hletter]
    · rw [if_neg hletter]
      exact iff_of_false Bool.false_ne_true fun h => hletter h.1

theorem Power.takeWhile_eq_nil {es : List Char} (h : Power es) :
    es.takeWhile Char.isDigit = [] := by
  cases h with
  | none => rfl
  | ten letter _ => rcases letter with rfl | rfl <;> rfl

theorem Power.ne_point {es cs : List Char} (h : Power es) : es ≠ '.' :: cs := by
  rintro rfl
  cases h with
  | ten letter _ => exact absurd letter (by decide)

/-- Digits end where something else begins. -/
theorem digits_append {ds rest : List Char} (hds : ∀ c ∈ ds, c.isDigit = true)
    (hrest : rest.takeWhile Char.isDigit = []) :
    (ds ++ rest).takeWhile Char.isDigit = ds ∧ (ds ++ rest).dropWhile Char.isDigit = rest := by
  obtain ⟨htake, hdrop⟩ := takeWhile_isDigit_append hds rest
  have hself := List.takeWhile_append_dropWhile (p := Char.isDigit) (l := rest)
  rw [hrest, List.nil_append] at hself
  rw [hrest, List.append_nil] at htake
  exact ⟨htake, hdrop.trans hself⟩

theorem isRun_takeWhile {cs : List Char} (h : cs.takeWhile Char.isDigit ≠ []) :
    IsRun Char.isDigit (cs.takeWhile Char.isDigit) :=
  ⟨h, fun _ hc => List.mem_takeWhile_imp hc⟩

/-- A literal has digits on one side of its point, and a power of ten that is read. -/
theorem isSome_numeral {whole fraction rest : List Char} (numeral : Int → Numeral) :
    (if whole.isEmpty && fraction.isEmpty then none
      else (readExponent? rest).map numeral).isSome = true ↔
      ¬(whole = [] ∧ fraction = []) ∧ Power rest := by
  rw [← readExponent?_isSome_iff, ← List.isEmpty_iff, ← List.isEmpty_iff, ← Bool.and_eq_true]
  split_ifs with hempty
  · exact iff_of_false Bool.false_ne_true fun h => h.1 hempty
  · rw [Option.isSome_map, and_iff_right hempty]

section Reading

variable {cs ds : List Char} {negative : Bool}

theorem read?_of_point {rest : List Char} (hsign : splitSign cs = (negative, ds))
    (hpoint : ds.dropWhile Char.isDigit = '.' :: rest) :
    (Numeral.read? cs).isSome = true ↔
      ¬(ds.takeWhile Char.isDigit = [] ∧ rest.takeWhile Char.isDigit = []) ∧
        Power (rest.dropWhile Char.isDigit) := by
  simp only [Numeral.read?, hsign, hpoint]
  exact isSome_numeral _

theorem read?_of_no_point (hsign : splitSign cs = (negative, ds))
    (hpoint : ∀ rest, ds.dropWhile Char.isDigit ≠ '.' :: rest) :
    (Numeral.read? cs).isSome = true ↔
      ds.takeWhile Char.isDigit ≠ [] ∧ Power (ds.dropWhile Char.isDigit) := by
  rcases hrest : ds.dropWhile Char.isDigit with _ | ⟨c, rest⟩
  · simp only [Numeral.read?, hsign, hrest]
    rw [isSome_numeral, and_iff_left rfl]
  · simp only [Numeral.read?, hsign, hrest]
    split
    next heq => exact absurd (hrest.trans heq) (hpoint _)
    next => rw [isSome_numeral, and_iff_left rfl]

end Reading

theorem magnitude_of_read {cs : List Char} (h : (Numeral.read? cs).isSome = true) :
    Magnitude (splitSign cs).2 := by
  rcases hsign : splitSign cs with ⟨negative, ds⟩
  have hsplit := List.takeWhile_append_dropWhile (p := Char.isDigit) (l := ds)
  by_cases hpoint : ∃ rest, ds.dropWhile Char.isDigit = '.' :: rest
  · obtain ⟨rest, hpoint⟩ := hpoint
    obtain ⟨hdigits, hpower⟩ := (read?_of_point hsign hpoint).mp h
    have hrest := List.takeWhile_append_dropWhile (p := Char.isDigit) (l := rest)
    have hds : ds = (ds.takeWhile Char.isDigit ++ '.' :: rest.takeWhile Char.isDigit) ++
        rest.dropWhile Char.isDigit := by
      rw [List.append_assoc, List.cons_append, hrest, ← hpoint, hsplit]
    have hsignificand : Significand
        (ds.takeWhile Char.isDigit ++ '.' :: rest.takeWhile Char.isDigit) := by
      by_cases hwhole : ds.takeWhile Char.isDigit = []
      · rw [hwhole]
        exact .fraction (isRun_takeWhile fun hfraction => hdigits ⟨hwhole, hfraction⟩)
      · exact .pointed (isRun_takeWhile hwhole) fun _ hc => List.mem_takeWhile_imp hc
    exact hds ▸ .mk hsignificand hpower
  · obtain ⟨hwhole, hpower⟩ := (read?_of_no_point hsign fun rest heq => hpoint ⟨rest, heq⟩).mp h
    exact hsplit ▸ .mk (.whole (isRun_takeWhile hwhole)) hpower

theorem read?_of_magnitude {cs ss es : List Char} {negative : Bool} (significand : Significand ss)
    (power : Power es) (hsign : splitSign cs = (negative, ss ++ es)) :
    (Numeral.read? cs).isSome = true := by
  cases significand with
  | whole digits =>
    obtain ⟨htake, hdrop⟩ := digits_append digits.digits power.takeWhile_eq_nil
    rw [read?_of_no_point hsign fun _ => hdrop.symm ▸ power.ne_point, htake, hdrop]
    exact ⟨digits.nonempty, power⟩
  | @pointed ws fs digits fraction =>
    rw [List.append_assoc, List.cons_append] at hsign
    have hpoint : ('.' :: (fs ++ es)).takeWhile Char.isDigit = [] := rfl
    obtain ⟨htake, hdrop⟩ := digits_append digits.digits hpoint
    obtain ⟨-, hpower⟩ := digits_append fraction power.takeWhile_eq_nil
    rw [read?_of_point hsign hdrop, htake, hpower]
    exact ⟨fun hnil => digits.nonempty hnil.1, power⟩
  | @fraction fs digits =>
    obtain ⟨htake, hpower⟩ := digits_append digits.digits power.takeWhile_eq_nil
    have hpoint : ('.' :: fs ++ es).dropWhile Char.isDigit = '.' :: (fs ++ es) := rfl
    rw [read?_of_point hsign hpoint, htake, hpower]
    exact ⟨fun hnil => digits.nonempty hnil.2, power⟩

theorem read?_isSome_iff {cs : List Char} :
    (Numeral.read? cs).isSome = true ↔ IsDecimalLiteral cs := by
  rw [isDecimalLiteral_iff]
  refine ⟨magnitude_of_read, fun h => ?_⟩
  rcases hsign : splitSign cs with ⟨negative, ds⟩
  rw [hsign] at h
  obtain ⟨significand, power⟩ := h
  exact read?_of_magnitude significand power hsign

def isDigitOf (base : Nat) (c : Char) : Bool := (digitValue? base c).isSome

def valueIn (base : Nat) (ds : List Char) : Nat :=
  digitsValue base (fun c => (digitValue? base c).getD 0) ds

/-- Digits of a base, of a number that fits a word of 64 bits. -/
structure IsWord (base : Nat) (ds : List Char) (n : Nat) : Prop where
  run : IsRun (isDigitOf base) ds
  value : valueIn base ds = n
  fits : n < 2 ^ 64

theorem isWord_iff {base n : Nat} {ds : List Char} :
    (if ds.isEmpty || !ds.all (isDigitOf base) then none
      else if valueIn base ds ≤ 0xFFFFFFFFFFFFFFFF then some (valueIn base ds)
      else none) = some n ↔ IsWord base ds n := by
  split_ifs with hno hfits
  · exact iff_of_false nofun fun h => isRun_iff.mp h.run hno
  · rw [Option.some.injEq]
    exact ⟨fun h => ⟨isRun_iff.mpr hno, h, by omega⟩, fun h => h.value⟩
  · refine iff_of_false nofun fun h => hfits ?_
    have := h.value
    have := h.fits
    omega

theorem not_isWord_plus {base n : Nat} {ds : List Char} : ¬IsWord base ('+' :: ds) n := by
  intro h
  have hdigit := h.run.digits '+' List.mem_cons_self
  simp [isDigitOf, digitValue?] at hdigit

/-- What is read as an unsigned number may have a plus sign in front. -/
theorem readNat?_eq_some_iff {base n : Nat} {cs : List Char} :
    readNat? base cs = some n ↔ IsWord base cs n ∨ ∃ ds, cs = '+' :: ds ∧ IsWord base ds n := by
  unfold readNat?
  split
  next ds =>
    refine isWord_iff.trans ⟨fun h => .inr ⟨ds, rfl, h⟩, fun h => ?_⟩
    obtain ⟨ds', heq, h⟩ := h.resolve_left not_isWord_plus
    rwa [(List.cons.inj heq).2]
  next hplus =>
    refine isWord_iff.trans ⟨.inl, fun h => h.resolve_right ?_⟩
    rintro ⟨ds, rfl, -⟩
    exact hplus ds rfl

end Templating.Decimal

namespace Templating
open Text Decimal

/-- The texts of numbers, apart from blanks around them. Which digits a hexadecimal literal may have
is left open. -/
inductive IsNumeric (hexadecimal : List Char → Prop) : List Char → Prop
  | blank : IsNumeric hexadecimal []
  | infinity {cs : List Char} (word : Signed (· = "Infinity".toList) cs) : IsNumeric hexadecimal cs
  | hexadecimal {x : Char} {ds : List Char} (mark : x = 'x' ∨ x = 'X') (digits : hexadecimal ds) :
      IsNumeric hexadecimal ('0' :: x :: ds)
  | decimal {cs : List Char} (literal : IsDecimalLiteral cs) : IsNumeric hexadecimal cs

/-- Hexadecimal digits of a number that fits a word, with an optional plus sign. -/
def IsHexWord (cs : List Char) : Prop :=
  ∃ n, IsWord 16 cs n ∨ ∃ ds, cs = '+' :: ds ∧ IsWord 16 ds n

theorem isSome_readHex?_iff {ds : List Char} : (readHex? ds).isSome = true ↔ IsHexWord ds := by
  rw [Option.isSome_iff_exists, IsHexWord]
  exact exists_congr fun n => readNat?_eq_some_iff

theorem isNaN_elim {α : Type} {o : Option α} {f : α → Float} (hf : ∀ a, (f a).isNaN = false) :
    (o.elim nan f).isNaN = false ↔ o.isSome = true := by
  have hnan : nan.isNaN = true := by decide
  cases o with
  | none =>
    rw [Option.elim_none, hnan]
    exact iff_of_false nofun nofun
  | some a =>
    rw [Option.elim_some, hf a]
    exact iff_of_true rfl rfl

theorem isNaN_readFloat? (cs : List Char) :
    ((readFloat? cs).getD nan).isNaN = false ↔ IsDecimalLiteral cs := by
  have helim : (readFloat? cs).getD nan = (Numeral.read? cs).elim nan Numeral.toFloat := by
    rw [readFloat?]
    cases Numeral.read? cs <;> rfl
  rw [helim, isNaN_elim isNaN_toFloat, read?_isSome_iff]

theorem signed_word_iff {cs : List Char} :
    Signed (· = "Infinity".toList) cs ↔
      (cs = "Infinity".toList ∨ cs = "+Infinity".toList) ∨ cs = "-Infinity".toList := by
  constructor
  · intro h
    cases h with
    | bare h => exact .inl (.inl h)
    | plus h => exact .inl (.inr (congrArg _ h))
    | minus h => exact .inr (congrArg _ h)
  · rintro ((rfl | rfl) | rfl)
    · exact .bare rfl
    · exact .plus rfl
    · exact .minus rfl

theorem not_isDecimalLiteral_marked {x : Char} (mark : x = 'x' ∨ x = 'X') (ds : List Char) :
    ¬IsDecimalLiteral ('0' :: x :: ds) := by
  rw [← read?_isSome_iff]
  rcases mark with rfl | rfl <;>
    simp [Numeral.read?, splitSign, readExponent?]

section

variable {hexadecimal : List Char → Prop}

theorem isNumeric_marked_iff {x : Char} (mark : x = 'x' ∨ x = 'X') {ds : List Char} :
    IsNumeric hexadecimal ('0' :: x :: ds) ↔ hexadecimal ds := by
  refine ⟨fun h => ?_, .hexadecimal mark⟩
  cases h with
  | infinity word =>
    rw [signed_word_iff] at word
    simp at word
  | hexadecimal _ digits => exact digits
  | decimal literal => exact absurd literal (not_isDecimalLiteral_marked mark ds)

theorem isNumeric_other_iff {cs : List Char} (hne : cs ≠ [])
    (hmark : ∀ x ds, x = 'x' ∨ x = 'X' → cs ≠ '0' :: x :: ds) :
    IsNumeric hexadecimal cs ↔ Signed (· = "Infinity".toList) cs ∨ IsDecimalLiteral cs := by
  constructor
  · intro h
    cases h with
    | blank => exact absurd rfl hne
    | infinity word => exact .inl word
    | hexadecimal mark _ => exact absurd rfl (hmark _ _ mark)
    | decimal literal => exact .inr literal
  · rintro (word | literal)
    · exact .infinity word
    · exact .decimal literal

end

theorem isNaN_numberOfText (cs : List Char) :
    (numberOfText cs).isNaN = false ↔ IsNumeric IsHexWord (trim cs) := by
  simp only [numberOfText]
  generalize trim cs = ts
  by_cases hempty : ts = []
  · subst hempty
    exact iff_of_true (by decide) .blank
  · rw [if_neg (by simpa using hempty)]
    split
    next ds =>
      rw [isNaN_elim (isNaN_nearest false · 1), isSome_readHex?_iff,
        isNumeric_marked_iff (.inl rfl)]
    next ds =>
      rw [isNaN_elim (isNaN_nearest false · 1), isSome_readHex?_iff,
        isNumeric_marked_iff (.inr rfl)]
    next hsmall hlarge =>
      have hmark : ∀ x ds, x = 'x' ∨ x = 'X' → ts ≠ '0' :: x :: ds := by
        rintro x ds (rfl | rfl)
        · exact hsmall ds
        · exact hlarge ds
      rw [isNumeric_other_iff hempty hmark, signed_word_iff]
      split_ifs with hplus hminus
      · exact iff_of_true (by decide) (.inl (.inl hplus))
      · exact iff_of_true (by decide) (.inl (.inr hminus))
      · rw [isNaN_readFloat?, or_iff_right (not_or.mpr ⟨hplus, hminus⟩)]

/-- A text is taken for a number when it is blank or, between blanks, an infinity, a decimal literal
or a hexadecimal one whose value fits a word, and for NaN otherwise. -/
theorem Value.isNaN_toNumber_string (s : String) :
    (Value.string s).toNumber.isNaN = false ↔ IsNumeric IsHexWord (trim s.toList) :=
  isNaN_numberOfText s.toList

/-- The words of other notations are no numbers, and neither are digits with an underscore. -/
example : (numberOfText "inf".toList).isNaN = true ∧ (numberOfText "nan".toList).isNaN = true ∧
    (numberOfText "1_000".toList).isNaN = true := by decide

/-- A plus sign behind the mark is taken, and one digit too many for a word is not. -/
theorem Value.hexadecimal_numbers :
    (Value.string "0x+5").toNumber.isNaN = false ∧
      ¬IsNumeric (IsRun isHexDigit) (trim "0x+5".toList) ∧
      (Value.string "0x10000000000000000").toNumber.isNaN = true ∧
      IsNumeric (IsRun isHexDigit) (trim "0x10000000000000000".toList) := by
  have hplus : trim "0x+5".toList = '0' :: 'x' :: ['+', '5'] := by decide
  have hlong : trim "0x10000000000000000".toList = '0' :: 'x' :: "10000000000000000".toList := by
    decide
  rw [hplus, hlong, isNumeric_marked_iff (.inl rfl), isNumeric_marked_iff (.inl rfl), isRun_iff,
    isRun_iff]
  decide

end Templating
