import Templating.Eval.Builtin
import Templating.Eval.Operator
import Templating.Proofs.NumericTexts

/-!
Keys of arrays. The keys that a loop over an array visits are the decimal texts of its positions.
Asking for a key and reading it take a key for the number that it is read as, so that such a text is
also taken with zeros or a plus sign in front; no other key but `length` is one.
-/
namespace Templating.Decimal

theorem decimalDigitValue_lt {c : Char} (h : c.isDigit = true) : decimalDigitValue c < 10 := by
  have hnine : c.toNat ≤ '9'.toNat := by
    rw [Char.isDigit, Bool.and_eq_true, decide_eq_true_eq, decide_eq_true_eq] at h
    exact UInt32.le_iff_toNat_le.mp h.2
  change c.toNat - 48 < 10
  change c.toNat ≤ 57 at hnine
  omega

theorem digitChar_decimalDigitValue {c : Char} (h : c.isDigit = true) :
    Nat.digitChar (decimalDigitValue c) = c := by
  apply Char.toNat_inj.mp
  have hzero : '0'.toNat ≤ c.toNat := by
    rw [Char.isDigit, Bool.and_eq_true, decide_eq_true_eq, decide_eq_true_eq] at h
    exact UInt32.le_iff_toNat_le.mp h.1
  rw [Nat.toNat_digitChar_of_lt_ten (decimalDigitValue_lt h)]
  change 48 ≤ c.toNat at hzero
  change 48 + (c.toNat - 48) = c.toNat
  omega

theorem digitValue?_ten (c : Char) :
    digitValue? 10 c = if c.isDigit then some (decimalDigitValue c) else none := by
  unfold digitValue?
  split_ifs with hdigit
  · exact if_pos (decimalDigitValue_lt hdigit)
  · exact if_neg (by omega)
  · exact if_neg (by omega)
  · exact if_neg (by omega)

/-- Digits are those of their number, with zeros in front. -/
theorem exists_zeros_append {ds : List Char} (h : IsRun Char.isDigit ds) :
    ∃ k, ds = zeros k ++ decimalDigits (decimalValue ds) := by
  induction ds using List.reverseRecOn with
  | nil => exact absurd rfl h.nonempty
  | append_singleton ds c ih =>
    have hc : c.isDigit = true := h.digits c (by simp)
    have hone : decimalDigits (decimalDigitValue c) = [c] := by
      rw [decimalDigits, Nat.toDigits_of_lt_base (decimalDigitValue_lt hc),
        digitChar_decimalDigitValue hc]
    have hvalue : decimalValue (ds ++ [c]) = 10 * decimalValue ds + decimalDigitValue c := by
      rw [decimalValue_append, mul_comm]
      simp [decimalValue, digitsValue]
    by_cases hds : ds = []
    · refine ⟨0, ?_⟩
      rw [hvalue, hds]
      exact (congrArg decimalDigits (Nat.zero_add _)).trans hone |>.symm
    · obtain ⟨k, hk⟩ := ih ⟨hds, fun d hd => h.digits d (List.mem_append_left [c] hd)⟩
      rw [hvalue]
      -- zeros alone come before the last digit, or the digits of a number to which it is added
      rcases Nat.eq_zero_or_pos (decimalValue ds) with hzero | hpos
      · have hzeros : zeros (k + 1) = zeros k ++ decimalDigits 0 := List.replicate_succ'
        refine ⟨k + 1, ?_⟩
        rw [hzero] at hk ⊢
        rw [hzeros, ← hk, Nat.mul_zero, Nat.zero_add, hone]
      · have hmore : decimalDigits (decimalValue ds) ++ decimalDigits (decimalDigitValue c) =
            decimalDigits (10 * decimalValue ds + decimalDigitValue c) :=
          Nat.toDigits_append_toDigits (by decide) hpos (decimalDigitValue_lt hc)
        refine ⟨k, ?_⟩
        rw [← hmore, hone, ← List.append_assoc, ← hk]

theorem isDigitOf_ten : isDigitOf 10 = Char.isDigit := by
  funext c
  rw [isDigitOf, digitValue?_ten]
  cases c.isDigit <;> rfl

theorem valueIn_ten {ds : List Char} (h : ∀ c ∈ ds, c.isDigit = true) :
    valueIn 10 ds = decimalValue ds :=
  List.foldl_ext _ _ _ fun n c hc => by
    simp only [digitValue?_ten, if_pos (h c hc), Option.getD_some, decimalDigitValue]

theorem isDigit_of_mem_zeros_append {k n : Nat} {c : Char}
    (h : c ∈ zeros k ++ decimalDigits n) : c.isDigit = true :=
  (List.mem_append.mp h).elim isDigit_of_mem_zeros isDigit_of_mem_decimalDigits

theorem isWord_ten_iff {ds : List Char} {n : Nat} :
    IsWord 10 ds n ↔ n < 2 ^ 64 ∧ ∃ k, ds = zeros k ++ decimalDigits n := by
  constructor
  · intro h
    have hrun : IsRun Char.isDigit ds := isDigitOf_ten ▸ h.run
    have hvalue := valueIn_ten hrun.digits
    obtain ⟨k, hk⟩ := exists_zeros_append hrun
    rw [← hvalue, h.value] at hk
    exact ⟨h.fits, k, hk⟩
  · rintro ⟨hfits, k, rfl⟩
    have hrun : IsRun Char.isDigit (zeros k ++ decimalDigits n) :=
      ⟨List.append_ne_nil_of_right_ne_nil _ Nat.toDigits_ne_nil,
        fun c hc => isDigit_of_mem_zeros_append hc⟩
    refine ⟨isDigitOf_ten.symm ▸ hrun, ?_, hfits⟩
    rw [valueIn_ten hrun.digits, decimalValue_append, decimalValue_zeros,
      decimalValue_decimalDigits]
    simp

end Templating.Decimal

namespace Templating.Value
open Decimal

/-- A key with any number of zeros in front, and an optional plus sign in front of these. -/
def Spells (k key : String) : Prop :=
  ∃ n, k.toList = zeros n ++ key.toList ∨ k.toList = '+' :: (zeros n ++ key.toList)

theorem readIndex?_eq_some_iff {k : String} {i : Nat} :
    readIndex? k.toList = some i ↔ i < 2 ^ 64 ∧ Spells k (toString i) := by
  have hdigits : (toString i).toList = decimalDigits i := Nat.toList_repr
  rw [readIndex?, readNat?_eq_some_iff, Spells, hdigits]
  simp only [isWord_ten_iff]
  constructor
  · rintro (⟨hfits, n, hk⟩ | ⟨ds, hk, hfits, n, rfl⟩)
    · exact ⟨hfits, n, .inl hk⟩
    · exact ⟨hfits, n, .inr hk⟩
  · rintro ⟨hfits, n, hk | hk⟩
    · exact .inl ⟨hfits, n, hk⟩
    · exact .inr ⟨_, hk, hfits, n, rfl⟩

theorem itemAt?_eq_some_iff {items : List Value} {k : String} {v : Value} :
    itemAt? items k = some v ↔
      ∃ i, i < 2 ^ 64 ∧ Spells k (toString i) ∧ items[i]? = some v := by
  simp only [itemAt?, Option.bind_eq_some_iff, readIndex?_eq_some_iff, and_assoc]

theorem Spells.refl (key : String) : Spells key key := ⟨0, .inl rfl⟩

theorem Spells.ne_length {k : String} {i : Nat} (h : Spells k (toString i)) (hi : i < 2 ^ 64) :
    k ≠ "length" := by
  rintro rfl
  have hnone : readIndex? "length".toList = none := by decide
  rw [readIndex?_eq_some_iff.mpr ⟨hi, h⟩] at hnone
  cases hnone

/-- A key without a plus sign and without a zero in front of other characters. -/
def IsPlain (k : String) : Prop :=
  k.toList.head? ≠ some '+' ∧ (k.toList.head? = some '0' → k = "0")

theorem Spells.eq_of_isPlain {k : String} {i : Nat} (h : Spells k (toString i))
    (plain : IsPlain k) : k = toString i := by
  have hdigits : (toString i).toList = decimalDigits i := Nat.toList_repr
  have hne : decimalDigits i ≠ [] := Nat.toDigits_ne_nil
  obtain ⟨n, hk | hk⟩ := h
  · cases n with
    | zero => exact String.toList_inj.mp hk
    | succ n =>
      have hzero : k = "0" := plain.2 (by rw [hk]; rfl)
      rw [hzero, hdigits] at hk
      have hnil : zeros n ++ decimalDigits i = [] := (List.cons.inj hk).2.symm
      exact absurd (List.append_eq_nil_iff.mp hnil).2 hne
  · exact absurd (by rw [hk]; rfl) plain.1

/-- The keys that a `for` loop visits. -/
def listedKeys (v : Value) : List String := v.entries.map (·.1)

/-- The keys of a value are those listed, by whatever relation a key names a listed one, and
besides them `length`; what is read at a key is the item of the listed one, and undefined when there
is none. -/
structure ReadsBy (names : String → String → Prop) (v : Value) (k : String) : Prop where
  isKey : BinaryOp.isKey.apply (string k) v = .ok (bool true) ↔
    k = "length" ∨ ∃ key ∈ v.listedKeys, names k key
  item : ∀ key w, (key, w) ∈ v.entries → names k key → v.property k = .ok w
  nothing : k ≠ "length" → (∀ key ∈ v.listedKeys, ¬names k key) → v.property k = .ok undefined

theorem run_keys {σ : Type} (v : Value) :
    Builtin.keys.run [v] = (EvalM.newArray (v.listedKeys.map string) : EvalM σ Value) := by
  rw [listedKeys, List.map_map]
  rfl

section

variable {id : Nat} {items : List Value} {k : String}

theorem mem_entries_array {key : String} {w : Value} :
    (key, w) ∈ (array id items).entries ↔ ∃ i : Nat, toString i = key ∧ items[i]? = some w := by
  simp [entries, positioned, List.getElem?_eq_some_iff]

theorem mem_listedKeys_array {key : String} :
    key ∈ (array id items).listedKeys ↔ ∃ i < items.length, toString i = key := by
  simp [listedKeys, entries, positioned]

theorem isKey_array : BinaryOp.isKey.apply (string k) (array id items) = .ok (bool true) ↔
    k = "length" ∨ ∃ w, itemAt? items k = some w := by
  have happly : BinaryOp.isKey.apply (string k) (array id items) =
      .ok (bool (k == "length" || (itemAt? items k).isSome)) := rfl
  rw [happly]
  simp [Option.isSome_iff_exists]

/-- It is enough that the relation holds of the texts of the positions that a key is read as. -/
theorem readsBy_array {names : String → String → Prop} (fits : items.length ≤ 2 ^ 64)
    (h : ∀ i : Nat, names k (toString i) ↔ Spells k (toString i)) :
    ReadsBy names (array id items) k where
  isKey := by
    rw [isKey_array]
    refine or_congr_right ⟨?_, ?_⟩
    · rintro ⟨w, hw⟩
      obtain ⟨i, -, hspells, hitem⟩ := itemAt?_eq_some_iff.mp hw
      have hlt : i < items.length := (List.getElem?_eq_some_iff.mp hitem).1
      exact ⟨toString i, mem_listedKeys_array.mpr ⟨i, hlt, rfl⟩, (h i).mpr hspells⟩
    · rintro ⟨key, hkey, hnames⟩
      obtain ⟨i, hlt, rfl⟩ := mem_listedKeys_array.mp hkey
      exact ⟨items[i], itemAt?_eq_some_iff.mpr
        ⟨i, hlt.trans_le fits, (h i).mp hnames, List.getElem?_eq_getElem hlt⟩⟩
  item := by
    intro key w hentry hnames
    obtain ⟨i, rfl, hitem⟩ := mem_entries_array.mp hentry
    have hlt : i < items.length := (List.getElem?_eq_some_iff.mp hitem).1
    have hspells := (h i).mp hnames
    have hword : i < 2 ^ 64 := hlt.trans_le fits
    rw [property, if_neg (hspells.ne_length hword),
      itemAt?_eq_some_iff.mpr ⟨i, hword, hspells, hitem⟩, Option.getD_some]
  nothing := by
    intro hlength hnone
    have hmissing : itemAt? items k = none := by
      rw [Option.eq_none_iff_forall_ne_some]
      intro w hw
      obtain ⟨i, -, hspells, hitem⟩ := itemAt?_eq_some_iff.mp hw
      have hlt : i < items.length := (List.getElem?_eq_some_iff.mp hitem).1
      exact hnone (toString i) (mem_listedKeys_array.mpr ⟨i, hlt, rfl⟩) ((h i).mpr hspells)
    rw [property, if_neg hlength, hmissing, Option.getD_none]

end

/-- An array whose positions fit words has the keys that are listed, with any zeros and a plus sign
in front, and `length`. Of these the plain ones are just those listed. -/
theorem array_keys (id : Nat) {items : List Value} (fits : items.length ≤ 2 ^ 64) (k : String) :
    ReadsBy Spells (array id items) k ∧ (IsPlain k → ReadsBy (· = ·) (array id items) k) ∧
      ∀ σ : Type, Builtin.keys.run [array id items] =
        (EvalM.newArray ((array id items).listedKeys.map string) : EvalM σ Value) := by
  refine ⟨readsBy_array fits fun i => Iff.rfl, fun plain => ?_, fun σ => run_keys _⟩
  refine readsBy_array fits fun i => ⟨?_, fun h => h.eq_of_isPlain plain⟩
  rintro rfl
  exact .refl _

theorem array_keys_of_two :
    [null, undefined].length ≤ 2 ^ 64 ∧ IsPlain "1" ∧
      ReadsBy Spells (array 4 [null, undefined]) "+01" ∧
      ReadsBy (· = ·) (array 4 [null, undefined]) "1" := by
  have fits : [null, undefined].length ≤ 2 ^ 64 := by decide
  have plain : IsPlain "1" := ⟨by decide, by decide⟩
  exact ⟨fits, plain, (array_keys 4 fits "+01").1, (array_keys 4 fits "1").2.1 plain⟩

/-- A zero in front of a position is taken, though no such key is listed. -/
theorem zero_before_position :
    BinaryOp.isKey.apply (string "01") (array 4 [null, undefined]) = .ok (bool true) ∧
      (array 4 [null, undefined]).listedKeys = ["0", "1"] ∧
      ¬ReadsBy (· = ·) (array 4 [null, undefined]) "01" := by
  have hkey : BinaryOp.isKey.apply (string "01") (array 4 [null, undefined]) = .ok (bool true) :=
    rfl
  have hlisted : (array 4 [null, undefined]).listedKeys = ["0", "1"] := rfl
  refine ⟨hkey, hlisted, fun h => ?_⟩
  have hnamed := h.isKey.mp hkey
  rw [hlisted] at hnamed
  simp at hnamed

end Templating.Value
