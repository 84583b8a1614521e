import Templating.Eval.Builtin

/-!
Texts as parts of an address. What is left of a text is unreserved characters and groups of three: a
percent sign and the two upper-case digits of a byte. Decoding the groups gives the bytes of UTF-8
of the text, so that nothing is lost.
-/
namespace Templating.Text

/-- The characters besides letters and digits that a part of an address may have as they are. -/
def addressMarks : List Char := ['-', '_', '.', '!', '~', '*', '\x27', '(', ')']

def upperHexDigits : List Char :=
  ['0', '1', '2', '3', '4', '5', '6', '7', '8', '9', 'A', 'B', 'C', 'D', 'E', 'F']

/-- What a part of an address is made of. -/
inductive IsAddressPart : List Char → Prop
  | nil : IsAddressPart []
  | plain {c : Char} {cs : List Char}
      (hc : c.isAlpha = true ∨ c.isDigit = true ∨ c ∈ addressMarks) (h : IsAddressPart cs) :
      IsAddressPart (c :: cs)
  | group {high low : Char} {cs : List Char} (hhigh : high ∈ upperHexDigits)
      (hlow : low ∈ upperHexDigits) (h : IsAddressPart cs) :
      IsAddressPart ('%' :: high :: low :: cs)

/-- The bytes that a text stands for when each percent sign and the two hexadecimal digits after it
are one byte. There are none when a percent sign has no two digits after it. -/
def percentDecode? : List Char → Option (List Nat)
  | [] => some []
  | '%' :: high :: low :: cs => do
    let h ← Decimal.digitValue? 16 high
    let l ← Decimal.digitValue? 16 low
    let bytes ← percentDecode? cs
    return (h * 16 + l) :: bytes
  | c :: cs => do
    if c = '%' then none
    let bytes ← percentDecode? cs
    return utf8Bytes [c] ++ bytes

theorem utf8Bytes_lt {cs : List Char} {b : Nat} (h : b ∈ utf8Bytes cs) : b < 256 := by
  simp only [utf8Bytes, List.mem_flatMap, List.mem_map] at h
  obtain ⟨c, -, byte, -, rfl⟩ := h
  exact byte.toNat_lt

theorem utf8Bytes_toList (s : String) :
    utf8Bytes s.toList = s.toUTF8.data.toList.map UInt8.toNat := by
  rw [String.toUTF8_eq_toByteArray, ← String.utf8Encode_toList, List.utf8Encode,
    List.toList_data_toByteArray, List.map_flatMap]
  rfl

theorem utf8Bytes_injective {s t : String} (h : utf8Bytes s.toList = utf8Bytes t.toList) :
    s = t := by
  rw [utf8Bytes_toList, utf8Bytes_toList] at h
  have hbytes := (List.map_inj_right fun _ _ => UInt8.toNat_inj.mp).mp h
  rw [String.toUTF8_eq_toByteArray, String.toUTF8_eq_toByteArray] at hbytes
  exact String.toByteArray_inj.mp (ByteArray.ext (Array.toList_inj.mp hbytes))

/-- A character of ASCII is a byte. -/
theorem utf8Bytes_ofNat {b : Nat} (h : b < 128) : utf8Bytes [Char.ofNat b] = [b] := by
  have hall : ∀ b < 128, utf8Bytes [Char.ofNat b] = [b] := by decide
  exact hall b h

theorem upperHexDigit_mem {n : Nat} (h : n < 16) : upperHexDigit n ∈ upperHexDigits := by
  have hall : ∀ n < 16, upperHexDigit n ∈ upperHexDigits := by decide
  exact hall n h

theorem digitValue?_upperHexDigit {n : Nat} (h : n < 16) :
    Decimal.digitValue? 16 (upperHexDigit n) = some n := by
  have hall : ∀ n < 16, Decimal.digitValue? 16 (upperHexDigit n) = some n := by decide
  exact hall n h

theorem plain_of_isUnreserved {c : Char} (h : isUnreserved c = true) :
    c.isAlpha = true ∨ c.isDigit = true ∨ c ∈ addressMarks := by
  simpa [isUnreserved, addressMarks, Char.isAlphanum, or_assoc] using h

theorem IsAddressPart.percentByte_append {b : Nat} {cs : List Char} (hb : b < 256)
    (h : IsAddressPart cs) : IsAddressPart (percentByte b ++ cs) := by
  unfold percentByte
  split
  · rename_i hplain
    simp only [Bool.and_eq_true] at hplain
    exact .plain (plain_of_isUnreserved hplain.2) h
  · exact .group (upperHexDigit_mem (by omega)) (upperHexDigit_mem (by omega)) h

theorem isAddressPart_flatMap {bytes : List Nat} (h : ∀ b ∈ bytes, b < 256) :
    IsAddressPart (bytes.flatMap percentByte) := by
  induction bytes with
  | nil => exact .nil
  | cons b bytes ih =>
    simp only [List.forall_mem_cons] at h
    exact (ih h.2).percentByte_append h.1

theorem percentDecode?_group {n m : Nat} (hn : n < 16) (hm : m < 16) (cs : List Char) :
    percentDecode? ('%' :: upperHexDigit n :: upperHexDigit m :: cs) =
      (percentDecode? cs).map ((n * 16 + m) :: ·) := by
  cases h : percentDecode? cs <;>
    simp [percentDecode?, digitValue?_upperHexDigit hn, digitValue?_upperHexDigit hm, h]

theorem percentDecode?_plain {c : Char} (hc : c ≠ '%') (cs : List Char) :
    percentDecode? (c :: cs) = (percentDecode? cs).map (utf8Bytes [c] ++ ·) := by
  rw [percentDecode?]
  · cases h : percentDecode? cs <;> simp [hc]
  · simp [hc]

theorem percentDecode?_percentByte {b : Nat} (hb : b < 256) (cs : List Char) :
    percentDecode? (percentByte b ++ cs) = (percentDecode? cs).map (b :: ·) := by
  unfold percentByte
  split
  · rename_i hplain
    simp only [Bool.and_eq_true, decide_eq_true_eq] at hplain
    have hne : Char.ofNat b ≠ '%' := by
      intro heq
      rw [heq] at hplain
      exact absurd hplain.2 (by decide)
    rw [List.singleton_append, percentDecode?_plain hne, utf8Bytes_ofNat hplain.1]
    rfl
  · rw [List.cons_append, List.cons_append, List.singleton_append,
      percentDecode?_group (by omega) (by omega), Nat.div_add_mod']

theorem percentDecode?_flatMap {bytes : List Nat} (h : ∀ b ∈ bytes, b < 256) :
    percentDecode? (bytes.flatMap percentByte) = some bytes := by
  induction bytes with
  | nil => rfl
  | cons b bytes ih =>
    simp only [List.forall_mem_cons] at h
    rw [List.flatMap_cons, percentDecode?_percentByte h.1, ih h.2]
    rfl

theorem percentDecode?_percentEncode (cs : List Char) :
    percentDecode? (percentEncode cs) = some (utf8Bytes cs) :=
  percentDecode?_flatMap fun _ => utf8Bytes_lt

theorem percentEncode_injective {s t : String}
    (h : percentEncode s.toList = percentEncode t.toList) : s = t := by
  have hbytes := congrArg percentDecode? h
  rw [percentDecode?_percentEncode, percentDecode?_percentEncode, Option.some.injEq] at hbytes
  exact utf8Bytes_injective hbytes

end Text

namespace Builtin

/-- The text becomes another one as a part of an address. -/
def EncodesTo (s t : String) : Prop :=
  ∀ (σ : Type) (st : EvalState σ),
    (Builtin.run .encodeComponent [.string s] : EvalM σ Value).run.run st = (.ok (.string t), st)

open Text

theorem encodesTo_iff {s t : String} : EncodesTo s t ↔ t.toList = percentEncode s.toList := by
  have hrun : EncodesTo s (String.ofList (percentEncode s.toList)) := fun _ _ => rfl
  constructor
  · intro h
    have hsame := (h Unit ⟨0, 0, ()⟩).symm.trans (hrun Unit ⟨0, 0, ()⟩)
    injection hsame with hvalue
    injection hvalue with hvalue
    injection hvalue with htext
    rw [htext, String.toList_ofList]
  · intro h
    rwa [← String.ofList_toList (s := t), h]

/-- Every text has a form for addresses: letters and digits of ASCII, nine marks, and groups of a
percent sign and two upper-case hexadecimal digits. Decoding it gives the bytes of UTF-8 of the
text, and so different texts have different forms. The form of two texts one after the other is made
of their forms. -/
theorem component_keeps_text (s : String) : ∃ t, EncodesTo s t ∧ IsAddressPart t.toList ∧
    percentDecode? t.toList = some (s.toUTF8.data.toList.map UInt8.toNat) ∧
    ∀ s' t', EncodesTo s' t' → (t' = t → s' = s) ∧ EncodesTo (s ++ s') (t ++ t') := by
  refine ⟨String.ofList (percentEncode s.toList), ?_⟩
  simp only [encodesTo_iff, String.toList_ofList, String.toList_append]
  refine ⟨trivial, isAddressPart_flatMap fun _ => utf8Bytes_lt, ?_, ?_⟩
  · rw [percentDecode?_percentEncode, utf8Bytes_toList]
  · intro s' t' h
    constructor
    · intro heq
      subst heq
      rw [String.toList_ofList] at h
      exact (percentEncode_injective h).symm
    · rw [h, percentEncode_append]

/-- A percent sign that is in the text itself. -/
example : EncodesTo "50%20 é" "50%2520%20%C3%A9" := encodesTo_iff.mpr (by decide)

end Builtin
end Templating
