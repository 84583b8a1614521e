import Mathlib.Data.List.TakeWhile
import Templating.Text.Reference

/-!
What becomes of a text that is made safe for markup: the characters that open, close or quote markup
are gone from it, and yet nothing is lost. An ampersand that is left either stood in the text before
a name and a semicolon, or begins one of six references, and reading these back from left to right
gives the text again.
-/
namespace Templating.Text

/-- The characters that no markup-safe text holds. -/
def markupMarks : List Char := ['<', '>', '\x22', '\x27', '/']

def references : List (List Char × Char) :=
  [("&#38;".toList, '&'), ("&#60;".toList, '<'), ("&#62;".toList, '>'), ("&#34;".toList, '\x22'),
    ("&#39;".toList, '\x27'), ("&#47;".toList, '/')]

/-- Replaces the six references from left to right, each by its character. -/
def decode : List Char → List Char
  | [] => []
  | c :: cs =>
    match references.find? fun r => r.1.isPrefixOf (c :: cs) with
    | some (written, meant) => meant :: decode (cs.drop (written.length - 1))
    | none => c :: decode cs
termination_by cs => cs.length

structure IsReferenceName (name : List Char) : Prop where
  nonempty : name ≠ []
  word : ∀ c ∈ name, isWordChar c = true

/-- Why an ampersand is found in encoded text: what stands in the text itself from there on, and in
the encoded text after the ampersand. -/
inductive AmpersandOf : List Char → List Char → Prop
  /-- The text has it before a name and a semicolon, and all of these are left as they are. -/
  | kept {name rest : List Char} (h : IsReferenceName name) :
      AmpersandOf ('&' :: (name ++ ';' :: rest)) (name ++ ';' :: encode rest)
  /-- It begins the reference of a character. -/
  | begins {c : Char} {after rest : List Char} (h : ('&' :: after, c) ∈ references) :
      AmpersandOf (c :: rest) (after ++ encode rest)

theorem isMarkup_iff {c : Char} : isMarkup c = true ↔ c = '&' ∨ c ∈ markupMarks := by
  simp [isMarkup, markupMarks, or_assoc]

/-- A reference is an ampersand and characters that are none and no markup. -/
theorem exists_reference {c : Char} (h : isMarkup c = true) :
    ∃ after, reference c = '&' :: after ∧ ('&' :: after, c) ∈ references ∧
      ∀ d ∈ after, isMarkup d = false := by
  simp only [isMarkup_iff, markupMarks, List.mem_cons, List.not_mem_nil, or_false] at h
  have hplain {after : List Char} (hall : after.all (fun d => !isMarkup d) = true) :
      ∀ d ∈ after, isMarkup d = false := fun d hd => by
    simpa using List.all_eq_true.mp hall d hd
  rcases h with rfl | rfl | rfl | rfl | rfl | rfl <;>
    exact ⟨_, rfl, by decide, hplain (by decide)⟩

theorem isWordChar_plain {c : Char} (h : isWordChar c = true) : isMarkup c = false ∧ c ≠ ';' := by
  refine ⟨?_, ?_⟩
  · rw [Bool.eq_false_iff]
    intro hmarkup
    simp only [isMarkup_iff, markupMarks, List.mem_cons, List.not_mem_nil, or_false] at hmarkup
    rcases hmarkup with rfl | rfl | rfl | rfl | rfl | rfl <;> cases h
  · rintro rfl
    cases h

theorem beginsReference_iff {cs : List Char} : beginsReference cs = true ↔
    ∃ name rest, IsReferenceName name ∧ cs = name ++ ';' :: rest := by
  constructor
  · intro h
    rw [beginsReference, Bool.and_eq_true, beq_iff_eq, List.head?_eq_some_iff] at h
    obtain ⟨hhead, rest, hrest⟩ := h
    refine ⟨cs.takeWhile isWordChar, rest, ⟨?_, fun c hc => List.mem_takeWhile_imp hc⟩, ?_⟩
    · cases cs with
      | nil => cases hhead
      | cons c cs =>
        have hc : isWordChar c = true := hhead
        rw [List.takeWhile_cons_of_pos hc]
        exact List.cons_ne_nil _ _
    · rw [← hrest, List.takeWhile_append_dropWhile]
  · rintro ⟨name, rest, hname, rfl⟩
    obtain ⟨c, name', rfl⟩ := List.exists_cons_of_ne_nil hname.nonempty
    have hsemicolon : isWordChar ';' = false := rfl
    rw [beginsReference, List.dropWhile_append_of_pos hname.word,
      List.dropWhile_cons_of_neg (by simp [hsemicolon])]
    simp [hname.word c List.mem_cons_self]

theorem decode_reference {c : Char} (h : isMarkup c = true) (rest : List Char) :
    decode (reference c ++ rest) = c :: decode rest := by
  simp only [isMarkup_iff, markupMarks, List.mem_cons, List.not_mem_nil, or_false] at h
  rcases h with rfl | rfl | rfl | rfl | rfl | rfl <;> exact (decode.eq_def _).trans rfl

/-- What does not begin with an ampersand and a number sign is no reference. -/
theorem decode_cons {c : Char} {cs : List Char} (h : c = '&' → cs.head? ≠ some '#') :
    decode (c :: cs) = c :: decode cs := by
  have hnone : references.find? (fun r => r.1.isPrefixOf (c :: cs)) = none := by
    rw [List.find?_eq_none]
    intro r hr hprefix
    obtain ⟨tail, htail⟩ := List.isPrefixOf_iff_prefix.mp hprefix
    have hbegin : ∃ after, r.1 = '&' :: '#' :: after := by
      simp only [references, List.mem_cons, List.not_mem_nil, or_false] at hr
      rcases hr with rfl | rfl | rfl | rfl | rfl | rfl <;> exact ⟨_, rfl⟩
    obtain ⟨after, hafter⟩ := hbegin
    rw [hafter] at htail
    obtain ⟨rfl, rfl⟩ := List.cons.inj htail
    exact h rfl rfl
  rw [decode, hnone]

theorem decode_plain {c : Char} {cs : List Char} (h : isMarkup c = false) :
    decode (c :: cs) = c :: decode cs := by
  refine decode_cons ?_
  rintro rfl
  cases h

/-- The beginning of what follows a kept ampersand does not make it a reference. -/
theorem decode_kept {name before rest : List Char} (hname : IsReferenceName name)
    (h : before <+: name ++ rest) : decode ('&' :: before) = '&' :: decode before := by
  refine decode_cons fun _ hhead => ?_
  obtain ⟨cs, rfl⟩ := List.head?_eq_some_iff.mp hhead
  obtain ⟨c, name', rfl⟩ := List.exists_cons_of_ne_nil hname.nonempty
  obtain ⟨rfl, -⟩ := List.cons_prefix_cons.mp h
  cases hname.word _ List.mem_cons_self

theorem encode_plain {c : Char} {cs : List Char}
    (h : isMarkup c = false ∨ c = '&' ∧ beginsReference cs = true) :
    encode (c :: cs) = c :: encode cs := by
  rcases h with h | ⟨rfl, h⟩ <;> simp [encode, h]

theorem encode_markup {c : Char} {cs : List Char} (h : isMarkup c = true)
    (hkept : ¬ (c = '&' ∧ beginsReference cs = true)) :
    encode (c :: cs) = reference c ++ encode cs := by
  have hreplaced : (isMarkup c && !(c == '&' && beginsReference cs)) = true := by
    rw [h, Bool.true_and, Bool.not_eq_true', Bool.eq_false_iff]
    simpa only [ne_eq, Bool.and_eq_true, beq_iff_eq] using hkept
  rw [encode, if_pos hreplaced]

theorem encode_name {name : List Char} (h : ∀ c ∈ name, isWordChar c = true) (rest : List Char) :
    encode (name ++ ';' :: rest) = name ++ ';' :: encode rest := by
  induction name with
  | nil => exact encode_plain (.inl rfl)
  | cons c name ih =>
    rw [List.cons_append, encode_plain (.inl (isWordChar_plain (h c List.mem_cons_self)).1),
      ih fun d hd => h d (List.mem_cons_of_mem c hd), List.cons_append]

/-- A character is left as it is when it is no markup, or an ampersand before a name and a
semicolon; any other becomes a reference. -/
theorem encode_cons (c : Char) (cs : List Char) :
    (isMarkup c = false ∧ encode (c :: cs) = c :: encode cs) ∨
      (∃ name rest, IsReferenceName name ∧ c = '&' ∧ cs = name ++ ';' :: rest ∧
        encode (c :: cs) = '&' :: (name ++ ';' :: encode rest)) ∨
      (isMarkup c = true ∧ encode (c :: cs) = reference c ++ encode cs) := by
  by_cases hc : isMarkup c = true
  · by_cases hkept : c = '&' ∧ beginsReference cs = true
    · obtain ⟨name, rest, hname, rfl⟩ := beginsReference_iff.mp hkept.2
      refine .inr (.inl ⟨name, rest, hname, hkept.1, rfl, ?_⟩)
      rw [encode_plain (.inr hkept), encode_name hname.word, hkept.1]
    · exact .inr (.inr ⟨hc, encode_markup hc hkept⟩)
  · rw [Bool.not_eq_true] at hc
    exact .inl ⟨hc, encode_plain (.inl hc)⟩

/-- What comes before a character that is not in the first part reaches to the end of that part. -/
theorem exists_append_of_not_mem {α : Type} {first rest before after : List α} {a : α}
    (hmem : a ∉ first) (h : first ++ rest = before ++ a :: after) :
    ∃ more, before = first ++ more ∧ rest = more ++ a :: after := by
  rcases List.append_eq_append_iff.mp h with ⟨more, hbefore, hrest⟩ | ⟨more, hfirst, hrest⟩
  · exact ⟨more, hbefore, hrest⟩
  · cases more with
    | nil => exact ⟨[], by rw [hfirst, List.append_nil, List.append_nil], hrest.symm⟩
    | cons b more =>
      obtain ⟨rfl, -⟩ := List.cons.inj hrest
      rw [hfirst] at hmem
      exact absurd (List.mem_append_right _ List.mem_cons_self) hmem

theorem decode_encode (text : List Char) : decode (encode text) = text := by
  induction text with
  | nil => rw [encode, decode]
  | cons c cs ih =>
    rcases encode_cons c cs with ⟨hc, h⟩ | ⟨name, rest, hname, rfl, hcs, h⟩ | ⟨hc, h⟩
    · rw [h, decode_plain hc, ih]
    · have hrest : encode cs = name ++ ';' :: encode rest := by rw [hcs, encode_name hname.word]
      rw [h, decode_kept hname (List.prefix_refl _), ← hrest, ih]
    · rw [h, decode_reference hc, ih]

theorem not_mem_encode {c : Char} (h : c ∈ markupMarks) (text : List Char) : c ∉ encode text := by
  have hmarkup : isMarkup c = true := isMarkup_iff.mpr (.inr h)
  have hamp : c ≠ '&' := by
    rintro rfl
    revert h
    decide
  induction text with
  | nil => exact List.not_mem_nil
  | cons d ds ih =>
    rcases encode_cons d ds with ⟨hd, henc⟩ | ⟨name, rest, hname, rfl, hds, henc⟩ | ⟨hd, henc⟩
    · rw [henc, List.mem_cons, not_or]
      refine ⟨?_, ih⟩
      rintro rfl
      rw [hd] at hmarkup
      cases hmarkup
    · rw [henc, ← encode_name hname.word, ← hds, List.mem_cons, not_or]
      exact ⟨hamp, ih⟩
    · obtain ⟨after, href, -, hafter⟩ := exists_reference hd
      rw [henc, href, List.cons_append, List.mem_cons, List.mem_append, not_or, not_or]
      refine ⟨hamp, fun hmem => ?_, ih⟩
      rw [hafter c hmem] at hmarkup
      cases hmarkup

/-- Where an ampersand stands in encoded text, what comes before it decodes to the text before the
character that it comes from. -/
theorem ampersandOf_of_encode {text before after : List Char}
    (h : encode text = before ++ '&' :: after) :
    ∃ rest, text = decode before ++ rest ∧ AmpersandOf rest after := by
  induction text generalizing before with
  | nil => cases before <;> cases h
  | cons c cs ih =>
    rcases encode_cons c cs with ⟨hc, henc⟩ | ⟨name, rest, hname, rfl, hcs, henc⟩ | ⟨hc, henc⟩
    · rw [henc] at h
      cases before with
      | nil =>
        cases h
        cases hc
      | cons b before =>
        obtain ⟨rfl, htail⟩ := List.cons.inj h
        obtain ⟨rest, rfl, hrest⟩ := ih htail
        exact ⟨rest, by rw [decode_plain hc, List.cons_append], hrest⟩
    · rw [henc] at h
      cases before with
      | nil =>
        cases h
        exact ⟨_, by rw [decode, List.nil_append, hcs], .kept hname⟩
      | cons b before =>
        obtain ⟨rfl, htail⟩ := List.cons.inj h
        have hbefore : before <+: name ++ ';' :: encode rest := ⟨_, htail.symm⟩
        rw [← encode_name hname.word, ← hcs] at htail
        obtain ⟨rest, hsplit, hrest⟩ := ih htail
        exact ⟨rest, by rw [decode_kept hname hbefore, List.cons_append, ← hsplit], hrest⟩
    · obtain ⟨after', href, hmem, hafter⟩ := exists_reference hc
      cases before with
      | nil =>
        rw [henc, href] at h
        cases h
        exact ⟨_, by rw [decode, List.nil_append], .begins hmem⟩
      | cons b before =>
        rw [henc, href] at h
        obtain ⟨rfl, htail⟩ := List.cons.inj h
        -- an ampersand further on is not within the reference
        have hamp : '&' ∉ after' := fun hmem => Bool.noConfusion (hafter '&' hmem)
        obtain ⟨before, rfl, hmore⟩ := exists_append_of_not_mem hamp htail
        obtain ⟨rest, rfl, hrest⟩ := ih hmore
        have hdecode : decode ('&' :: (after' ++ before)) = c :: decode before := by
          rw [← List.cons_append, ← href, decode_reference hc]
        exact ⟨rest, by rw [hdecode, List.cons_append], hrest⟩

/-- Encoded text holds none of the characters that mark markup. Each of its ampersands either is one
of the text, at the same place of it and copied with the name and the semicolon that follow it, or
begins one of the six references. Replacing these from left to right gives the text back, so that
different texts are encoded differently. -/
theorem encode_keeps_text :
    (∀ text, ∀ c ∈ markupMarks, c ∉ encode text) ∧
    (∀ text before after, encode text = before ++ '&' :: after →
      ∃ rest, text = decode before ++ rest ∧ AmpersandOf rest after) ∧
    (∀ text, decode (encode text) = text) ∧ Function.Injective encode :=
  ⟨fun text _ hc => not_mem_encode hc text, fun _ _ _ h => ampersandOf_of_encode h, decode_encode,
    Function.LeftInverse.injective decode_encode⟩

/-- References, names and bare ampersands that meet. -/
example : encode "&#60;&&amp;&a&;".toList = "&#38;#60;&#38;&amp;&#38;a&#38;;".toList := by decide

end Templating.Text
