import Mathlib.Data.List.TakeWhile
import Mathlib.Data.String.Basic
import Templating.Template.Directive
import Templating.Proofs.Lexemes
import Templating.Tag.Registry

/-!
The first word of a directive. It ends at the first blank, so a form that begins with a word fits a
text exactly if that is the first word of the text.
-/
namespace Templating
open Text

/-- A text without blanks. -/
def IsWord (text : List Char) : Prop := ∀ c ∈ text, isBlank c = false

instance (text : List Char) : Decidable (IsWord text) :=
  List.decidableBAll (fun c => isBlank c = false) text

namespace IsWord

variable {w v : List Char}

theorem append (hw : IsWord w) (hv : IsWord v) : IsWord (w ++ v) :=
  fun c hc => (List.mem_append.mp hc).elim (hw c) (hv c)

/-- What comes before the first blank. -/
theorem takeWhile_append (hw : IsWord w) {c : Char} (hc : isBlank c = true) (rest : List Char) :
    (w ++ c :: rest).takeWhile (!isBlank ·) = w := by
  rw [List.takeWhile_append_of_pos fun x hx => by simp [hw x hx]]
  simp [hc]

/-- A word with a blank after it has its end there. -/
theorem append_blank_inj (hw : IsWord w) (hv : IsWord v) {c d : Char} (hc : isBlank c = true)
    (hd : isBlank d = true) {rest tail : List Char} (h : w ++ c :: rest = v ++ d :: tail) :
    w = v ∧ rest = tail := by
  obtain rfl : w = v := by
    rw [← hw.takeWhile_append hc rest, h, hv.takeWhile_append hd tail]
  exact ⟨rfl, (List.cons.inj (List.append_cancel_left h)).2⟩

theorem ne_append_blank (hw : IsWord w) {c : Char} (hc : isBlank c = true) (rest : List Char) :
    v ++ c :: rest ≠ w := by
  rintro rfl
  simpa [hc] using hw c (by simp)

end IsWord

namespace Directive

variable {word : String} {text tail : List Char}

theorem afterWord?_eq_some_iff : afterWord? word text = some tail ↔
    ∃ c rest, isBlank c = true ∧ text = word.toList ++ c :: rest ∧ tail = trimStart rest := by
  constructor
  · intro h
    unfold afterWord? at h
    split at h
    · rename_i c rest hword
      split at h
      · rename_i hc
        exact ⟨c, rest, hc, (List.append_eq_of_isPrefixOf?_eq_some hword).symm,
          (Option.some.inj h).symm⟩
      · cases h
    · cases h
  · rintro ⟨c, rest, hc, rfl, rfl⟩
    have hword : word.toList.isPrefixOf? (word.toList ++ c :: rest) = some (c :: rest) :=
      List.isPrefixOf?_eq_some_iff_append_eq.mpr rfl
    unfold afterWord?
    rw [hword]
    exact if_pos hc

/-- Nothing comes after the one word of a text. -/
theorem afterWord?_of_isWord (htext : IsWord text) : afterWord? word text = none := by
  by_contra h
  obtain ⟨tail, h⟩ := Option.ne_none_iff_exists'.mp h
  obtain ⟨c, rest, hc, rfl, -⟩ := afterWord?_eq_some_iff.mp h
  exact htext.ne_append_blank hc rest rfl

/-- Only the first word of a text is followed by the rest. -/
theorem afterWord?_append {name : String} (hname : IsWord name.toList) (hword : IsWord word.toList)
    {c : Char} (hc : isBlank c = true) (rest : List Char) :
    afterWord? word (name.toList ++ c :: rest) =
      if word = name then some (trimStart rest) else none := by
  split
  · rename_i heq
    exact afterWord?_eq_some_iff.mpr ⟨c, rest, hc, heq ▸ rfl, rfl⟩
  · rename_i hne
    by_contra h
    obtain ⟨tail, h⟩ := Option.ne_none_iff_exists'.mp h
    obtain ⟨d, rest', hd, heq, -⟩ := afterWord?_eq_some_iff.mp h
    exact hne (String.toList_inj.mp (hname.append_blank_inj hword hc hd heq).1.symm)

theorem afterContentForm?_eq (name : String) (text : List Char) :
    afterContentForm? name text = afterWord? (name ++ ":content") text := by
  apply Option.ext
  intro tail
  rw [afterContentForm?, Option.bind_eq_some_iff, afterWord?_eq_some_iff]
  constructor
  · rintro ⟨after, hafter, htail⟩
    obtain ⟨c, rest, hc, rfl, rfl⟩ := afterWord?_eq_some_iff.mp htail
    refine ⟨c, rest, hc, ?_, rfl⟩
    rw [← List.append_eq_of_isPrefixOf?_eq_some hafter, String.toList_append, List.append_assoc]
  · rintro ⟨c, rest, hc, rfl, rfl⟩
    refine ⟨":content".toList ++ c :: rest, ?_, afterWord?_eq_some_iff.mpr ⟨c, rest, hc, rfl, rfl⟩⟩
    rw [List.isPrefixOf?_eq_some_iff_append_eq, String.toList_append, List.append_assoc]

/-- Neither an encoded expression nor a comment. -/
structure BeginsPlain (text : List Char) : Prop where
  colon : text.head? ≠ some ':'
  star : text.head? ≠ some '*'

/-- The words that builtin forms begin with and that something has to follow, `else` apart. -/
def openers : List String :=
  ["extends", "include:content", "include", "block", "put", "exists", "existsNot", "if", "for",
    "each"]

/-- A builtin form begins with this word and a blank, and goes on with the rest. -/
def OpensBuiltin (word : String) (rest : List Char) : Prop :=
  word ∈ openers ∨ word = "else" ∧ (afterWord? "if" (trimStart rest)).isSome = true

/-- The builtin forms that are one word. -/
def loneWords : List String := ["endinclude", "endblock", "else", "end"]

theorem BeginsPlain.isPrefixOf? (h : BeginsPlain text) : [':'].isPrefixOf? text = none := by
  cases text with
  | nil => rfl
  | cons c cs =>
    have hc : (':' == c) = false := beq_false_of_ne fun heq => h.colon (heq ▸ rfl)
    simp [List.isPrefixOf?, hc]

theorem BeginsPlain.not_comment (h : BeginsPlain text) :
    ¬(2 ≤ text.length ∧ text.head? = some '*' ∧ text.getLast? = some '*') :=
  fun hcomment => h.star hcomment.2.1

/-- A text of more than one word is a builtin form if its first word opens one. -/
theorem isSome_builtin?_append {name : String} (hname : IsWord name.toList) {c : Char}
    (hc : isBlank c = true) {rest : List Char} (hplain : BeginsPlain (name.toList ++ c :: rest)) :
    (builtin? (name.toList ++ c :: rest)).isSome = true ↔ OpensBuiltin name rest := by
  have hafter (word : String) (hword : IsWord word.toList) :=
    afterWord?_append hname hword hc rest
  have hne (word : String) (hword : IsWord word.toList) : name.toList ++ c :: rest ≠ word.toList :=
    hword.ne_append_blank hc rest
  rw [builtin?, hafter "extends" (by decide), hafter "include:content" (by decide),
    hafter "include" (by decide), if_neg (hne "endinclude" (by decide)),
    hafter "block" (by decide), if_neg (hne "endblock" (by decide)), hafter "put" (by decide),
    hafter "exists" (by decide), hafter "existsNot" (by decide), hplain.isPrefixOf?,
    if_neg hplain.not_comment, hafter "else" (by decide), if_neg (hne "else" (by decide)),
    hafter "if" (by decide), hafter "for" (by decide), hafter "each" (by decide),
    if_neg (hne "end" (by decide))]
  unfold OpensBuiltin
  by_cases hopens : name ∈ openers
  · refine iff_of_true ?_ (.inl hopens)
    simp only [openers, List.mem_cons, List.not_mem_nil, or_false] at hopens
    rcases hopens with rfl | rfl | rfl | rfl | rfl | rfl | rfl | rfl | rfl | rfl <;> simp
  · have hother (word : String) (hword : word ∈ openers) : word ≠ name :=
      fun h => hopens (h ▸ hword)
    rw [if_neg (hother "extends" (by decide)), if_neg (hother "include:content" (by decide)),
      if_neg (hother "include" (by decide)), if_neg (hother "block" (by decide)),
      if_neg (hother "put" (by decide)), if_neg (hother "exists" (by decide)),
      if_neg (hother "existsNot" (by decide)), if_neg (hother "if" (by decide)),
      if_neg (hother "for" (by decide)), if_neg (hother "each" (by decide))]
    by_cases helse : "else" = name
    · have hrest : name ∈ openers ∨ name = "else" ∧
          (afterWord? "if" (trimStart rest)).isSome = true ↔
            (afterWord? "if" (trimStart rest)).isSome = true := by
        rw [or_iff_right hopens, and_iff_right helse.symm]
      rw [if_pos helse, hrest, Option.bind_some]
      cases afterWord? "if" (trimStart rest) <;> simp
    · rw [if_neg helse]
      simp [hopens, Ne.symm helse]

/-- A text of one word is a builtin form only if it is one of four. -/
theorem isSome_builtin?_of_isWord (hword : IsWord word.toList) (hplain : BeginsPlain word.toList) :
    (builtin? word.toList).isSome = true ↔ word ∈ loneWords := by
  have hafter (other : String) : afterWord? other word.toList = none := afterWord?_of_isWord hword
  simp only [builtin?, hafter, hplain.isPrefixOf?, if_neg hplain.not_comment, Option.bind_none,
    String.toList_inj, loneWords, List.mem_cons, List.not_mem_nil, or_false]
  split_ifs <;> simp [*]

/-- Of the words with `:content` only one is builtin. -/
theorem opensBuiltin_append_content {name : String} {rest : List Char} :
    OpensBuiltin (name ++ ":content") rest ↔ name = "include" := by
  have hsuffix : ∀ word ∈ "else" :: openers, ":content".toList <:+ word.toList →
      word = "include" ++ ":content" := by decide
  have hname (hmem : name ++ ":content" ∈ "else" :: openers) : name = "include" :=
    (String.append_left_inj _).mp (hsuffix _ hmem ⟨name.toList, String.toList_append.symm⟩)
  constructor
  · rintro (h | ⟨h, -⟩)
    · exact hname (List.mem_cons_of_mem _ h)
    · exact hname (h ▸ List.mem_cons_self)
  · rintro rfl
    exact .inl (by decide)

/-- Only two names give the end of a builtin construct. -/
theorem end_append_mem_loneWords {name : String} (hname : name ≠ "") :
    "end" ++ name ∈ loneWords ↔ name = "include" ∨ name = "block" := by
  have hbegins : ∀ word ∈ loneWords, "end".toList <+: word.toList →
      word = "end" ++ "include" ∨ word = "end" ++ "block" ∨ word = "end" ++ "" := by decide
  constructor
  · intro h
    have hword := hbegins _ h ⟨name.toList, String.toList_append.symm⟩
    simp only [String.append_right_inj, hname, or_false] at hword
    exact hword
  · rintro (rfl | rfl) <;> decide

theorem isSome_builtin?_end {name : String} (hword : IsWord name.toList) (hname : name ≠ "") :
    (builtin? ("end" ++ name).toList).isSome = true ↔ name = "include" ∨ name = "block" := by
  have hend : IsWord ("end" ++ name).toList := by
    rw [String.toList_append]
    exact IsWord.append (by decide) hword
  have hplain : BeginsPlain ("end" ++ name).toList := by
    rw [String.toList_append]
    exact ⟨by simp, by simp⟩
  rw [isSome_builtin?_of_isWord hend hplain, end_append_mem_loneWords hname]

/-- No builtin form begins with `@`. -/
theorem builtin?_at {name : String} (hword : IsWord name.toList) :
    builtin? ("@" ++ name).toList = none := by
  have hat : IsWord ("@" ++ name).toList := by
    rw [String.toList_append]
    exact IsWord.append (by decide) hword
  have hplain : BeginsPlain ("@" ++ name).toList := by
    rw [String.toList_append]
    exact ⟨by simp, by simp⟩
  have hbegins : ∀ word ∈ loneWords, ¬"@".toList <+: word.toList := by decide
  have hnone : ¬(builtin? ("@" ++ name).toList).isSome = true := by
    rw [isSome_builtin?_of_isWord hat hplain]
    exact fun h => hbegins _ h ⟨name.toList, String.toList_append.symm⟩
  simpa using hnone

end Directive

namespace Registry

variable {name : String}

theorem isBlank_of_isNamePart {c : Char} (h : isNamePart c = true) : isBlank c = false := by
  have hcodes : ∀ n ∈ blankCodes, isNamePart (Char.ofNat n) = false := by decide +kernel
  by_contra hblank
  have hpart := hcodes _ (toNat_mem_blankCodes (Bool.not_eq_false _ ▸ hblank))
  rw [Char.ofNat_toNat, h] at hpart
  cases hpart

/-- A name is made of such characters, at least one of them. -/
theorem isValidName_parts (h : isValidName name = true) :
    name.toList ≠ [] ∧ ∀ c ∈ name.toList, isNamePart c = true := by
  unfold isValidName at h
  split at h
  · cases h
  · rename_i c cs hname
    rw [Bool.and_eq_true, List.all_eq_true] at h
    have hc : isNamePart c = true := by
      have hstart := h.1
      simp only [isNameStart, isNamePart, Char.isAlphanum, Bool.or_eq_true] at hstart ⊢
      tauto
    rw [hname]
    exact ⟨List.cons_ne_nil c cs, List.forall_mem_cons.mpr ⟨hc, h.2⟩⟩

theorem isWord_of_isValidName (h : isValidName name = true) : IsWord name.toList :=
  fun c hc => isBlank_of_isNamePart ((isValidName_parts h).2 c hc)

/-- No form with a mark at its beginning is one of a tag. -/
theorem exists_head_of_isValidName (h : isValidName name = true) (tail : List Char) :
    ∃ c, (name.toList ++ tail).head? = some c ∧ isNamePart c = true := by
  obtain ⟨hne, hparts⟩ := isValidName_parts h
  cases hname : name.toList with
  | nil => exact absurd hname hne
  | cons c cs => exact ⟨c, rfl, hparts c (hname ▸ List.mem_cons_self)⟩

theorem beginsPlain_of_isValidName (h : isValidName name = true) (tail : List Char) :
    Directive.BeginsPlain (name.toList ++ tail) := by
  obtain ⟨c, hhead, hc⟩ := exists_head_of_isValidName h tail
  constructor
  all_goals
    rw [hhead]
    rintro ⟨⟩
    exact absurd hc (by decide)

end Registry
end Templating
