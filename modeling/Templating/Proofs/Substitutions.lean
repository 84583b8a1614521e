import Templating.Proofs.ExprReading
import Templating.Proofs.Pairs
import Templating.Proofs.Rereading

/-!
Expressions as substitutions of templates. The brace that ends a substitution is looked for in the
text, character by character, and the expression in it is made of tokens. The two agree about where
it ends because literals are looked through in the same way, the braces among the tokens of an
expression are in pairs, and nothing else has braces or quotes, comments apart. In a comment they do
no harm as long as every brace and every quote that is opened there is closed there.
-/
namespace Templating
open Text

namespace Enclosure

/-- The text closes and opens enclosures so that the second ones are open after it. -/
def Leads (es : List Enclosure) (cs : List Char) (es' : List Enclosure) : Prop :=
  ∀ outer rest, closingLength? (es ++ outer) (cs ++ rest) =
    (closingLength? (es' ++ outer) rest).map (· + cs.length)

variable {e e' : Enclosure} {es es' es'' : List Enclosure} {c : Char} {cs ds : List Char} {d : Nat}

theorem Keeps.leads (h : Keeps e cs) : Leads [e] cs [e] := h

theorem Closes.leads (h : Closes e cs) : Leads [e] cs [] := h

namespace Leads

theorem refl (es : List Enclosure) : Leads es [] es := by
  intro outer rest
  rw [List.nil_append]
  cases closingLength? (es ++ outer) rest <;> rfl

theorem trans (h : Leads es cs es') (h' : Leads es' ds es'') : Leads es (cs ++ ds) es'' := by
  intro outer rest
  rw [List.append_assoc, h, h', Option.map_map, List.length_append]
  congr 1
  funext n
  exact (Nat.add_assoc ..).trans (congrArg (n + ·) (Nat.add_comm ..))

/-- Enclosures around those that the text is in stay open. -/
theorem under (h : Leads es cs es') (around : List Enclosure) :
    Leads (es ++ around) cs (es' ++ around) := by
  intro outer rest
  rw [List.append_assoc, List.append_assoc]
  exact h _ rest

theorem opens_quote (hc : c = '\x22' ∨ c = '\x27') :
    Leads [.substitution d] [c] [.quoted c, .substitution d] := by
  intro outer rest
  rcases hc with rfl | rfl <;> rfl

theorem opens_template : Leads [.substitution d] ['\x60'] [.template, .substitution d] :=
  fun _ _ => rfl

theorem opens_substitution : Leads [.template] ['$', '\x7b'] [.substitution 1, .template] := by
  intro outer rest
  simp [closingLength?]

theorem opens_brace : Leads [.substitution d] ['\x7b'] [.substitution (d + 1)] := fun _ _ => rfl

theorem closes_brace (hd : ¬ d ≤ 1) : Leads [.substitution d] ['\x7d'] [.substitution (d - 1)] := by
  intro outer rest
  rw [List.singleton_append, List.singleton_append, closingLength?]
  simp [hd]

theorem closes_last (hd : d ≤ 1) : Leads [.substitution d] ['\x7d'] [] := by
  intro outer rest
  rw [List.singleton_append, List.singleton_append, closingLength?]
  simp [hd]

/-- A dollar that no brace follows is plain text. -/
theorem dollar (hnext : ∀ rest, cs = '\x7b' :: rest → False) (h : Leads (.template :: es) cs []) :
    Leads (.template :: es) ('$' :: cs) [] := by
  cases cs with
  | nil => cases h [] []
  | cons c cs =>
    intro outer rest
    have hc : c ≠ '\x7b' := fun hc => hnext cs (hc ▸ rfl)
    have hrest := h outer rest
    rw [List.cons_append, List.cons_append] at hrest
    rw [List.cons_append, List.cons_append, List.cons_append, closingLength?.eq_def]
    simp [hc, hrest, Nat.add_assoc, Function.comp_def]

end Leads

/-- The end of an enclosure is told by the text before it. -/
theorem leads_of_closingLength? {n : Nat} (h : closingLength? es cs = some n) :
    n ≤ cs.length ∧ Leads es (cs.take n) [] := by
  have hcons {es es' : List Enclosure} {pre cs : List Char} {k n : Nat}
      (hstep : Leads es pre es') (hk : pre.length = k)
      (hn : (closingLength? es' cs).map (· + k) = some n)
      (ih : ∀ {n : Nat}, closingLength? es' cs = some n →
        n ≤ cs.length ∧ Leads es' (cs.take n) []) :
      n ≤ (pre ++ cs).length ∧ Leads es ((pre ++ cs).take n) [] := by
    obtain ⟨m, hm, rfl⟩ := Option.map_eq_some_iff.mp hn
    obtain ⟨hle, hleads⟩ := ih hm
    subst hk
    refine ⟨by rw [List.length_append]; omega, ?_⟩
    rw [Nat.add_comm, List.take_length_add_append]
    exact hstep.trans hleads
  -- by the steps of the search, each of which opens, closes or keeps the innermost enclosure
  fun_induction closingLength? es cs generalizing n with
  | case1 =>
    cases h
    exact ⟨Nat.zero_le _, .refl _⟩
  | case2 => cases h
  | case3 => cases h
  | case4 quote outer c cs ih => exact hcons (Keeps.quoted_escaped.leads.under outer) rfl h ih
  | case5 outer c cs hc ih => exact hcons ((Closes.ofQuote c hc).leads.under outer) rfl h ih
  | case6 quote outer c cs hc hquote ih =>
    exact hcons ((Keeps.quoted_plain hc hquote).leads.under outer) rfl h ih
  | case7 => cases h
  | case8 outer c cs ih => exact hcons (Keeps.template_escaped.leads.under outer) rfl h ih
  | case9 outer cs _ ih => exact hcons (Closes.backquote.leads.under outer) rfl h ih
  | case10 outer cs _ _ ih => exact hcons (Leads.opens_substitution.under outer) rfl h ih
  | case11 outer cs hnext _ _ ih =>
    obtain ⟨m, hm, rfl⟩ := Option.map_eq_some_iff.mp h
    obtain ⟨hle, hleads⟩ := ih hm
    refine ⟨Nat.succ_le_succ hle, ?_⟩
    rw [List.take_succ_cons]
    refine hleads.dollar fun rest hrest => hnext (rest ++ cs.drop m) ?_
    rw [← List.cons_append, ← hrest, List.take_append_drop]
  | case12 outer c cs hc hback hdollar ih =>
    exact hcons ((Keeps.template_plain (by simp [isTemplateSpecial, *])).leads.under outer) rfl h ih
  | case13 depth outer cs ih => exact hcons (Leads.opens_brace.under outer) rfl h ih
  | case14 depth outer cs hdepth _ ih =>
    exact hcons ((Leads.closes_last hdepth).under outer) rfl h ih
  | case15 depth outer cs hdepth _ ih =>
    exact hcons ((Leads.closes_brace hdepth).under outer) rfl h ih
  | case16 depth outer c cs _ _ hc ih => exact hcons ((Leads.opens_quote hc).under outer) rfl h ih
  | case17 depth outer cs _ _ _ ih => exact hcons (Leads.opens_template.under outer) rfl h ih
  | case18 depth outer c cs hopen hclose hquote hback ih =>
    have hinert : [c].all isInert = true := by
      simp [isInert, fences, hopen, hclose, not_or.mp hquote, hback]
    exact hcons ((Keeps.inert hinert).leads.under outer) rfl h ih

/-- A string that begins within a substitution and ends there leaves it as open as it was. -/
theorem Leads.string {n : Nat} (hc : c = '\x22' ∨ c = '\x27')
    (h : closingLength? [.quoted c] cs = some n) :
    Leads [.substitution d] (c :: cs.take n) [.substitution d] := by
  have hend := (leads_of_closingLength? h).2.under [.substitution d]
  exact (Leads.opens_quote hc).trans hend

/-- So does a template. -/
theorem Leads.template {n : Nat} (h : closingLength? [.template] cs = some n) :
    Leads [.substitution d] ('\x60' :: cs.take n) [.substitution d] := by
  have hend := (leads_of_closingLength? h).2.under [.substitution d]
  exact Leads.opens_template.trans hend

/-- The braces balance, and the quotes and backquotes outside of literals begin literals that end. -/
inductive SelfContained : List Char → Prop
  | inert {cs : List Char} (h : cs.all isInert = true) : SelfContained cs
  | braces {cs : List Char} (h : SelfContained cs) : SelfContained ('\x7b' :: (cs ++ ['\x7d']))
  | quoted {quote : Char} {cs : List Char} (hquote : quote = '\x22' ∨ quote = '\x27')
      (h : closingLength? [.quoted quote] cs = some cs.length) : SelfContained (quote :: cs)
  | template {cs : List Char} (h : closingLength? [.template] cs = some cs.length) :
      SelfContained ('\x60' :: cs)
  | append {cs ds : List Char} (h : SelfContained cs) (h' : SelfContained ds) :
      SelfContained (cs ++ ds)

theorem SelfContained.keeps (h : SelfContained cs) (hd : 1 ≤ d) : Keeps (.substitution d) cs := by
  induction h generalizing d with
  | inert h => exact .inert h
  | braces _ ih => exact .braces hd (ih (Nat.le_add_left 1 d))
  | @quoted quote cs hquote h =>
    rw [← List.take_length (l := cs)]
    exact Leads.string hquote h
  | @template cs h =>
    rw [← List.take_length (l := cs)]
    exact Leads.template h
  | append _ _ ih ih' => exact (ih hd).append (ih' hd)

end Enclosure

section Texts

open Enclosure

variable {c : Char} {cs : List Char} {n d : Nat}

theorem isInert_digit (h : c.isDigit = true) : isInert c = true := isInert_of (by decide) h

theorem numeralLength?_inert {seenPoint seenExponent : Bool}
    (h : numeralLength? seenPoint seenExponent cs = some n) : (cs.take n).all isInert = true := by
  have hsign {c : Char} (hc : c = '+' ∨ c = '-') : isInert c = true := by
    rcases hc with rfl | rfl <;> rfl
  have hexponent {c : Char} (hc : c = 'e' ∨ c = 'E') : isInert c = true := by
    rcases hc with rfl | rfl <;> rfl
  fun_induction numeralLength? seenPoint seenExponent cs generalizing n with
  | case1 => simp
  | case2 _ _ c cs hc ih =>
    obtain ⟨m, hm, rfl⟩ := Option.map_eq_some_iff.mp h
    simp [isInert_digit hc, ih hm]
  | case3 _ _ c cs _ hc ih =>
    obtain ⟨m, hm, rfl⟩ := Option.map_eq_some_iff.mp h
    obtain ⟨rfl, -⟩ := hc
    have hpoint : isInert '.' = true := rfl
    simp [hpoint, ih hm]
  | case5 _ _ c _ _ hc sign cs hsigned _ ih =>
    obtain ⟨m, hm, rfl⟩ := Option.map_eq_some_iff.mp h
    simp [hexponent hc.1, hsign hsigned, ih hm]
  | case7 _ _ c _ _ hc digit cs _ hdigit ih =>
    obtain ⟨m, hm, rfl⟩ := Option.map_eq_some_iff.mp h
    simp [hexponent hc.1, isInert_digit hdigit, ih hm]
  | case4 | case6 | case8 => cases h
  | case9 =>
    cases h
    rfl

theorem numberLength?_hexadecimal {x : Char} (hx : x = 'x' ∨ x = 'X') (cs : List Char) :
    numberLength? ('0' :: x :: cs) =
      if (cs.takeWhile Decimal.isHexDigit).length = 0 then none
      else some ((cs.takeWhile Decimal.isHexDigit).length + 2) := if_pos hx

theorem numberLength?_decimal (h : ∀ x digits, cs = '0' :: x :: digits → ¬ (x = 'x' ∨ x = 'X')) :
    numberLength? cs = numeralLength? false false cs := by
  unfold numberLength?
  split
  · exact if_neg (h _ _ rfl)
  · rfl

/-- A numeral is decimal unless it begins as a hexadecimal one. -/
theorem numberLength?_cases (h : numberLength? cs = some n) :
    (∃ x digits, cs = '0' :: x :: digits ∧ (x = 'x' ∨ x = 'X') ∧
      n = (digits.takeWhile Decimal.isHexDigit).length + 2) ∨
    (∀ x digits, cs = '0' :: x :: digits → ¬ (x = 'x' ∨ x = 'X')) ∧
      numeralLength? false false cs = some n := by
  by_cases hhex : ∃ x digits, cs = '0' :: x :: digits ∧ (x = 'x' ∨ x = 'X')
  · obtain ⟨x, digits, rfl, hx⟩ := hhex
    rw [numberLength?_hexadecimal hx] at h
    split at h
    · cases h
    · cases h
      exact .inl ⟨x, digits, rfl, hx, rfl⟩
  · have hdecimal : ∀ x digits, cs = '0' :: x :: digits → ¬ (x = 'x' ∨ x = 'X') :=
      fun x digits heq hx => hhex ⟨x, digits, heq, hx⟩
    rw [numberLength?_decimal hdecimal] at h
    exact .inr ⟨hdecimal, h⟩

theorem numberLength?_inert (h : numberLength? cs = some n) : (cs.take n).all isInert = true := by
  rcases numberLength?_cases h with ⟨x, digits, rfl, hx, rfl⟩ | ⟨-, h⟩
  · have hzero : isInert '0' = true := rfl
    have hletter : isInert x = true := by rcases hx with rfl | rfl <;> rfl
    have hnone : fences.all (fun c => Decimal.isHexDigit c == false) = true := by decide
    have hdigits : ((digits.takeWhile Decimal.isHexDigit).all isInert) = true :=
      List.all_eq_true.mpr fun d hd => isInert_of hnone (List.all_eq_true.mp List.all_takeWhile d hd)
    rw [List.prefix_iff_eq_take.mp (List.takeWhile_prefix (l := digits) _)] at hdigits
    simp only [List.take_succ_cons, List.all_cons, hzero, hletter, hdigits]
    rfl
  · exact numeralLength?_inert h

theorem begins_of_find? {p : Punct} (h : Punct.longestFirst.find? (·.begins cs) = some p) :
    p.begins cs = true := by simpa using List.find?_some h

/-- Punctuation that begins a text, as it is spelled. -/
theorem take_of_find? {p : Punct} (h : Punct.longestFirst.find? (·.begins (c :: cs)) = some p) :
    c :: cs.take (p.spelling.length - 1) = p.spelling.toList := by
  have hprefix : p.spelling.toList <+: c :: cs :=
    List.isPrefixOf_iff_prefix.mp (Bool.and_eq_true_iff.mp (begins_of_find? h)).1
  have htake := List.prefix_iff_eq_take.mp hprefix
  obtain ⟨_, _, hspelling, -⟩ := p.exists_start
  have hpos : p.spelling.length - 1 + 1 = p.spelling.toList.length := by
    rw [← String.length_toList, hspelling]
    rfl
  rw [htake, ← hpos, List.take_succ_cons]

theorem numberLength?_pos (hc : c.isDigit = true ∨ c = '.') (h : numberLength? (c :: cs) = some n) :
    1 ≤ n := by
  have hnumeral {m : Nat} (hm : numeralLength? false false (c :: cs) = some m) : 1 ≤ m := by
    unfold numeralLength? at hm
    split at hm
    · obtain ⟨k, -, rfl⟩ := Option.map_eq_some_iff.mp hm
      exact Nat.le_add_left ..
    · rename_i hdigit
      rw [if_pos ⟨hc.resolve_left hdigit, rfl, rfl⟩] at hm
      obtain ⟨k, -, rfl⟩ := Option.map_eq_some_iff.mp hm
      exact Nat.le_add_left ..
  rcases numberLength?_cases h with ⟨x, digits, -, -, rfl⟩ | ⟨-, h⟩
  · exact Nat.le_add_left ..
  · exact hnumeral h

/-- What a token is: a literal up to its end, a number that no word follows at once, a word, or the
first punctuation of the table that begins the text. -/
theorem lexeme_cases {start : Nat} {kind : TokenKind} (h : lexeme start c cs = .ok (kind, n)) :
    ((c = '\x22' ∨ c = '\x27') ∧ kind = .string ∧ closingLength? [.quoted c] cs = some n) ∨
    (c = '\x60' ∧ kind = .template ∧ closingLength? [.template] cs = some n) ∨
    (kind = .number ∧ numberLength? (c :: cs) = some (n + 1) ∧
      ∀ d ∈ (cs.drop n).head?, isWordStart d = false) ∨
    (isWordStart c = true ∧ kind.isPropertyName = true ∧
      n = (cs.takeWhile isWordPart).length) ∨
    ∃ p, kind = .punct p ∧ Punct.longestFirst.find? (·.begins (c :: cs)) = some p ∧
      n = p.spelling.length - 1 := by
  unfold lexeme at h
  dsimp only at h
  split at h
  · rename_i hquote
    split at h
    · cases h
      exact .inl ⟨hquote, rfl, ‹_›⟩
    · cases h
  · split at h
    · rename_i hback
      split at h
      · cases h
        exact .inr (.inl ⟨hback, rfl, ‹_›⟩)
      · cases h
    · split at h
      · rename_i hdigit
        have hstart : c.isDigit = true ∨ c = '.' := hdigit.imp_right And.left
        split at h
        · cases h
        · rename_i m hm
          have hpos := numberLength?_pos hstart hm
          have hlength : numberLength? (c :: cs) = some (m - 1 + 1) := by
            rw [hm, Nat.sub_add_cancel hpos]
          have hdrop : (c :: cs).drop m = cs.drop (m - 1) := List.drop_cons hpos
          rw [hdrop] at h
          split at h
          · rename_i hnext
            cases h
            exact .inr (.inr (.inl ⟨rfl, hlength, by simp [hnext]⟩))
          · rename_i d hnext
            split at h
            · cases h
            · rename_i hword
              cases h
              exact .inr (.inr (.inl ⟨rfl, hlength, by simpa [hnext] using hword⟩))
      · split at h
        · rename_i hword
          cases h
          refine .inr (.inr (.inr (.inl ⟨hword, ?_, rfl⟩)))
          split <;> rfl
        · split at h
          · rename_i p hp
            cases h
            exact .inr (.inr (.inr (.inr ⟨p, rfl, hp, rfl⟩)))
          · cases h

/-- Punctuation is the first of the table that begins the text. -/
theorem find?_of_lexeme {start : Nat} {p : Punct} (h : lexeme start c cs = .ok (.punct p, n)) :
    Punct.longestFirst.find? (·.begins (c :: cs)) = some p ∧ n = p.spelling.length - 1 := by
  rcases lexeme_cases h with ⟨-, hkind, -⟩ | ⟨-, hkind, -⟩ | ⟨hkind, -⟩ | ⟨-, hkind, -⟩ |
    ⟨q, hkind, hq, hn⟩
  · cases hkind
  · cases hkind
  · cases hkind
  · cases hkind
  · cases hkind
    exact ⟨hq, hn⟩

/-- Punctuation is read as it is spelled. -/
theorem lexeme_punct {start : Nat} {p : Punct} (h : lexeme start c cs = .ok (.punct p, n)) :
    c :: cs.take n = p.spelling.toList := by
  obtain ⟨hfirst, rfl⟩ := find?_of_lexeme h
  exact take_of_find? hfirst

/-- A token that is no brace leaves a substitution as open as it was. -/
theorem lexeme_leads {start : Nat} {kind : TokenKind} (h : lexeme start c cs = .ok (kind, n))
    (hopen : kind ≠ .punct .braceOpen) (hclose : kind ≠ .punct .braceClose) :
    Leads [.substitution d] (c :: cs.take n) [.substitution d] := by
  rcases lexeme_cases h with ⟨hc, -, hlength⟩ | ⟨rfl, -, hlength⟩ | ⟨-, hlength, -⟩ |
    ⟨hc, -, rfl⟩ | ⟨p, rfl, hp, rfl⟩
  · exact Leads.string hc hlength
  · exact Leads.template hlength
  · have hinert := numberLength?_inert hlength
    exact Keeps.leads (.inert hinert)
  · have htake := List.prefix_iff_eq_take.mp (List.takeWhile_prefix (l := cs) isWordPart)
    have hparts : (c :: cs.takeWhile isWordPart).all isInert = true := by
      have hword := isInert_word (isWordPart_of_isWordStart hc)
      have hrest : ∀ d ∈ cs.takeWhile isWordPart, isInert d = true := fun d hd =>
        isInert_word (List.all_eq_true.mp List.all_takeWhile d hd)
      simpa [hword] using hrest
    rw [← htake]
    exact Keeps.leads (.inert hparts)
  · rw [take_of_find? hp]
    have hinert : p.spelling.toList.all isInert = true := by
      revert hopen hclose
      cases p <;> simp +decide
    exact Keeps.leads (.inert hinert)

end Texts

/-- How many braces are open after the tokens, unless the last one is closed among them. -/
def braceDepth? : Nat → List Token → Option Nat
  | d, [] => some d
  | d, t :: ts =>
    if t.kind = .punct .braceOpen then braceDepth? (d + 1) ts
    else if t.kind = .punct .braceClose then
      if d ≤ 1 then none else braceDepth? (d - 1) ts
    else braceDepth? d ts

theorem Paired.braceDepth?_append {ts : List Token} (h : Paired ts) {d : Nat} (hd : 1 ≤ d)
    (rest : List Token) : braceDepth? d (ts ++ rest) = braceDepth? d rest := by
  induction h generalizing d rest with
  | nil => rfl
  | @plain t hplain =>
    have hopen : t.kind ≠ .punct .braceOpen := by
      intro hkind
      rw [hkind] at hplain
      cases hplain
    have hclose : t.kind ≠ .punct .braceClose := by
      intro hkind
      rw [hkind] at hplain
      cases hplain
    rw [List.singleton_append, braceDepth?, if_neg hopen, if_neg hclose]
  | @delimited delimiter o c ts ho hc _ ih =>
    have hinner (d' : Nat) (hd' : 1 ≤ d') :
        braceDepth? d' (ts ++ c :: rest) = braceDepth? d' (c :: rest) := ih hd' (c :: rest)
    rw [List.cons_append, List.append_assoc, List.singleton_append]
    cases delimiter with
    | brace =>
      have hpos : d ≠ 0 := by omega
      simp [braceDepth?, ho, hc, hinner (d + 1) (by omega), hpos, Delimiter.opening,
        Delimiter.punct]
    | _ => simp [braceDepth?, ho, hc, hinner d hd, Delimiter.opening, Delimiter.punct]
  | append _ _ ih ih' => rw [List.append_assoc, ih hd, ih' hd]

/-- The texts before, between and after the tokens: blanks and comments. -/
def gaps (cs : List Char) : List (List Char) :=
  match _h : skipGap .blank cs with
  | [] => [cs]
  | c :: rest =>
    cs.take (cs.length - (rest.length + 1)) ::
      match lexeme 0 c rest with
      | .ok (_, n) => gaps (rest.drop n)
      | .error _ => []
termination_by cs.length
decreasing_by
  have := (skipGap_suffix .blank cs).length_le
  simp [_h] at this
  simp
  omega

theorem take_gap {cs rest : List Char} {c : Char} (h : skipGap .blank cs = c :: rest) :
    cs.take (cs.length - (rest.length + 1)) ++ c :: rest = cs := by
  have hsuffix := skipGap_suffix .blank cs
  rw [h] at hsuffix
  obtain ⟨before, rfl⟩ := hsuffix
  simp

theorem gaps_of_end {cs : List Char} (h : skipGap .blank cs = []) : gaps cs = [cs] := by
  rw [gaps]
  split
  · rfl
  · simp_all

theorem gaps_of_token {cs rest : List Char} {c : Char} {kind : TokenKind} {n : Nat}
    (h : skipGap .blank cs = c :: rest) (hread : lexeme 0 c rest = .ok (kind, n)) :
    gaps cs = cs.take (cs.length - (rest.length + 1)) :: gaps (rest.drop n) := by
  rw [gaps]
  split
  · simp_all
  · rename_i hskip
    rw [h] at hskip
    cases hskip
    rw [hread]

theorem lexeme_at {start start' : Nat} {c : Char} {cs : List Char} {kind : TokenKind} {n : Nat}
    (h : lexeme start c cs = .ok (kind, n)) : lexeme start' c cs = .ok (kind, n) := by
  obtain ⟨_, hread, rfl⟩ := lexeme_repeats start start' c cs _ h
  exact hread

namespace Enclosure

/-- A text opens and closes the braces that are among its tokens, if what stands between the tokens
closes what it opens. -/
theorem leads_of_tokensFrom {position : Nat} {cs : List Char} {tokens : List Token} {d d' : Nat}
    (h : tokensFrom position cs = .ok tokens) (hgaps : ∀ gap ∈ gaps cs, SelfContained gap)
    (hd : 1 ≤ d) (hdepth : braceDepth? d tokens = some d') :
    Leads [.substitution d] cs [.substitution d'] := by
  fun_induction tokensFrom position cs generalizing d tokens with
  | case1 position cs hskip =>
    cases h
    cases hdepth
    rw [gaps_of_end hskip] at hgaps
    exact ((hgaps cs List.mem_cons_self).keeps hd).leads
  | case2 position cs c rest hskip =>
    rename_i start ih
    obtain ⟨⟨kind, n⟩, hread, hrest⟩ := Parser.exists_of_bind h
    obtain ⟨ts, hts, htokens⟩ := Parser.exists_of_bind hrest
    cases htokens
    rw [gaps_of_token hskip (lexeme_at hread)] at hgaps
    obtain ⟨hgap, hmore⟩ := List.forall_mem_cons.mp hgaps
    have hbefore := (hgap.keeps hd).leads
    have hcs : cs = cs.take (cs.length - (rest.length + 1)) ++
        ((c :: rest.take n) ++ rest.drop n) := by
      rw [List.cons_append, List.take_append_drop, take_gap hskip]
    rw [hcs]
    refine hbefore.trans ?_
    by_cases hopen : kind = .punct .braceOpen
    · subst hopen
      rw [lexeme_punct hread]
      exact Leads.opens_brace.trans (ih n hts hmore (Nat.le_add_left 1 d) hdepth)
    · by_cases hclose : kind = .punct .braceClose
      · subst hclose
        rw [lexeme_punct hread]
        simp only [braceDepth?, if_neg hopen, if_true] at hdepth
        split at hdepth
        · cases hdepth
        · rename_i hpos
          exact (Leads.closes_brace hpos).trans (ih n hts hmore (by omega) hdepth)
      · simp only [braceDepth?, if_neg hopen, if_neg hclose] at hdepth
        exact (lexeme_leads hread hopen hclose).trans (ih n hts hmore hd hdepth)

end Enclosure

/-- The tokens of an expression have their brackets in pairs. -/
theorem Expr.paired_of_parse {text : String} {e : Expr} (h : Expr.parse text = .ok e) :
    ∃ tokens, tokenize text = .ok tokens ∧ Paired tokens := by
  obtain ⟨tokens, size, bound, htokens, hread⟩ := Expr.parse_eq_ok_iff.mp h
  obtain ⟨used, hused, rfl⟩ := Parser.expression_passes bound 0 tokens _ hread
  rw [List.append_nil] at htokens
  exact ⟨used, htokens, hused⟩

/-- An expression whose comments close what they open leaves a substitution open. -/
theorem Expr.keeps_of_parse {text : String} {e : Expr} (h : Expr.parse text = .ok e)
    (hgaps : ∀ gap ∈ gaps text.toList, Enclosure.SelfContained gap) :
    Enclosure.Keeps (.substitution 1) text.toList := by
  obtain ⟨tokens, htokens, hpaired⟩ := Expr.paired_of_parse h
  have hdepth : braceDepth? 1 tokens = some 1 := by
    have happend := hpaired.braceDepth?_append (Nat.le_refl 1) []
    rwa [List.append_nil] at happend
  exact Enclosure.leads_of_tokensFrom htokens hgaps (Nat.le_refl 1) hdepth

namespace Parser

/-- A template literal with one substitution and no text is read as what the substitution is. -/
theorem wholeText_substitution {source : List Char} {e : Expr} {bound : Nat}
    (hkeeps : Enclosure.Keeps (.substitution 1) source)
    (h : wholeText (bound + 1) (String.ofList source) = .ok e) :
    wholeText (bound + 6) (String.ofList (spell [Lexeme.template [.substitution source]])) =
      .ok (.template [.expr e]) := by
  have hapart : Portion.Apart [.substitution source] :=
    .cons (.substitution hkeeps) (fun _ _ hq => by cases hq) .nil
  obtain ⟨places, htokens⟩ :=
    tokenize_spell (List.forall_mem_singleton.mpr (Lexeme.template_valid hapart))
  obtain ⟨starts, hchunks⟩ := decodedChunks_template hapart (places 0)
  have hparts : templateParts (bound + 2) (Portion.chunksAt starts [.substitution source]) =
      .ok [.expr e] := by
    rw [Portion.chunksAt, Portion.chunk, templateParts, h]
    rfl
  have hoperand (size : Nat) :
      operand size (bound + 4) (placed places [Lexeme.template [.substitution source]]) =
        .ok (.template [.expr e], []) := by
    change (do
      let chunks ← liftLex (decodedChunks
        ⟨.template, String.ofList (Lexeme.template [.substitution source]).text, places 0⟩)
      let parts ← templateParts (bound + 2) chunks
      return (Expr.template parts, ([] : List Token))) = _
    rw [hchunks, liftLex, ok_bind, hparts]
    rfl
  rw [wholeText, htokens, liftLex, ok_bind, expression_of_operand (hoperand _) stops_nil]
  rfl

end Parser

/-- An expression can be a substitution if in its comments the braces balance and the quotes close:
the brace after it is the one that ends it, and the template has no other part. -/
theorem Expr.parse_substitution {text : String} {e : Expr} (h : Expr.parse text = .ok e)
    (hgaps : ∀ gap ∈ gaps text.toList, Enclosure.SelfContained gap) :
    (∀ rest, closingLength? [.substitution 1] (text.toList ++ '\x7d' :: rest) =
      some (text.length + 1)) ∧
    Expr.parse ("\x60$\x7b" ++ text ++ "\x7d\x60") = .ok (.template [.expr e]) := by
  have hkeeps := Expr.keeps_of_parse h hgaps
  have hspell : spell [Lexeme.template [.substitution text.toList]] =
      '\x60' :: '$' :: '\x7b' :: (text.toList ++ ['\x7d', '\x60']) := by
    simp [spell, spellAfter, Lexeme.gap, Lexeme.template, Portion.allWritten, Portion.written]
  have hsource : "\x60$\x7b" ++ text ++ "\x7d\x60" =
      String.ofList (spell [Lexeme.template [.substitution text.toList]]) := by
    rw [hspell, ← String.toList_inj]
    simp
  have hbound : Parser.boundFor ("\x60$\x7b" ++ text ++ "\x7d\x60") =
      8 * text.length + 50 + 6 := by
    rw [hsource, hspell, Parser.boundFor, Parser.stepsPerChar]
    simp only [String.length_ofList, List.length_cons, List.length_append, String.length_toList]
    simp only [List.length_nil]
    omega
  have hinner : Parser.wholeText (8 * text.length + 50 + 1) (String.ofList text.toList) =
      .ok e := by
    have hcovers : 8 * text.length + 4 ≤ 8 * text.length + 50 + 1 := by omega
    obtain ⟨_, hread, rfl⟩ := Parser.wholeText_repeats (Parser.boundFor text) hcovers e h
    rw [String.ofList_toList, hread]
  constructor
  · intro rest
    rw [hkeeps [] ('\x7d' :: rest), String.length_toList, Nat.add_comm]
    simp [closingLength?]
  · rw [Expr.parse, hbound, hsource]
    exact Parser.wholeText_substitution hkeeps hinner

/-- The braces of an object, and a comment with braces and quotes of its own. -/
theorem Expr.parse_substitution_of_object :
    Expr.parse "\x7ba: b\x7d /* \x7b'\x7d'\x7d */" = .ok (.object [.named "a" (.name "b")]) ∧
    (∀ gap ∈ gaps "\x7ba: b\x7d /* \x7b'\x7d'\x7d */".toList, Enclosure.SelfContained gap) ∧
    (∀ rest, closingLength? [.substitution 1]
      ("\x7ba: b\x7d /* \x7b'\x7d'\x7d */".toList ++ '\x7d' :: rest) = some 19) ∧
    Expr.parse ("\x60$\x7b" ++ "\x7ba: b\x7d /* \x7b'\x7d'\x7d */" ++ "\x7d\x60") =
      .ok (.template [.expr (.object [.named "a" (.name "b")])]) := by
  have htokens : tokenize "\x7ba: b\x7d /* \x7b'\x7d'\x7d */" =
      .ok [⟨.punct .braceOpen, "\x7b", 0⟩, ⟨.word, "a", 1⟩, ⟨.punct .colon, ":", 2⟩,
        ⟨.word, "b", 4⟩, ⟨.punct .braceClose, "\x7d", 5⟩] := by
    decide +kernel
  have hread : Expr.parse "\x7ba: b\x7d /* \x7b'\x7d'\x7d */" =
      .ok (.object [.named "a" (.name "b")]) :=
    Expr.parse_eq_ok_iff.mpr ⟨_, 0, 20, htokens, rfl⟩
  have hgaps : gaps "\x7ba: b\x7d /* \x7b'\x7d'\x7d */".toList =
      [[], [], [], [' '], [], " /* \x7b'\x7d'\x7d */".toList] := by
    decide +kernel
  have hempty : Enclosure.SelfContained [] := .inert rfl
  have hblank : Enclosure.SelfContained [' '] := .inert rfl
  have hopening : Enclosure.SelfContained " /* ".toList := .inert rfl
  have hliteral : Enclosure.SelfContained ['\x27', '\x7d', '\x27'] := .quoted (.inr rfl) rfl
  have hclosing : Enclosure.SelfContained " */".toList := .inert rfl
  have hcomment : Enclosure.SelfContained " /* \x7b'\x7d'\x7d */".toList :=
    (hopening.append hliteral.braces).append hclosing
  have hcontained : ∀ gap ∈ gaps "\x7ba: b\x7d /* \x7b'\x7d'\x7d */".toList,
      Enclosure.SelfContained gap := by
    rw [hgaps]
    simp only [List.forall_mem_cons]
    exact ⟨hempty, hempty, hempty, hblank, hempty, hcomment, List.forall_mem_nil _⟩
  exact ⟨hread, hcontained, Expr.parse_substitution hread hcontained⟩

end Templating
