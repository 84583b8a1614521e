import Templating.Proofs.ErrorPlaces
import Templating.Proofs.Spacing

/-!
How the tokens of a text lie in it. Each is the part of the text at its place, they follow one
another without overlap, and what is left between them is blanks and comments. Words are as long as
they can be in both directions, and punctuation is the longest that fits.
-/
namespace Templating
open Text

theorem isNumeric_of_isBlank {c : Char} (h : isBlank c = true) : isNumeric c = false := by
  have hcodes : ∀ n ∈ blankCodes, isNumeric (Char.ofNat n) = false := by decide +kernel
  have := hcodes _ (toNat_mem_blankCodes h)
  rwa [Char.ofNat_toNat] at this

theorem isWordPart_of_isBlank {c : Char} (h : isBlank c = true) : isWordPart c = false := by
  have hstart := isWordStart_of_isBlank h
  rw [isWordStart, Bool.or_eq_false_iff] at hstart
  simp only [isWordPart, hstart.1, hstart.2, isNumeric_of_isBlank h, Bool.or_self]

/-- The last character of a text that goes on with a text or ends. -/
theorem getLast?_append_cons {α : Type} (before after : List α) (a : α) :
    (before ++ a :: after).getLast? = some (after.getLast?.getD a) := by
  rw [List.getLast?_append, List.getLast?_cons]
  rfl

/-- The text does not end in the middle of a word. -/
def EndsApart (cs : List Char) : Prop := ∀ a ∈ cs.getLast?, isWordPart a = false

theorem EndsApart.append_cons {c : Char} {cs : List Char} (h : EndsApart cs)
    (hc : isWordPart c = false) (before : List Char) : EndsApart (before ++ c :: cs) := by
  intro a ha
  rw [getLast?_append_cons, Option.mem_some_iff] at ha
  subst ha
  cases hlast : cs.getLast? with
  | none => exact hc
  | some a => exact h a hlast

theorem EndsApart.append {cs : List Char} (h : EndsApart cs) (hne : cs ≠ [])
    (before : List Char) : EndsApart (before ++ cs) := by
  intro a ha
  rw [List.getLast?_append_of_ne_nil _ hne] at ha
  exact h a ha

/-- Blanks and comments. A line comment ends with its line and a block comment with its first end
mark; only what comes after the last token may end in the middle of a comment. -/
inductive IsGap (last : Prop) : List Char → Prop
  | nil : IsGap last []
  | blank {c : Char} {cs : List Char} (hc : isBlank c = true) (h : IsGap last cs) :
      IsGap last (c :: cs)
  | line {body cs : List Char} (hbody : '\n' ∉ body) (h : IsGap last cs) :
      IsGap last ('/' :: '/' :: (body ++ '\n' :: cs))
  | block {body cs : List Char} (hbody : ¬ ['*', '/'] <:+: body) (h : IsGap last cs) :
      IsGap last ('/' :: '*' :: (body ++ '*' :: '/' :: cs))
  | lastLine {body : List Char} (h : last) (hbody : '\n' ∉ body) : IsGap last ('/' :: '/' :: body)
  | lastBlock {body : List Char} (h : last) (hbody : ¬ ['*', '/'] <:+: body) :
      IsGap last ('/' :: '*' :: body)

/-- The rest of blanks and comments, from the middle of a comment on. -/
def IsGap.From (last : Prop) : Gap → List Char → Prop
  | .blank, cs => IsGap last cs
  | .lineComment, cs => IsGap last ('/' :: '/' :: cs)
  | .blockComment, cs => IsGap last ('/' :: '*' :: cs)

namespace IsGap

variable {last : Prop} {c : Char} {cs : List Char}

theorem line_cons (hc : c ≠ '\n') (h : IsGap last ('/' :: '/' :: cs)) :
    IsGap last ('/' :: '/' :: c :: cs) := by
  cases h with
  | blank hblank => cases hblank
  | @line body rest hbody hrest =>
    have hmem : '\n' ∉ c :: body := by simpa [hc.symm] using hbody
    exact .line hmem hrest
  | lastLine h hbody => exact .lastLine h (by simpa [hc.symm] using hbody)

theorem block_cons (hc : c = '*' → cs.head? ≠ some '/') (h : IsGap last ('/' :: '*' :: cs)) :
    IsGap last ('/' :: '*' :: c :: cs) := by
  -- no end mark begins with the new character
  have hcons {body : List Char} (hhead : body.head? = some '/' → cs.head? = some '/')
      (hbody : ¬ ['*', '/'] <:+: body) : ¬ ['*', '/'] <:+: c :: body := by
    rw [List.infix_cons_iff, not_or]
    refine ⟨fun hmark => ?_, hbody⟩
    obtain ⟨rfl, hslash⟩ := List.cons_prefix_cons.mp hmark
    obtain ⟨rest, rfl⟩ := hslash
    exact hc rfl (hhead rfl)
  cases h with
  | blank hblank => cases hblank
  | @block body rest hbody hrest =>
    have hmark : ¬ ['*', '/'] <:+: c :: body := by
      refine hcons (fun hhead => ?_) hbody
      rw [List.head?_append, hhead]
      rfl
    exact .block hmark hrest
  | lastBlock h hbody => exact .lastBlock h (hcons id hbody)

theorem endsApart (h : IsGap False cs) : EndsApart cs := by
  induction h with
  | nil => exact nofun
  | @blank c cs hc _ ih => exact ih.append_cons (isWordPart_of_isBlank hc) []
  | @line body cs _ _ ih => exact ih.append_cons (by decide) ('/' :: '/' :: body)
  | @block body cs _ _ ih =>
    have hslash := ih.append_cons (c := '/') (by decide) ('/' :: '*' :: (body ++ ['*']))
    simpa using hslash
  | lastLine h => exact h.elim
  | lastBlock h => exact h.elim

end IsGap

/-- What is skipped before a token, or up to the end of the text, is a gap. -/
theorem exists_gap (gap : Gap) (cs : List Char) :
    ∃ skipped, cs = skipped ++ skipGap gap cs ∧
      IsGap.From (skipGap gap cs = []) gap skipped := by
  fun_induction skipGap gap cs with
  | case1 gap =>
    refine ⟨[], rfl, ?_⟩
    cases gap with
    | blank => exact .nil
    | lineComment => exact .lastLine rfl List.not_mem_nil
    | blockComment => exact .lastBlock rfl (by simp)
  | case2 cs ih =>
    obtain ⟨skipped, hcs, hskipped⟩ := ih
    have hempty : '\n' ∉ ([] : List Char) := List.not_mem_nil
    exact ⟨'\n' :: skipped, congrArg _ hcs, .line hempty hskipped⟩
  | case3 c cs hc ih =>
    obtain ⟨skipped, hcs, hskipped⟩ := ih
    exact ⟨c :: skipped, congrArg _ hcs, IsGap.line_cons hc hskipped⟩
  | case4 cs ih =>
    obtain ⟨skipped, hcs, hskipped⟩ := ih
    have hempty : ¬ ['*', '/'] <:+: ([] : List Char) := by simp
    refine ⟨'*' :: '/' :: skipped, ?_, .block hempty hskipped⟩
    rw [List.cons_append, List.cons_append, ← hcs]
  | case5 c cs hc ih =>
    obtain ⟨skipped, hcs, hskipped⟩ := ih
    refine ⟨c :: skipped, congrArg _ hcs, IsGap.block_cons (fun hstar hhead => ?_) hskipped⟩
    obtain ⟨more, rfl⟩ := List.head?_eq_some_iff.mp hhead
    exact hc _ hstar hcs
  | case6 cs ih =>
    obtain ⟨skipped, hcs, hskipped⟩ := ih
    exact ⟨'/' :: '/' :: skipped, by rw [List.cons_append, List.cons_append, ← hcs], hskipped⟩
  | case7 cs ih =>
    obtain ⟨skipped, hcs, hskipped⟩ := ih
    exact ⟨'/' :: '*' :: skipped, by rw [List.cons_append, List.cons_append, ← hcs], hskipped⟩
  | case8 c cs hline hblock hc ih =>
    obtain ⟨skipped, hcs, hskipped⟩ := ih
    exact ⟨c :: skipped, congrArg _ hcs, .blank hc hskipped⟩
  | case9 c cs hline hblock hc => exact ⟨[], rfl, .nil⟩

namespace Enclosure

def closer : Enclosure → Char
  | quoted quote => quote
  | template => '\x60'
  | substitution _ => '\x7d'

def EndsWithCloser (es : List Enclosure) (part : List Char) : Prop :=
  ∀ e ∈ es.getLast?, part.getLast? = some e.closer

theorem EndsWithCloser.step {es es' : List Enclosure} {part : List Char}
    (h : EndsWithCloser es' part)
    (hlast : ∀ e ∈ es.getLast?, ∃ e' ∈ es'.getLast?, e'.closer = e.closer) (before : List Char) :
    EndsWithCloser es (before ++ part) := by
  intro e he
  obtain ⟨e', he', hcloser⟩ := hlast e he
  rw [List.getLast?_append, h e' he', hcloser]
  rfl

/-- Another enclosure of the same kind is open innermost. -/
theorem EndsWithCloser.replace {e e' : Enclosure} {outer : List Enclosure} {part : List Char}
    (h : EndsWithCloser (e' :: outer) part) (hcloser : e'.closer = e.closer) (before : List Char) :
    EndsWithCloser (e :: outer) (before ++ part) := by
  refine h.step (fun a ha => ?_) before
  cases outer with
  | nil =>
    cases ha
    exact ⟨e', rfl, hcloser⟩
  | cons d outer => exact ⟨a, ha, rfl⟩

/-- Another enclosure is opened within. -/
theorem EndsWithCloser.push {e e' : Enclosure} {outer : List Enclosure} {part : List Char}
    (h : EndsWithCloser (e' :: e :: outer) part) (before : List Char) :
    EndsWithCloser (e :: outer) (before ++ part) := h.step (fun a ha => ⟨a, ha, rfl⟩) before

/-- The innermost enclosure ends, which may be the outermost. -/
theorem EndsWithCloser.pop {e : Enclosure} {outer : List Enclosure} {cs : List Char} {c : Char}
    {m : Nat} (h : EndsWithCloser outer (cs.take m)) (hm : closingLength? outer cs = some m)
    (hc : c = e.closer) : EndsWithCloser (e :: outer) (c :: cs.take m) := by
  cases outer with
  | nil =>
    rw [closingLength?] at hm
    cases hm
    intro a ha
    cases ha
    exact congrArg some hc
  | cons d outer => exact h.step (fun a ha => ⟨a, ha, rfl⟩) [c]

theorem endsWithCloser_of_closingLength? {es : List Enclosure} {cs : List Char} {n : Nat}
    (h : closingLength? es cs = some n) : EndsWithCloser es (cs.take n) := by
  fun_induction closingLength? es cs generalizing n with
  | case1 =>
    intro e he
    cases he
  | case2 | case3 | case7 => cases h
  | case4 | case8 =>
    rename_i ih
    obtain ⟨m, hm, rfl⟩ := Option.map_eq_some_iff.mp h
    exact (ih hm).replace rfl [_, _]
  | case6 | case11 | case12 | case18 =>
    rename_i ih
    obtain ⟨m, hm, rfl⟩ := Option.map_eq_some_iff.mp h
    exact (ih hm).replace rfl [_]
  | case13 depth | case15 depth =>
    rename_i ih
    obtain ⟨m, hm, rfl⟩ := Option.map_eq_some_iff.mp h
    exact (ih hm).replace (e := .substitution depth) rfl [_]
  | case5 | case9 | case14 =>
    rename_i ih
    obtain ⟨m, hm, rfl⟩ := Option.map_eq_some_iff.mp h
    exact (ih hm).pop hm rfl
  | case10 =>
    rename_i ih
    obtain ⟨m, hm, rfl⟩ := Option.map_eq_some_iff.mp h
    exact (ih hm).push [_, _]
  | case16 | case17 =>
    rename_i ih
    obtain ⟨m, hm, rfl⟩ := Option.map_eq_some_iff.mp h
    exact (ih hm).push [_]

/-- A literal does not end in the middle of a word. -/
theorem endsApart_of_closingLength? {e : Enclosure} {cs : List Char} {n : Nat}
    (h : closingLength? [e] cs = some n) (he : isWordPart e.closer = false) (c : Char) :
    EndsApart (c :: cs.take n) := by
  have hlast := endsWithCloser_of_closingLength? h e rfl
  intro a ha
  rw [List.getLast?_cons, hlast, Option.getD_some, Option.mem_some_iff] at ha
  exact ha ▸ he

end Enclosure

section Lexemes

variable {start n : Nat} {c : Char} {cs : List Char} {kind : TokenKind}

/-- A word goes on as long as it can. -/
theorem lexeme_word (h : lexeme start c cs = .ok (kind, n)) (hkind : kind.isPropertyName = true) :
    isWordStart c = true ∧ (∀ d ∈ c :: cs.take n, isWordPart d = true) ∧
      ∀ d ∈ (cs.drop n).head?, isWordPart d = false := by
  rcases lexeme_cases h with ⟨-, rfl, -⟩ | ⟨-, rfl, -⟩ | ⟨rfl, -⟩ | ⟨hc, -, rfl⟩ | ⟨p, rfl, -⟩
  · cases hkind
  · cases hkind
  · cases hkind
  · have htake := List.prefix_iff_eq_take.mp (List.takeWhile_prefix (l := cs) isWordPart)
    refine ⟨hc, ?_, ?_⟩
    · rw [← htake]
      exact List.forall_mem_cons.mpr ⟨isWordPart_of_isWordStart hc, fun d hd =>
        List.all_eq_true.mp List.all_takeWhile d hd⟩
    · have hdrop : cs.drop (cs.takeWhile isWordPart).length = cs.dropWhile isWordPart :=
        (congrArg (List.drop _) List.takeWhile_append_dropWhile.symm).trans List.drop_left
      rw [hdrop]
      intro d hd
      have hnot := List.head?_dropWhile_not isWordPart cs
      rw [Option.mem_def.mp hd] at hnot
      simpa using hnot
  · cases hkind

/-- A token does not end in the middle of a word. -/
theorem lexeme_apart (h : lexeme start c cs = .ok (kind, n)) :
    EndsApart (c :: cs.take n) ∨ ∀ d ∈ (cs.drop n).head?, isWordStart d = false := by
  rcases lexeme_cases h with ⟨hc, rfl, hn⟩ | ⟨rfl, rfl, hn⟩ | ⟨-, -, hnext⟩ | ⟨-, hkind, -⟩ |
    ⟨p, rfl, hp, rfl⟩
  · refine .inl (Enclosure.endsApart_of_closingLength? hn ?_ c)
    rcases hc with rfl | rfl <;> decide
  · exact .inl (Enclosure.endsApart_of_closingLength? hn (by decide) _)
  · exact .inr hnext
  · refine .inr fun d hd => ?_
    have hpart := (lexeme_word h hkind).2.2 d hd
    cases hstart : isWordStart d with
    | false => rfl
    | true => rw [isWordPart_of_isWordStart hstart] at hpart; exact hpart
  · have hspelling : p.spelling.toList.all (fun a => !isWordPart a) = true := by
      cases p <;> decide
    rw [take_of_find? hp]
    exact .inl fun a ha => by
      simpa using List.all_eq_true.mp hspelling a (List.mem_of_getLast? ha)

end Lexemes

structure Token.ReadIn (source : List Char) (t : Token) (c : Char) (rest : List Char) (n : Nat) :
    Prop where
  stands : StandsAt source t.start (c :: rest)
  reads : lexeme t.start c rest = .ok (t.kind, n)
  text : t.text.toList = c :: rest.take n

theorem exists_readIn {source cs : List Char} {position : Nat} {tokens : List Token}
    (hstands : StandsAt source position cs) (h : tokensFrom position cs = .ok tokens) :
    ∀ t ∈ tokens, ∃ c rest n, t.ReadIn source c rest n := by
  fun_induction tokensFrom position cs generalizing tokens with
  | case1 =>
    cases h
    exact List.forall_mem_nil _
  | case2 position cs c rest hskip =>
    rename_i start ih
    obtain ⟨⟨kind, n⟩, hread, hbind⟩ := Parser.exists_of_bind h
    obtain ⟨ts, hts, htokens⟩ := Parser.exists_of_bind hbind
    cases htokens
    have hsuffix : c :: rest <:+ cs := hskip ▸ skipGap_suffix .blank cs
    have hstart : StandsAt source start (c :: rest) := hstands.of_suffix hsuffix
    have hmore : StandsAt source (start + utf8Size (c :: rest.take n)) (rest.drop n) :=
      hstart.drop (n + 1)
    have hhead : Token.ReadIn source ⟨kind, String.ofList (c :: rest.take n), start⟩ c rest n :=
      ⟨hstart, hread, String.toList_ofList⟩
    exact List.forall_mem_cons.mpr ⟨⟨c, rest, n, hhead⟩, ih n hmore hts⟩

/-- A question mark stands before a number that begins with its point. -/
def QuestionBeforeNumber (cs : List Char) : Prop :=
  ∃ d rest, cs = '?' :: '.' :: d :: rest ∧ d.isDigit = true

/-- The punctuation at the beginning of a text: the longest there is, but a question mark alone
before a number that begins with its point. -/
structure Punct.Leads (p : Punct) (cs : List Char) : Prop where
  longest : ¬ QuestionBeforeNumber cs →
    ∀ q : Punct, q.spelling.toList <+: cs → q.spelling.length ≤ p.spelling.length
  question : QuestionBeforeNumber cs → p = .question

theorem Punct.begins_of_spelling {q : Punct} {cs : List Char} (h : q.spelling.toList <+: cs)
    (hquestion : ¬ QuestionBeforeNumber cs) : q.begins cs = true := by
  unfold begins
  rw [List.isPrefixOf_iff_prefix.mpr h, Bool.true_and, Bool.not_eq_true', Bool.and_eq_false_iff]
  by_cases hq : q = .questionDot
  · subst hq
    obtain ⟨rest, rfl⟩ := h
    refine .inr (Bool.eq_false_iff.mpr fun hdigit => hquestion ?_)
    cases rest with
    | nil => cases hdigit
    | cons d rest => exact ⟨d, rest, rfl, hdigit⟩
  · exact .inl (beq_eq_false_iff_ne.mpr hq)

theorem Punct.leads_of_find? {p : Punct} {cs : List Char}
    (h : longestFirst.find? (·.begins cs) = some p) : p.Leads cs := by
  have hbegins := begins_of_find? h
  refine ⟨fun hquestion q hq => ?_, ?_⟩
  · have hsorted : longestFirst.Pairwise fun a b => b.spelling.length ≤ a.spelling.length := by
      decide
    obtain ⟨-, shorter, longer, hsplit, hnone⟩ := List.find?_eq_some_iff_append.mp h
    have hmem : q ∈ shorter ++ p :: longer := hsplit ▸ q.mem_longestFirst
    rcases List.mem_append.mp hmem with hbefore | hafter
    · have := hnone q hbefore
      rw [begins_of_spelling hq hquestion] at this
      cases this
    · rcases List.mem_cons.mp hafter with rfl | hafter
      · exact Nat.le_refl _
      · rw [hsplit, List.pairwise_append, List.pairwise_cons] at hsorted
        exact hsorted.2.1.1 q hafter
  · rintro ⟨d, rest, rfl, hdigit⟩
    revert hbegins
    cases p <;> simp [begins, spelling, hdigit]

/-- How a token reads where it stands: it is not empty, a word is as long as it can be in both
directions, and punctuation is the longest there is. -/
structure Token.Fits (before : List Char) (t : Token) (after : List Char) : Prop where
  nonempty : t.text.toList ≠ []
  word : t.kind.isPropertyName = true → (∀ c ∈ t.text.toList, isWordPart c = true) ∧
    EndsApart before ∧ ∀ c ∈ after.head?, isWordPart c = false
  punct : ∀ p, t.kind = .punct p →
    t.text = p.spelling ∧ p.Leads (t.text.toList ++ after)

theorem lexeme_fits {start place n : Nat} {c : Char} {before cs : List Char} {kind : TokenKind}
    (h : lexeme start c cs = .ok (kind, n))
    (hbefore : isWordStart c = true → EndsApart before) :
    Token.Fits before ⟨kind, String.ofList (c :: cs.take n), place⟩ (cs.drop n) where
  nonempty := by
    rw [String.toList_ofList]
    exact List.cons_ne_nil _ _
  word hkind := by
    obtain ⟨hstart, hpart, hafter⟩ := lexeme_word h hkind
    rw [String.toList_ofList]
    exact ⟨hpart, hbefore hstart, hafter⟩
  punct p hp := by
    subst hp
    rw [String.toList_ofList, List.cons_append, List.take_append_drop]
    refine ⟨?_, Punct.leads_of_find? (find?_of_lexeme h).1⟩
    rw [lexeme_punct h, String.ofList_toList]

/-- A text that comes after another one is made of the tokens, each at its place, with gaps before,
between and after them. -/
inductive Tiles : List Char → List Char → List Token → Prop
  | last {before rest : List Char} (h : IsGap True rest) : Tiles before rest []
  | token {before gap rest : List Char} {t : Token} {ts : List Token} (hgap : IsGap False gap)
      (hstart : utf8Size (before ++ gap) = t.start) (hfits : t.Fits (before ++ gap) rest)
      (hrest : Tiles (before ++ gap ++ t.text.toList) rest ts) :
      Tiles before (gap ++ t.text.toList ++ rest) (t :: ts)

theorem tokensFrom_tiles {position : Nat} {before cs : List Char} {tokens : List Token}
    (hposition : utf8Size before = position) (h : tokensFrom position cs = .ok tokens)
    (hapart : EndsApart before ∨ ∀ d ∈ cs.head?, isWordStart d = false) :
    Tiles before cs tokens := by
  fun_induction tokensFrom position cs generalizing before tokens with
  | case1 position cs hskip =>
    cases h
    obtain ⟨gap, hcs, hgap⟩ := exists_gap .blank cs
    rw [hskip, List.append_nil] at hcs
    rw [hskip, eq_self, ← hcs] at hgap
    exact .last hgap
  | case2 position cs c rest hskip =>
    rename_i start ih
    obtain ⟨⟨kind, n⟩, hread, hbind⟩ := Parser.exists_of_bind h
    obtain ⟨ts, hts, htokens⟩ := Parser.exists_of_bind hbind
    cases htokens
    obtain ⟨gap, hcs, hgap⟩ := exists_gap .blank cs
    rw [hskip, eq_false (List.cons_ne_nil c rest)] at hgap
    rw [hskip] at hcs
    have hstart : utf8Size (before ++ gap) = start := by
      have hsize := congrArg utf8Size hcs
      rw [utf8Size_append] at hsize
      change _ = position + (utf8Size cs - utf8Size (c :: rest))
      rw [utf8Size_append, hposition, hsize, Nat.add_sub_cancel]
    -- what comes before a word is a gap, or a token that does not end like one
    have hbefore (hword : isWordStart c = true) : EndsApart (before ++ gap) := by
      by_cases hempty : gap = []
      · subst hempty
        rw [List.append_nil]
        refine hapart.resolve_right fun hnone => ?_
        rw [hnone c (by rw [hcs]; rfl)] at hword
        cases hword
      · exact hgap.endsApart.append hempty before
    have htext : c :: rest = (String.ofList (c :: rest.take n)).toList ++ rest.drop n := by
      rw [String.toList_ofList, List.cons_append, List.take_append_drop]
    have hrest : Tiles (before ++ gap ++ (String.ofList (c :: rest.take n)).toList)
        (rest.drop n) ts := by
      rw [String.toList_ofList]
      refine ih n ?_ hts ?_
      · rw [utf8Size_append, hstart]
      · exact (lexeme_apart hread).imp_left fun h => h.append (List.cons_ne_nil _ _) _
    rw [hcs, htext, ← List.append_assoc]
    exact .token (t := ⟨kind, String.ofList (c :: rest.take n), start⟩) hgap hstart
      (lexeme_fits hread hbefore) hrest

namespace Tiles

variable {before cs : List Char} {tokens : List Token}

/-- Every token stands in the text where it says. -/
theorem stands (h : Tiles before cs tokens) : ∀ t ∈ tokens, ∃ before' after,
    before ++ cs = before' ++ t.text.toList ++ after ∧ utf8Size before' = t.start ∧
      t.Fits before' after := by
  induction h with
  | last => exact nofun
  | @token before gap rest t ts hgap hstart hfits _ ih =>
    refine List.forall_mem_cons.mpr ⟨⟨before ++ gap, rest, ?_, hstart, hfits⟩, ?_⟩
    · simp only [List.append_assoc]
    · simpa only [List.append_assoc] using ih

/-- No token begins before the end of what comes before the text. -/
theorem le_start (h : Tiles before cs tokens) : ∀ t ∈ tokens, utf8Size before ≤ t.start := by
  induction h with
  | last => exact nofun
  | @token before gap rest t ts hgap hstart hfits _ ih =>
    rw [utf8Size_append] at hstart
    refine List.forall_mem_cons.mpr ⟨by omega, fun u hu => ?_⟩
    have hle := ih u hu
    simp only [utf8Size_append] at hle
    omega

/-- Tokens follow one another without overlap. -/
theorem apart (h : Tiles before cs tokens) :
    tokens.Pairwise fun t u => t.start < u.start ∧ t.start + t.text.utf8ByteSize ≤ u.start := by
  induction h with
  | last => exact .nil
  | @token before gap rest t ts hgap hstart hfits hrest ih =>
    refine .cons (fun u hu => ?_) ih
    have hle := hrest.le_start u hu
    have hpos : 1 ≤ utf8Size t.text.toList :=
      Nat.le_trans (List.length_pos_iff.mpr hfits.nonempty) (length_le_utf8Size _)
    rw [utf8Size_append, hstart, utf8Size_toList] at hle
    rw [utf8Size_toList] at hpos
    omega

end Tiles

/-- A text that can be read is made of its tokens, each at its place, and of blanks and comments
between them. The tokens follow one another, none is empty, words are as long as they can be, and
punctuation is the longest there is. A text that cannot be read is at fault within its length. -/
theorem tokenize_tiles (source : String) :
    match tokenize source with
    | .ok tokens => Tiles [] source.toList tokens ∧
      (∀ t ∈ tokens, ∃ before after, source.toList = before ++ t.text.toList ++ after ∧
        utf8Size before = t.start ∧ t.Fits before after) ∧
      tokens.Pairwise fun t u => t.start < u.start ∧ t.start + t.text.utf8ByteSize ≤ u.start
    | .error e => e.position ≤ source.utf8ByteSize := by
  have hplaces := tokenize_pinpoints source
  cases h : tokenize source with
  | ok tokens =>
    have htiles : Tiles [] source.toList tokens := tokensFrom_tiles rfl h (.inl nofun)
    exact ⟨htiles, htiles.stands, htiles.apart⟩
  | error e =>
    rw [h] at hplaces
    obtain ⟨before, ⟨after, hsource⟩, hsize⟩ := hplaces
    change e.position ≤ _
    rw [← utf8Size_toList, ← hsource, utf8Size_append, hsize]
    exact Nat.le_add_right _ _

end Templating
