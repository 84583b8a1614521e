import Templating.Proofs.ParserErrors
import Templating.Proofs.TemplateChunks

/-!
The places that messages quote. A message about a literal without an end quotes the place where the
literal begins. That place is counted from the beginning of the text that the lexer was given, which
is a substitution if the literal is in one; the position of the error is counted from the beginning
of the whole text.
-/
namespace Templating
open Text Enclosure

/-- The text is what the lexer takes for the beginning of a literal, and the literal has no end. -/
inductive Unended : LexFault → List Char → Prop
  | string {place : Nat} {quote : Char} {rest : List Char}
      (hquote : quote = '\x22' ∨ quote = '\x27') (h : Scan (.quoted quote) rest none) :
      Unended (.unterminatedString place) (quote :: rest)
  | template {place : Nat} {rest : List Char} (h : Scan .template rest none) :
      Unended (.unterminatedTemplate place) ('\x60' :: rest)

/-- The place that the error quotes, if any, is that of a literal that goes on to the end of the
source. -/
def LexError.QuotesIn (source : List Char) (lex : LexError) : Prop :=
  ∀ n, lex.fault.openedAt? = some n → ∃ before rest, source = before ++ rest ∧
    utf8Size before = n ∧ Unended lex.fault rest ∧ lex.position = utf8Size source

theorem lexeme_quotes {source before cs : List Char} {c : Char} {start : Nat}
    (hsource : source = before ++ c :: cs) (hstart : utf8Size before = start) :
    Meets (LexError.QuotesIn source) (fun _ => True) (lexeme start c cs) := by
  have hend : start + utf8Size (c :: cs) = utf8Size source := by
    rw [hsource, utf8Size_append, hstart]
  dsimp only [lexeme]
  split
  · rename_i hquote
    split
    · trivial
    · rename_i hnone
      rintro n ⟨⟩
      exact ⟨before, c :: cs, hsource, hstart, .string hquote (scan_of_eq_none hnone), hend⟩
  split
  · rename_i hquote
    subst hquote
    split
    · trivial
    · rename_i hnone
      rintro n ⟨⟩
      exact ⟨before, _, hsource, hstart, .template (scan_of_eq_none hnone), hend⟩
  split
  · split
    · rintro n ⟨⟩
    · split
      · trivial
      · split
        · rintro n ⟨⟩
        · trivial
  split
  · trivial
  · split
    · trivial
    · rintro n ⟨⟩

theorem tokensFrom_quotes {source before cs : List Char} {position : Nat}
    (hsource : source = before ++ cs) (hposition : utf8Size before = position) :
    Meets (LexError.QuotesIn source) (fun _ => True) (tokensFrom position cs) := by
  fun_induction tokensFrom position cs generalizing before with
  | case1 => trivial
  | case2 position cs c rest hskip =>
    rename_i start ih
    obtain ⟨gap, hgap⟩ : c :: rest <:+ cs := hskip ▸ skipGap_suffix .blank cs
    have hstart : utf8Size (before ++ gap) = start := by
      change _ = position + (utf8Size cs - utf8Size (c :: rest))
      rw [← hgap, utf8Size_append, utf8Size_append, hposition, Nat.add_sub_cancel]
    have hrest : source = before ++ gap ++ c :: rest := by
      rw [hsource, ← hgap, List.append_assoc]
    refine (lexeme_quotes hrest hstart).bind ?_
    rintro ⟨kind, n⟩ -
    have hnext : source = before ++ gap ++ c :: rest.take n ++ rest.drop n := by
      rw [hrest, List.append_assoc (before ++ gap), List.cons_append, List.take_append_drop]
    have hmore := ih n hnext (by rw [utf8Size_append, hstart])
    exact hmore.bind fun _ _ => trivial

/-- The text itself, or the source of a substitution in it or in such a source, and its place. -/
inductive NestedSource : String → String → Nat → Prop
  | self (text : String) : NestedSource text text 0
  | substitution {text source : String} {inner : List Char} {start place : Nat}
      (h : Substitutes text inner start)
      (hinner : NestedSource (String.ofList inner) source place) :
      NestedSource text source (start + place)

theorem StandsAt.trans {source cs ds : List Char} {place inner : Nat}
    (h : StandsAt source place cs) (hinner : StandsAt cs inner ds) :
    StandsAt source (place + inner) ds := by
  obtain ⟨before, after, rfl, rfl⟩ := h
  obtain ⟨a, b, rfl, rfl⟩ := hinner
  exact ⟨before ++ a, b ++ after, by simp only [List.append_assoc], utf8Size_append _ _⟩

theorem Substitutes.standsAt {text : String} {inner : List Char} {place : Nat}
    (h : Substitutes text inner place) : StandsAt text.toList place inner := by
  obtain ⟨t, chunks, ht, hkind, hchunks, hmem⟩ := h
  have hin := decodedChunks_pinpoints ht.writtenIn hkind
  rw [hchunks] at hin
  exact hin _ hmem inner place rfl

theorem NestedSource.standsAt {text source : String} {place : Nat}
    (h : NestedSource text source place) : StandsAt text.toList place source.toList := by
  induction h with
  | self text => exact StandsAt.whole _
  | substitution h _ ih =>
    rw [String.toList_ofList] at ih
    exact h.standsAt.trans ih

theorem Token.Of.exists_splitsInto {text : String} {t : Token} (h : t.Of text)
    (hkind : t.kind = .template) : ∃ chunks, t.SplitsInto text.toList chunks := by
  obtain ⟨tokens, htokens, hmem⟩ := h
  obtain ⟨c, rest, n, hread⟩ := exists_readIn (StandsAt.whole _) htokens t hmem
  exact Templating.exists_splitsInto hread hkind

theorem Substitutes.pos {text : String} {inner : List Char} {place : Nat}
    (h : Substitutes text inner place) : 0 < place := by
  obtain ⟨t, decoded, ht, hkind, hdecoded, hmem⟩ := h
  obtain ⟨chunks, hsplits⟩ := ht.exists_splitsInto hkind
  have hmeets := decodedChunks_meets hsplits
  rw [hdecoded] at hmeets
  rcases hmeets _ hmem with htext | hchunk
  · cases htext
  · have hle := hsplits.placed.le_start _ hchunk
    exact Nat.lt_of_lt_of_le (Nat.succ_pos _) hle

theorem NestedSource.eq_self {text source : String} (h : NestedSource text source 0) :
    source = text := by
  generalize hplace : 0 = place at h
  cases h with
  | self => rfl
  | substitution h =>
    have := h.pos
    omega

/-- An error that quotes a place is one that the lexer has found in some source within the text. -/
def QuotesNested (text : String) (e : ParseError) : Prop :=
  ∀ lex n, e.fault = .lexical lex → lex.fault.openedAt? = some n →
    ∃ source place, NestedSource text source place ∧ tokenize source = .error lex ∧
      e.position = place + lex.position

theorem quotesNested_of_inEscape {text : String} {lex : LexError} (h : lex.InEscape) :
    QuotesNested text (.ofLex lex) := by
  obtain ⟨sequence, hfault⟩ := h
  rintro _ n ⟨⟩ hopened
  rw [hfault] at hopened
  cases hopened

theorem stringValue_meets (t : Token) :
    Meets LexError.InEscape (fun _ => True) (stringValue t) :=
  (unescape_meets _ _).bind fun _ _ => trivial

theorem quotesNestedLaw : Parser.ErrorLaw QuotesNested where
  own := by
    intro text e hdetail _ lex n hfault
    rw [ParseError.detail?, hfault] at hdetail
    cases hdetail
  scan := by
    rintro text lex h _ n ⟨⟩ -
    exact ⟨text, 0, .self text, h, (Nat.zero_add _).symm⟩
  string := by
    intro text t lex _ _ h
    have hmeets := stringValue_meets t
    rw [h] at hmeets
    exact quotesNested_of_inEscape hmeets
  template := by
    intro text t lex ht hkind h
    obtain ⟨chunks, hsplits⟩ := ht.exists_splitsInto hkind
    have hmeets := decodedChunks_meets hsplits
    rw [h] at hmeets
    exact quotesNested_of_inEscape hmeets
  inner := by
    intro text source start e h he lex n hfault hopened
    obtain ⟨nested, place, hnested, hlex, hposition⟩ := he lex n hfault hopened
    refine ⟨nested, start + place, .substitution h hnested, hlex, ?_⟩
    rw [ParseError.shifted_position, hposition]
    omega

/-- A message that quotes a place does so in this way. -/
theorem ParseError.message_of_openedAt {e : ParseError} {lex : LexError} {n : Nat}
    (hfault : e.fault = .lexical lex) (hopened : lex.fault.openedAt? = some n) :
    e.message = lex.fault.description ++ " (opened at position " ++ toString n ++ ")" := by
  have hfound : lex.fault.found? = none := by
    cases hlex : lex.fault with
    | unterminatedString | unterminatedTemplate | unterminatedSubstitution => rfl
    | invalidEscape | invalidCharacter | invalidNumber =>
      rw [hlex] at hopened
      cases hopened
  have hdetail : e.detail? = some lex.message := by
    rw [detail?, hfault]
  rw [message, hdetail]
  dsimp only
  rw [LexError.message, hopened, LexError.reason, hfound]

/-- A message about a literal without an end quotes the place of the literal in the text itself, or
in the source of the substitution that it is in. In the whole text the literal is as much further on
as that source, and the error is at the end of the source. -/
theorem quoted_place {text : String} {e : ParseError} {lex : LexError} {n : Nat}
    (h : Expr.parse text = .error e) (hfault : e.fault = .lexical lex)
    (hopened : lex.fault.openedAt? = some n) :
    e.message = lex.fault.description ++ " (opened at position " ++ toString n ++ ")" ∧
      ∃ source place before literal, NestedSource text source place ∧ (place = 0 → source = text) ∧
        source.toList = before ++ literal ∧ utf8Size before = n ∧ Unended lex.fault literal ∧
        StandsAt text.toList (place + n) literal ∧
        e.position = place + source.utf8ByteSize ∧ place + n ≤ e.position := by
  have hlaw := quotesNestedLaw.parse text
  rw [h] at hlaw
  obtain ⟨source, place, hnested, hlex, hposition⟩ := hlaw lex n hfault hopened
  have hquotes : Meets (LexError.QuotesIn source.toList) (fun _ => True) (tokenize source) :=
    tokensFrom_quotes (List.nil_append _).symm rfl
  rw [hlex] at hquotes
  obtain ⟨before, literal, hsource, hbefore, hunended, hend⟩ := hquotes n hopened
  have hliteral : StandsAt source.toList n literal :=
    ⟨before, [], by rw [hsource, List.append_nil], hbefore⟩
  rw [hend, utf8Size_toList] at hposition
  refine ⟨e.message_of_openedAt hfault hopened, source, place, before, literal, hnested, ?_,
    hsource, hbefore, hunended, hnested.standsAt.trans hliteral, hposition, ?_⟩
  · rintro rfl
    exact hnested.eq_self
  · have hsize := congrArg utf8Size hsource
    rw [utf8Size_toList, utf8Size_append, hbefore] at hsize
    omega

/-- A comment hides the first quote from the lexer, but not from the scan for the brace, so that the
second one has no end. -/
theorem parse_quote_in_comment : Expr.parse "\x60$\x7b /* \" */ \" \x7d\x60" =
    .error { fault := .lexical ⟨.unterminatedString 9, 11⟩, position := 14 } := by
  have herror : (match Expr.parse "\x60$\x7b /* \" */ \" \x7d\x60" with
      | .error e => decide (e = { fault := .lexical ⟨.unterminatedString 9, 11⟩, position := 14 })
      | .ok _ => false) = true := by
    decide +kernel
  split at herror
  · rename_i e hparse
    rw [hparse, of_decide_eq_true herror]
  · cases herror

/-- The place that is quoted is that in the source of the substitution. -/
theorem quoted_place_in_substitution :
    ∃ source place before literal, NestedSource "\x60$\x7b /* \" */ \" \x7d\x60" source place ∧
      source.toList = before ++ literal ∧ utf8Size before = 9 ∧
      Unended (.unterminatedString 9) literal ∧
      StandsAt "\x60$\x7b /* \" */ \" \x7d\x60".toList (place + 9) literal ∧
      14 = place + source.utf8ByteSize := by
  obtain ⟨-, source, place, before, literal, hnested, -, hsource, hbefore, hunended, hstands,
    hposition, -⟩ := quoted_place parse_quote_in_comment rfl rfl
  exact ⟨source, place, before, literal, hnested, hsource, hbefore, hunended, hstands, hposition⟩

/-- Nothing begins at the place that is quoted: the comment ends there, and the string begins three
bytes further on. -/
theorem quoted_place_of_star : ∃ e, Expr.parse "\x60$\x7b /* \" */ \" \x7d\x60" = .error e ∧
    e.message = "unterminated string literal (opened at position 9)" ∧
    StandsAt "\x60$\x7b /* \" */ \" \x7d\x60".toList 9 "*/".toList ∧
    StandsAt "\x60$\x7b /* \" */ \" \x7d\x60".toList 12 "\"".toList := by
  refine ⟨_, parse_quote_in_comment, by decide +kernel, ?_, ?_⟩
  · exact ⟨"\x60$\x7b /* \" ".toList, " \" \x7d\x60".toList, by decide, by decide⟩
  · exact ⟨"\x60$\x7b /* \" */ ".toList, " \x7d\x60".toList, by decide, by decide⟩

end Templating
