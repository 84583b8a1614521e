import Templating.Proofs.Substitutions

/-!
Tokens with a blank between them. A token that stands alone in a text is read as the same token
before a blank or a new line, so that the text of tokens joined by blanks is read as these tokens.
-/
namespace Templating
open Text

/-- The text begins with a blank or a new line, if it is not over. -/
def Spaced (rest : List Char) : Prop := ∀ d ∈ rest.head?, d = ' ' ∨ d = '\n'

namespace Spaced

variable {rest : List Char}

theorem nil : Spaced [] := fun _ h => by cases h

theorem blank (rest : List Char) : Spaced (' ' :: rest) := by
  intro d hd
  cases hd
  exact .inl rfl

theorem newLine (rest : List Char) : Spaced ('\n' :: rest) := by
  intro d hd
  cases hd
  exact .inr rfl

/-- What neither a blank nor a new line is, the head of the text is not. -/
theorem head?_any (h : Spaced rest) {p : Char → Bool} (hblank : p ' ' = false)
    (hbreak : p '\n' = false) : rest.head?.any p = false := by
  cases rest with
  | nil => rfl
  | cons d rest =>
    rcases h d rfl with rfl | rfl
    · exact hblank
    · exact hbreak

theorem takeWhile (h : Spaced rest) {p : Char → Bool} (hblank : p ' ' = false)
    (hbreak : p '\n' = false) (cs : List Char) : (cs ++ rest).takeWhile p = cs.takeWhile p := by
  have hnone : rest.takeWhile p = [] := by
    cases rest with
    | nil => rfl
    | cons d rest =>
      have hd : p d = false := h.head?_any hblank hbreak
      rw [List.takeWhile_cons, hd]
      rfl
  induction cs with
  | nil => exact hnone
  | cons c cs ih => simp only [List.cons_append, List.takeWhile_cons, ih]

/-- A text goes on as it did. -/
theorem head?_append (h : Spaced rest) {p : Char → Bool} (hblank : p ' ' = false)
    (hbreak : p '\n' = false) (cs : List Char) : (cs ++ rest).head?.any p = cs.head?.any p := by
  cases cs with
  | nil => exact h.head?_any hblank hbreak
  | cons c cs => rfl

end Spaced

section Before

variable {c : Char} {cs rest : List Char} {n : Nat}

theorem closingLength?_append {es : List Enclosure} (h : closingLength? es cs = some n)
    (rest : List Char) : closingLength? es (cs ++ rest) = some n := by
  obtain ⟨hle, hleads⟩ := Enclosure.leads_of_closingLength? h
  have hread := hleads [] (cs.drop n ++ rest)
  rw [List.append_nil, ← List.append_assoc, List.take_append_drop, List.append_nil] at hread
  rw [hread, closingLength?, List.length_take, Nat.min_eq_left hle]
  simp

theorem numeralLength?_spaced (hrest : Spaced rest) {seenPoint seenExponent : Bool}
    (h : numeralLength? seenPoint seenExponent cs = some n) :
    numeralLength? seenPoint seenExponent (cs ++ rest) = some n ∧ n ≤ cs.length := by
  fun_induction numeralLength? seenPoint seenExponent cs generalizing n with
  | case1 =>
    cases h
    refine ⟨?_, Nat.le_refl 0⟩
    cases rest with
    | nil => rw [List.nil_append, numeralLength?]
    | cons d rest =>
      rw [List.nil_append, numeralLength?.eq_def]
      rcases hrest d rfl with rfl | rfl <;> rfl
  | case2 _ _ c cs hc ih =>
    obtain ⟨m, hm, rfl⟩ := Option.map_eq_some_iff.mp h
    obtain ⟨hread, hle⟩ := ih hm
    refine ⟨?_, Nat.succ_le_succ hle⟩
    rw [List.cons_append, numeralLength?.eq_def]
    simp only [if_pos hc, hread]
    rfl
  | case3 _ _ c cs hdigit hc ih =>
    obtain ⟨m, hm, rfl⟩ := Option.map_eq_some_iff.mp h
    obtain ⟨hread, hle⟩ := ih hm
    refine ⟨?_, Nat.succ_le_succ hle⟩
    rw [List.cons_append, numeralLength?.eq_def]
    simp only [if_neg hdigit, if_pos hc, hread]
    rfl
  | case5 _ _ c hdigit hpoint hc sign cs hsign hnext ih =>
    obtain ⟨m, hm, rfl⟩ := Option.map_eq_some_iff.mp h
    obtain ⟨hread, hle⟩ := ih hm
    have hnext' : (cs ++ rest).head?.any Char.isDigit = true := by
      rw [hrest.head?_append rfl rfl, hnext]
    refine ⟨?_, Nat.succ_le_succ (Nat.succ_le_succ hle)⟩
    rw [List.cons_append, List.cons_append, numeralLength?.eq_def]
    simp only [if_neg hdigit, if_neg hpoint, if_pos hc, if_pos hsign, if_pos hnext', hread]
    rfl
  | case7 _ _ c hdigit hpoint hc digit cs hsign hfirst ih =>
    obtain ⟨m, hm, rfl⟩ := Option.map_eq_some_iff.mp h
    obtain ⟨hread, hle⟩ := ih hm
    refine ⟨?_, Nat.succ_le_succ (Nat.succ_le_succ hle)⟩
    rw [List.cons_append, List.cons_append, numeralLength?.eq_def]
    simp only [if_neg hdigit, if_neg hpoint, if_pos hc, if_neg hsign, if_pos hfirst, hread]
    rfl
  | case4 | case6 | case8 => cases h
  | case9 _ _ c cs hdigit hpoint hc =>
    cases h
    refine ⟨?_, Nat.zero_le _⟩
    rw [List.cons_append, numeralLength?.eq_def]
    simp only [if_neg hdigit, if_neg hpoint, if_neg hc]

theorem numberLength?_spaced (hrest : Spaced rest) (h : numberLength? (c :: cs) = some n) :
    numberLength? (c :: (cs ++ rest)) = some n ∧ n ≤ (c :: cs).length := by
  rcases numberLength?_cases h with ⟨x, digits, heq, hx, rfl⟩ | ⟨hdecimal, hnumeral⟩
  · cases heq
    have hdigits := hrest.takeWhile (p := Decimal.isHexDigit) (by decide) (by decide) digits
    have hle := (List.takeWhile_prefix (l := digits) Decimal.isHexDigit).length_le
    rw [numberLength?_hexadecimal hx] at h
    rw [List.cons_append, numberLength?_hexadecimal hx, hdigits]
    exact ⟨h, Nat.succ_le_succ (Nat.succ_le_succ hle)⟩
  · have hstill : ∀ x digits, c :: (cs ++ rest) = '0' :: x :: digits → ¬ (x = 'x' ∨ x = 'X') := by
      intro x digits heq
      cases cs with
      | nil =>
        obtain ⟨-, rfl⟩ := List.cons.inj heq
        rcases hrest x rfl with rfl | rfl <;> decide
      | cons d cs =>
        cases heq
        exact hdecimal x cs rfl
    rw [numberLength?_decimal hstill]
    exact numeralLength?_spaced hrest hnumeral

/-- Punctuation begins a text before a blank just when it begins the text. -/
theorem Punct.begins_spaced (p : Punct) (hrest : Spaced rest) :
    p.begins (c :: (cs ++ rest)) = p.begins (c :: cs) := by
  have hspelling : p.spelling.toList.all (fun d => d != ' ' && d != '\n') = true := by
    cases p <;> rfl
  have honly : p.spelling.toList <+: (c :: cs) ++ rest → p.spelling.toList <+: c :: cs := by
    intro hp
    rcases List.prefix_or_prefix_of_prefix hp (List.prefix_append (c :: cs) rest) with h | ⟨t, ht⟩
    · exact h
    · cases t with
      | nil =>
        rw [List.append_nil] at ht
        exact ht ▸ List.prefix_refl _
      | cons d t =>
        -- the punctuation would have the blank in it
        rw [← ht, List.prefix_append_right_inj] at hp
        obtain ⟨t', rfl⟩ := hp
        have hd := List.all_eq_true.mp hspelling d (by simp [← ht])
        rcases hrest d rfl with rfl | rfl
        · cases hd
        · cases hd
  have hbegins : p.spelling.toList.isPrefixOf (c :: (cs ++ rest)) =
      p.spelling.toList.isPrefixOf (c :: cs) := by
    rw [Bool.eq_iff_iff, List.isPrefixOf_iff_prefix, List.isPrefixOf_iff_prefix]
    exact ⟨honly, fun hp => hp.trans (List.prefix_append (c :: cs) rest)⟩
  have hdigit : ((c :: (cs ++ rest)).drop 2).head?.any Char.isDigit =
      ((c :: cs).drop 2).head?.any Char.isDigit ∨ cs = [] := by
    cases cs with
    | nil => exact .inr rfl
    | cons d cs => exact .inl (hrest.head?_append rfl rfl cs)
  unfold begins
  rw [hbegins]
  rcases hdigit with hdigit | rfl
  · rw [hdigit]
  · -- one character is not as long as the punctuation that the digit matters for
    by_cases hq : p = .questionDot
    · subst hq
      simp [spelling, List.isPrefixOf]
    · simp [hq]

/-- A number is a token when no word begins right after it. -/
theorem lexeme_number_iff {start : Nat} {kind : TokenKind}
    (hnumber : c.isDigit = true ∨ c = '.' ∧ cs.head?.any Char.isDigit = true) :
    lexeme start c cs = .ok (kind, n) ↔ ∃ m, numberLength? (c :: cs) = some m ∧
      ((c :: cs).drop m).head?.any isWordStart = false ∧ kind = .number ∧ n = m - 1 := by
  have hstart : c.isDigit = true ∨ c = '.' := hnumber.imp_right And.left
  have hquote : ¬ (c = '\x22' ∨ c = '\x27') := by
    rintro (rfl | rfl) <;> revert hstart <;> decide
  have hback : c ≠ '\x60' := by
    rintro rfl
    revert hstart
    decide
  unfold lexeme
  dsimp only
  rw [if_neg hquote, if_neg hback, if_pos hnumber]
  cases numberLength? (c :: cs) with
  | none =>
    constructor
    · intro h
      cases h
    · rintro ⟨_, ⟨⟩, -⟩
  | some m =>
    dsimp only
    cases hnext : ((c :: cs).drop m).head? with
    | none =>
      constructor
      · rintro ⟨⟩
        exact ⟨m, rfl, by rw [hnext]; rfl, rfl, rfl⟩
      · rintro ⟨_, ⟨⟩, -, rfl, rfl⟩
        rfl
    | some next =>
      dsimp only
      constructor
      · intro h
        split at h
        · cases h
        · rename_i hword
          cases h
          exact ⟨m, rfl, by rw [hnext]; exact eq_false_of_ne_true hword, rfl, rfl⟩
      · rintro ⟨_, ⟨⟩, hword, rfl, rfl⟩
        rw [hnext] at hword
        exact if_neg (ne_true_of_eq_false hword)

theorem lexeme_spaced {start : Nat} {kind : TokenKind} (hrest : Spaced rest)
    (h : lexeme start c cs = .ok (kind, n)) : lexeme start c (cs ++ rest) = .ok (kind, n) := by
  have hbegins : (fun p : Punct => p.begins (c :: (cs ++ rest))) = fun p => p.begins (c :: cs) :=
    funext fun p => p.begins_spaced hrest
  have hpoint : (cs ++ rest).head?.any Char.isDigit = cs.head?.any Char.isDigit :=
    hrest.head?_append rfl rfl cs
  have hword : (cs ++ rest).takeWhile isWordPart = cs.takeWhile isWordPart :=
    hrest.takeWhile (by decide) (by decide) cs
  by_cases hnumber : c.isDigit = true ∨ c = '.' ∧ cs.head?.any Char.isDigit = true
  · obtain ⟨m, hm, hnext, rfl, rfl⟩ := (lexeme_number_iff hnumber).mp h
    obtain ⟨hread, hle⟩ := numberLength?_spaced hrest hm
    rw [← hpoint] at hnumber
    refine (lexeme_number_iff hnumber).mpr ⟨m, hread, ?_, rfl, rfl⟩
    rw [← List.cons_append, List.drop_append_of_le_length hle,
      hrest.head?_append (by decide) (by decide), hnext]
  · unfold lexeme at h ⊢
    dsimp only at h ⊢
    rw [if_neg hnumber] at h
    rw [hpoint, if_neg hnumber, hbegins, hword]
    split at h
    · rename_i hquote
      rw [if_pos hquote]
      split at h
      · rename_i m hm
        cases h
        rw [closingLength?_append hm]
      · cases h
    · rename_i hquote
      rw [if_neg hquote]
      split at h
      · rename_i hback
        rw [if_pos hback]
        split at h
        · rename_i m hm
          cases h
          rw [closingLength?_append hm]
        · cases h
      · rename_i hback
        rw [if_neg hback]
        exact h

theorem lexeme_le {start : Nat} {kind : TokenKind} (h : lexeme start c cs = .ok (kind, n)) :
    n ≤ cs.length := by
  rcases lexeme_cases h with ⟨-, -, hlength⟩ | ⟨-, -, hlength⟩ | ⟨-, hlength, -⟩ | ⟨-, -, rfl⟩ |
    ⟨p, -, hp, rfl⟩
  · exact (Enclosure.leads_of_closingLength? hlength).1
  · exact (Enclosure.leads_of_closingLength? hlength).1
  · exact Nat.le_of_succ_le_succ (numberLength?_spaced .nil hlength).2
  · exact (List.takeWhile_prefix (l := cs) isWordPart).length_le
  · have hlength := congrArg List.length (take_of_find? hp)
    rw [String.length_toList, List.length_cons, List.length_take] at hlength
    omega

/-- A token after which nothing is skipped begins a text before a blank. -/
theorem skipGap_spaced (hrest : Spaced rest) (h : skipGap .blank (c :: cs) = c :: cs) :
    skipGap .blank (c :: (cs ++ rest)) = c :: (cs ++ rest) := by
  have hshorter (gap : Gap) (ds : List Char) (hds : ds.length < (c :: cs).length) :
      skipGap gap ds ≠ c :: cs := by
    intro heq
    have hle := (skipGap_suffix gap ds).length_le
    rw [heq] at hle
    omega
  have hcomment (d : Char) (hd : d ≠ ' ' ∧ d ≠ '\n') (ds : List Char) (hds : cs ++ rest = d :: ds) :
      ∃ ds', cs = d :: ds' := by
    cases cs with
    | nil =>
      have hhead : rest.head? = some d := by
        rw [List.nil_append] at hds
        rw [hds]
        rfl
      exact ((hrest d hhead).elim hd.1 hd.2).elim
    | cons e cs =>
      cases hds
      exact ⟨cs, rfl⟩
  conv => lhs; unfold skipGap
  split
  · rename_i heq
    cases heq
  · rename_i hgap _
    cases hgap
  · rename_i hgap _
    cases hgap
  · rename_i hgap _
    cases hgap
  · rename_i heq
    -- a comment would begin here without the rest as well
    obtain ⟨rfl, hds⟩ := List.cons.inj heq
    obtain ⟨ds, rfl⟩ := hcomment '/' (by decide) _ hds
    exact absurd h (hshorter .lineComment ds (by simp only [List.length_cons]; omega))
  · rename_i heq
    obtain ⟨rfl, hds⟩ := List.cons.inj heq
    obtain ⟨ds, rfl⟩ := hcomment '*' (by decide) _ hds
    exact absurd h (hshorter .blockComment ds (by simp only [List.length_cons]; omega))
  · rename_i heq
    cases heq
    split
    · rename_i hblank
      rw [skipGap_blank_cons hblank] at h
      exact absurd h (hshorter _ cs (Nat.lt_succ_self _))
    · rfl

end Before

/-- The lexeme is the one token of its text. -/
def IsToken (l : Lexeme) : Prop :=
  ∃ start, tokenize (String.ofList l.text) = .ok [⟨l.kind, String.ofList l.text, start⟩]

theorem Lexeme.Valid.isToken {l : Lexeme} (h : l.Valid) : IsToken l := by
  obtain ⟨places, hplaces⟩ := tokenize_spell (List.forall_mem_singleton.mpr h)
  have hspell : spell [l] = l.text := by simp [spell, spellAfter, Lexeme.gap]
  rw [hspell] at hplaces
  exact ⟨places 0, hplaces⟩

/-- The text of lexemes with a blank between them. -/
def joined (ls : List Lexeme) : List Char := [' '].intercalate (ls.map Lexeme.text)

theorem joined_cons_cons (l l' : Lexeme) (ls : List Lexeme) :
    joined (l :: l' :: ls) = l.text ++ ' ' :: joined (l' :: ls) := by
  simp [joined, List.intercalate]

def tokensAt (position : Nat) : List Lexeme → List Token
  | [] => []
  | l :: ls => ⟨l.kind, String.ofList l.text, position⟩ ::
      tokensAt (position + utf8Size l.text + 1) ls

theorem exists_places (position : Nat) (ls : List Lexeme) :
    ∃ places, tokensAt position ls = placed places ls := by
  induction ls generalizing position with
  | nil => exact ⟨id, rfl⟩
  | cons l ls ih =>
    obtain ⟨places, hplaces⟩ := ih (position + utf8Size l.text + 1)
    exact ⟨consPlace position places, congrArg (List.cons _) hplaces⟩

theorem le_start_of_mem {position : Nat} {ls : List Lexeme} {t : Token}
    (h : t ∈ tokensAt position ls) : position ≤ t.start := by
  induction ls generalizing position with
  | nil => cases h
  | cons l ls ih =>
    rcases List.mem_cons.mp h with rfl | h
    · exact Nat.le_refl _
    · have hle := ih h
      omega

/-- Tokens of a text can be moved to any places, since no two of them stand at the same place. -/
theorem exists_move (places : Nat → Nat) (position : Nat) (ls : List Lexeme) :
    ∃ move, placed places ls = (tokensAt position ls).map (Token.moved move) := by
  induction ls generalizing places position with
  | nil => exact ⟨id, rfl⟩
  | cons l ls ih =>
    obtain ⟨move, hmove⟩ := ih (fun n => places (n + 1)) (position + utf8Size l.text + 1)
    refine ⟨fun n => if n = position then places 0 else move n, ?_⟩
    have hothers : ∀ t ∈ tokensAt (position + utf8Size l.text + 1) ls,
        t.moved move = t.moved fun n => if n = position then places 0 else move n := by
      intro t ht
      have hle := le_start_of_mem ht
      have hne : t.start ≠ position := by omega
      simp [Token.moved, hne]
    rw [placed_cons, hmove, tokensAt, List.map_cons, List.map_congr_left hothers]
    simp [Token.moved]

/-- A lexeme that is a token alone is one before a blank as well. -/
theorem IsToken.reads {l : Lexeme} (h : IsToken l) : ∃ c cs, l.text = c :: cs ∧
    skipGap .blank (c :: cs) = c :: cs ∧
    ∀ start rest, Spaced rest → lexeme start c (cs ++ rest) = .ok (l.kind, cs.length) := by
  obtain ⟨start, h⟩ := h
  rw [tokenize, String.toList_ofList, tokensFrom_eq] at h
  cases hskip : skipGap .blank l.text with
  | nil =>
    rw [hskip] at h
    cases h
  | cons c cs =>
    rw [hskip] at h
    obtain ⟨⟨kind, n⟩, hread, hrest⟩ := Parser.exists_of_bind h
    obtain ⟨ts, -, htokens⟩ := Parser.exists_of_bind hrest
    obtain ⟨hhead, -⟩ := List.cons.inj (Except.ok.inj htokens)
    obtain ⟨hkind, htext, -⟩ := Token.mk.inj hhead
    have htaken : c :: cs.take n = l.text := String.ofList_injective htext
    have hle := lexeme_le hread
    have hlength := (skipGap_suffix .blank l.text).length_le
    rw [hskip, ← htaken] at hlength
    simp only [List.length_cons, List.length_take] at hlength
    have hn : n = cs.length := by omega
    have hl : l.text = c :: cs := by rw [← htaken, hn, List.take_length]
    rw [hl] at hskip
    refine ⟨c, cs, hl, hskip, fun start rest hspaced => ?_⟩
    rw [lexeme_spaced hspaced (lexeme_at hread), ← hkind, hn]

/-- One token, and then what comes after it. -/
theorem IsToken.tokensFrom_append {l : Lexeme} (h : IsToken l) (position : Nat) {rest : List Char}
    (hrest : Spaced rest) : tokensFrom position (l.text ++ rest) =
      (tokensFrom (position + utf8Size l.text) rest).map
        (⟨l.kind, String.ofList l.text, position⟩ :: ·) := by
  obtain ⟨c, cs, htext, hskip, hread⟩ := h.reads
  have hgap : skipGap .blank (l.text ++ rest) = c :: (cs ++ rest) := by
    rw [htext, List.cons_append]
    exact skipGap_spaced hrest hskip
  have hplace :
      position + (utf8Size (l.text ++ rest) - utf8Size (c :: (cs ++ rest))) = position := by
    rw [htext, List.cons_append]
    omega
  rw [tokensFrom_eq, hgap]
  dsimp only
  rw [hplace, hread position rest hrest, htext]
  change (tokensFrom (position + utf8Size (c :: (cs ++ rest).take cs.length))
    ((cs ++ rest).drop cs.length)).map
      (⟨l.kind, String.ofList (c :: (cs ++ rest).take cs.length), position⟩ :: ·) = _
  rw [List.take_left, List.drop_left]

/-- The text of tokens is read as these tokens. -/
theorem tokensFrom_joined {ls : List Lexeme} (h : ∀ l ∈ ls, IsToken l) (position : Nat) :
    tokensFrom position (joined ls) = .ok (tokensAt position ls) := by
  induction ls generalizing position with
  | nil =>
    rw [tokensFrom_eq]
    rfl
  | cons l ls ih =>
    obtain ⟨hl, hls⟩ := List.forall_mem_cons.mp h
    cases ls with
    | nil =>
      have hread := hl.tokensFrom_append position .nil
      rw [List.append_nil] at hread
      have hjoined : joined [l] = l.text := by simp [joined, List.intercalate]
      rw [hjoined, hread, tokensFrom_eq]
      rfl
    | cons l' ls =>
      have hblank : [' '].all isBlank = true := by decide
      have hnext := tokensFrom_blanks hblank (position + utf8Size l.text) (joined (l' :: ls))
      rw [joined_cons_cons, hl.tokensFrom_append position (.blank _)]
      rw [List.singleton_append] at hnext
      rw [hnext, ih hls]
      rfl

end Templating
