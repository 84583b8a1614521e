import Templating.Expr.Literal

/-!
Which bodies of string literals are decoded, and as what. The escapes that a body may be made of are
told by a grammar, one rule for each form. A body that is not made of them is decoded in one case
only: its last escape is numeric and the end of the literal has cut it short.
-/
namespace Templating
open Text

def hexValue (ds : List Char) : Nat :=
  Decimal.digitsValue 16 (fun d => (Decimal.digitValue? 16 d).getD 0) ds

/-- One hexadecimal digit or more whose number is that of the character. -/
structure NamesChar (ds : List Char) (c : Char) : Prop where
  nonempty : ds ≠ []
  digits : ds.all Decimal.isHexDigit = true
  value : hexValue ds = c.toNat

theorem readHex?_of_digits {ds : List Char} (hne : ds ≠ [])
    (hall : ds.all Decimal.isHexDigit = true) :
    Decimal.readHex? ds =
      if hexValue ds ≤ 0xFFFFFFFFFFFFFFFF then some (hexValue ds) else none := by
  unfold Decimal.readHex? Decimal.readNat?
  split
  · cases hall
  · have hdigits : (ds.all fun c => (Decimal.digitValue? 16 c).isSome) = true := hall
    simp only [hdigits, List.isEmpty_eq_false_iff.mpr hne]
    rfl

theorem toNat_ofNat_of_isValidChar {n : Nat} (h : n.isValidChar) : (Char.ofNat n).toNat = n := by
  unfold Char.ofNat
  rw [dif_pos h]
  rfl

theorem codePoint?_eq_some_iff {ds : List Char} {c : Char} :
    codePoint? ds = some c ↔ NamesChar ds c := by
  constructor
  · intro h
    unfold codePoint? at h
    split at h
    · rename_i hall
      have hne : ds ≠ [] := by
        rintro rfl
        cases h
      obtain ⟨n, hn, hc⟩ := Option.bind_eq_some_iff.mp h
      rw [readHex?_of_digits hne hall, Option.ite_none_right_eq_some, Option.some.injEq] at hn
      rw [Option.ite_none_right_eq_some, Option.some.injEq] at hc
      exact ⟨hne, hall, by rw [hn.2, ← hc.2, toNat_ofNat_of_isValidChar hc.1]⟩
    · cases h
  · intro h
    have hvalid : c.toNat.isValidChar := c.valid
    have hle : hexValue ds ≤ 0xFFFFFFFFFFFFFFFF := by
      rw [h.value]
      rcases hvalid with hlt | hlt <;> omega
    unfold codePoint?
    rw [if_pos h.digits, readHex?_of_digits h.nonempty h.digits, if_pos hle, h.value,
      Option.bind_some, if_pos hvalid, Char.ofNat_toNat]

def letterEscapes : List (Char × Char) :=
  [('n', '\n'), ('t', '\t'), ('r', '\r'), ('b', '\x08'), ('f', '\x0c'), ('v', '\x0b'),
    ('0', '\x00')]

inductive EscapeOf : List Char → List Char → Prop
  | letter {l c : Char} (h : (l, c) ∈ letterEscapes) : EscapeOf [l] [c]
  | lineBreak : EscapeOf ['\n'] []
  | twoDigits {d d' c : Char} (h : NamesChar [d, d'] c) : EscapeOf ['x', d, d'] [c]
  | fourDigits {d₁ d₂ d₃ d₄ c : Char} (h : NamesChar [d₁, d₂, d₃, d₄] c) :
      EscapeOf ['u', d₁, d₂, d₃, d₄] [c]
  | braced {ds : List Char} {c : Char} (h : NamesChar ds c) :
      EscapeOf ('u' :: '\x7b' :: (ds ++ ['\x7d'])) [c]
  | itself {l : Char} (hletter : ∀ c, (l, c) ∉ letterEscapes) (hbreak : l ≠ '\n')
      (hx : l ≠ 'x') (hu : l ≠ 'u') : EscapeOf [l] [l]

/-- A text made of plain characters and whole escapes, and what they stand for in order. -/
inductive Decodes : List Char → List Char → Prop
  | nil : Decodes [] []
  | plain {c : Char} {cs ds : List Char} (hc : c ≠ '\\') (h : Decodes cs ds) :
      Decodes (c :: cs) (c :: ds)
  | escape {es es' cs ds : List Char} (he : EscapeOf es es') (h : Decodes cs ds) :
      Decodes ('\\' :: (es ++ cs)) (es' ++ ds)

/-- A numeric escape that ends before its last digit or its closing brace. -/
inductive CutShort : List Char → Char → Prop
  | twoDigits {ds : List Char} {c : Char} (hlt : ds.length < 2) (h : NamesChar ds c) :
      CutShort ('x' :: ds) c
  | fourDigits {ds : List Char} {c : Char} (hlt : ds.length < 4) (h : NamesChar ds c) :
      CutShort ('u' :: ds) c
  | braced {ds : List Char} {c : Char} (h : NamesChar ds c) : CutShort ('u' :: '\x7b' :: ds) c

/-- The text is decoded up to its end, where an escape may be cut short. -/
def DecodesOrCut (cs ds : List Char) : Prop :=
  Decodes cs ds ∨ ∃ before ds' es c, cs = before ++ '\\' :: es ∧ Decodes before ds' ∧
    CutShort es c ∧ ds = ds' ++ [c]

namespace DecodesOrCut

variable {c : Char} {cs ds es es' : List Char}

theorem plain (hc : c ≠ '\\') (h : DecodesOrCut cs ds) : DecodesOrCut (c :: cs) (c :: ds) := by
  rcases h with h | ⟨before, ds', es, d, rfl, hbefore, hcut, rfl⟩
  · exact .inl (.plain hc h)
  · exact .inr ⟨c :: before, c :: ds', es, d, rfl, .plain hc hbefore, hcut, rfl⟩

theorem escape (he : EscapeOf es es') (h : DecodesOrCut cs ds) :
    DecodesOrCut ('\\' :: (es ++ cs)) (es' ++ ds) := by
  rcases h with h | ⟨before, ds', cut, d, rfl, hbefore, hcut, rfl⟩
  · exact .inl (.escape he h)
  · exact .inr ⟨'\\' :: (es ++ before), es' ++ ds', cut, d, by simp, .escape he hbefore, hcut,
      (List.append_assoc ..).symm⟩

theorem cut (h : CutShort es c) : DecodesOrCut ('\\' :: es) [c] :=
  .inr ⟨[], [], es, c, rfl, .nil, h, rfl⟩

end DecodesOrCut

theorem escapeDigits_unbraced {d : Char} (h : d ≠ '\x7b') (cs : List Char) :
    escapeDigits 'u' (d :: cs) = ((d :: cs).take 4, (d :: cs).drop 4) := by
  unfold escapeDigits
  split
  · contradiction
  · split
    · rename_i heq
      cases heq
      exact absurd rfl h
    · rfl

theorem takeWhile_of_hex {ds : List Char} (h : ds.all Decimal.isHexDigit = true)
    (rest : List Char) :
    (ds ++ rest).takeWhile (· != '\x7d') = ds ++ rest.takeWhile (· != '\x7d') ∧
      (ds ++ rest).dropWhile (· != '\x7d') = rest.dropWhile (· != '\x7d') := by
  have hne : ∀ d ∈ ds, (d != '\x7d') = true := by
    intro d hd
    rw [bne_iff_ne]
    rintro rfl
    cases List.all_eq_true.mp h _ hd
  exact ⟨List.takeWhile_append_of_pos hne, List.dropWhile_append_of_pos hne⟩

theorem escapeDigits_braced {ds : List Char} (h : ds.all Decimal.isHexDigit = true)
    (rest : List Char) : escapeDigits 'u' ('\x7b' :: (ds ++ '\x7d' :: rest)) = (ds, rest) := by
  obtain ⟨htake, hdrop⟩ := takeWhile_of_hex h ('\x7d' :: rest)
  change ((ds ++ '\x7d' :: rest).takeWhile (· != '\x7d'),
    ((ds ++ '\x7d' :: rest).dropWhile (· != '\x7d')).drop 1) = _
  rw [htake, hdrop]
  simp

theorem escapeDigits_unclosed {ds : List Char} (h : ds.all Decimal.isHexDigit = true) :
    escapeDigits 'u' ('\x7b' :: ds) = (ds, []) := by
  obtain ⟨htake, hdrop⟩ := takeWhile_of_hex h []
  rw [List.append_nil] at htake hdrop
  change (ds.takeWhile (· != '\x7d'), (ds.dropWhile (· != '\x7d')).drop 1) = _
  rw [htake, hdrop]
  simp

/-- A numeric escape is a whole one, or the end of the text has cut it short. -/
theorem escape_of_namesChar {letter c : Char} {cs : List Char}
    (hletter : letter = 'x' ∨ letter = 'u') (h : NamesChar (escapeDigits letter cs).1 c) :
    (∃ es, letter :: cs = es ++ (escapeDigits letter cs).2 ∧ EscapeOf es [c]) ∨
      (escapeDigits letter cs).2 = [] ∧ CutShort (letter :: cs) c := by
  rcases hletter with rfl | rfl
  · match cs, h with
    | [], h => exact absurd rfl h.nonempty
    | [d], h => exact .inr ⟨rfl, .twoDigits (Nat.lt_succ_self 1) h⟩
    | d :: d' :: rest, h => exact .inl ⟨['x', d, d'], rfl, .twoDigits h⟩
  · cases cs with
    | nil => exact absurd rfl h.nonempty
    | cons d cs =>
      by_cases hd : d = '\x7b'
      · subst hd
        -- up to the closing brace, if there is one
        have hread : escapeDigits 'u' ('\x7b' :: cs) =
          (cs.takeWhile (· != '\x7d'), (cs.dropWhile (· != '\x7d')).drop 1) := rfl
        have hcs := List.takeWhile_append_dropWhile (p := (· != '\x7d')) (l := cs)
        rw [hread] at h ⊢
        cases hdrop : cs.dropWhile (· != '\x7d') with
        | nil =>
          rw [hdrop, List.append_nil] at hcs
          rw [hcs] at h
          exact .inr ⟨rfl, .braced h⟩
        | cons e rest =>
          have he : e = '\x7d' := by
            have := List.head?_dropWhile_not (· != '\x7d') cs
            rw [hdrop] at this
            simpa using this
          subst he
          rw [hdrop] at hcs
          refine .inl ⟨_, ?_, .braced h⟩
          simp only [List.drop_one, List.tail_cons, List.cons_append, List.append_assoc,
            List.nil_append, hcs]
      · rw [escapeDigits_unbraced hd] at h ⊢
        match cs, h with
        | [], h => exact .inr ⟨rfl, .fourDigits (by simp) h⟩
        | [_], h => exact .inr ⟨rfl, .fourDigits (by simp) h⟩
        | [_, _], h => exact .inr ⟨rfl, .fourDigits (by simp) h⟩
        | d₂ :: d₃ :: d₄ :: rest, h => exact .inl ⟨['u', d, d₂, d₃, d₄], rfl, .fourDigits h⟩

theorem letterEscape?_eq_some_iff {l c : Char} :
    letterEscape? l = some c ↔ (l, c) ∈ letterEscapes := by
  unfold letterEscapes
  simp only [List.mem_cons, Prod.mk.injEq, List.not_mem_nil, or_false]
  constructor
  · intro h
    unfold letterEscape? at h
    split at h <;> simp_all <;> exact h.symm
  · rintro (⟨rfl, rfl⟩ | ⟨rfl, rfl⟩ | ⟨rfl, rfl⟩ | ⟨rfl, rfl⟩ | ⟨rfl, rfl⟩ | ⟨rfl, rfl⟩ |
      ⟨rfl, rfl⟩) <;> rfl

/-- A character after a backslash that begins no numeric escape and no new line. -/
theorem escapeOf_getD {l : Char} (hnumeric : ¬ (l = 'x' ∨ l = 'u')) (hbreak : l ≠ '\n') :
    EscapeOf [l] [(letterEscape? l).getD l] := by
  cases hl : letterEscape? l with
  | some c => exact .letter (letterEscape?_eq_some_iff.mp hl)
  | none =>
    refine .itself (fun c hc => ?_) hbreak (fun hx => hnumeric (.inl hx)) fun hu =>
      hnumeric (.inr hu)
    rw [letterEscape?_eq_some_iff.mpr hc] at hl
    cases hl

theorem ok_of_bind_cons {ε : Type} {r : Except ε (List Char)} {c : Char} {ds : List Char}
    (h : (do let tail ← r; return c :: tail : Except ε (List Char)) = .ok ds) :
    ∃ tail, r = .ok tail ∧ ds = c :: tail := by
  cases r with
  | error e => cases h
  | ok tail =>
    cases h
    exact ⟨tail, rfl, rfl⟩

theorem decodesOrCut_of_unescape {position : Nat} {cs ds : List Char}
    (h : unescape position cs = .ok ds) : DecodesOrCut cs ds := by
  fun_induction unescape position cs generalizing ds with
  | case1 =>
    cases h
    exact .inl .nil
  | case2 => cases h
  | case3 => cases h
  | case4 position letter rest after hnumeric read decoded hsome =>
    rename_i ih
    obtain ⟨tail, htail, rfl⟩ := ok_of_bind_cons h
    rcases escape_of_namesChar hnumeric (codePoint?_eq_some_iff.mp hsome) with
      ⟨es, hes, hescape⟩ | ⟨hend, hcut⟩
    · rw [hes]
      exact (ih htail).escape hescape
    · have hread : read.2 = [] := hend
      rw [hread, unescape] at htail
      cases htail
      exact .cut hcut
  | case5 position rest after hnumeric =>
    rename_i ih
    exact (ih h).escape .lineBreak
  | case6 position letter rest after hnumeric hline =>
    rename_i ih
    obtain ⟨tail, htail, rfl⟩ := ok_of_bind_cons h
    exact (ih htail).escape (escapeOf_getD hnumeric hline)
  | case7 position c cs hc =>
    rename_i ih
    obtain ⟨tail, htail, rfl⟩ := ok_of_bind_cons h
    exact (ih htail).plain hc

theorem unescape_numeric {letter c : Char} {cs tail ds : List Char}
    (hletter : letter = 'x' ∨ letter = 'u') (hread : escapeDigits letter cs = (ds, tail))
    (h : NamesChar ds c) (position : Nat) : ∃ next,
      unescape position ('\\' :: letter :: cs) = (unescape next tail).map (c :: ·) := by
  refine ⟨position + 1 + letter.utf8Size + (utf8Size cs - utf8Size tail), ?_⟩
  rw [unescape.eq_def]
  simp only [if_true, if_pos hletter, hread, codePoint?_eq_some_iff.mpr h]
  cases unescape _ tail <;> rfl

/-- A character that begins no numeric escape and no new line stands for one character. -/
theorem unescape_single {l : Char} (hnumeric : ¬ (l = 'x' ∨ l = 'u')) (hbreak : l ≠ '\n')
    (position : Nat) (rest : List Char) : ∃ next, unescape position ('\\' :: l :: rest) =
      (unescape next rest).map ((letterEscape? l).getD l :: ·) := by
  refine ⟨position + 1 + l.utf8Size, ?_⟩
  rw [unescape.eq_def]
  simp only [if_true, if_neg hnumeric, if_neg hbreak]
  cases unescape _ rest <;> rfl

theorem NamesChar.ne_brace {d c : Char} {ds : List Char} (h : NamesChar (d :: ds) c) :
    d ≠ '\x7b' := by
  rintro rfl
  cases h.digits

/-- A whole escape is decoded whatever comes after it. -/
theorem unescape_escape_append {es es' : List Char} (h : EscapeOf es es') (position : Nat)
    (rest : List Char) : ∃ next, unescape position ('\\' :: (es ++ rest)) =
      (unescape next rest).map (es' ++ ·) := by
  cases h with
  | @letter l c h =>
    have hl := letterEscape?_eq_some_iff.mpr h
    have hother : ¬ (l = 'x' ∨ l = 'u') ∧ l ≠ '\n' := by
      refine ⟨?_, ?_⟩
      · rintro (rfl | rfl) <;> cases hl
      · rintro rfl
        cases hl
    have := unescape_single hother.1 hother.2 position rest
    rwa [hl] at this
  | lineBreak =>
    refine ⟨position + 1 + '\n'.utf8Size, ?_⟩
    have hletter : ¬ ('\n' = 'x' ∨ '\n' = 'u') := by decide
    rw [List.singleton_append, unescape.eq_def]
    simp only [if_true, if_neg hletter]
    cases unescape _ rest <;> rfl
  | @twoDigits d d' c h =>
    have hread : escapeDigits 'x' (d :: d' :: rest) = ([d, d'], rest) := rfl
    exact unescape_numeric (.inl rfl) hread h position
  | @fourDigits d₁ d₂ d₃ d₄ c h =>
    have hread : escapeDigits 'u' (d₁ :: d₂ :: d₃ :: d₄ :: rest) = ([d₁, d₂, d₃, d₄], rest) :=
      escapeDigits_unbraced h.ne_brace _
    exact unescape_numeric (.inr rfl) hread h position
  | @braced ds c h =>
    rw [List.cons_append, List.cons_append, List.append_assoc, List.singleton_append]
    exact unescape_numeric (.inr rfl) (escapeDigits_braced h.digits rest) h position
  | @itself l hletter hbreak hx hu =>
    have hl : letterEscape? l = none := by
      cases hl : letterEscape? l with
      | none => rfl
      | some c => exact absurd (letterEscape?_eq_some_iff.mp hl) (hletter c)
    have := unescape_single (fun h => h.elim hx hu) hbreak position rest
    rwa [hl] at this

theorem unescape_append {cs ds : List Char} (h : Decodes cs ds) (position : Nat)
    (rest : List Char) : ∃ next, unescape position (cs ++ rest) =
      (unescape next rest).map (ds ++ ·) := by
  induction h generalizing position with
  | nil => exact ⟨position, by cases hr : unescape position rest <;> simp [hr, Except.map]⟩
  | @plain c cs ds hc _ ih =>
    obtain ⟨next, hnext⟩ := ih (position + c.utf8Size)
    refine ⟨next, ?_⟩
    rw [List.cons_append, unescape.eq_def]
    simp only [if_neg hc, hnext]
    cases unescape next rest <;> rfl
  | @escape es es' cs ds he _ ih =>
    obtain ⟨middle, hmiddle⟩ := unescape_escape_append he position (cs ++ rest)
    obtain ⟨next, hnext⟩ := ih middle
    refine ⟨next, ?_⟩
    rw [List.cons_append, List.append_assoc, hmiddle, hnext]
    cases unescape next rest <;> simp [Except.map]

theorem unescape_cut {es : List Char} {c : Char} (h : CutShort es c) (position : Nat) :
    unescape position ('\\' :: es) = .ok [c] := by
  have hend : ∀ {letter : Char} {cs ds : List Char}, letter = 'x' ∨ letter = 'u' →
      escapeDigits letter cs = (ds, []) → NamesChar ds c →
        unescape position ('\\' :: letter :: cs) = .ok [c] := by
    intro letter cs ds hletter hread h
    obtain ⟨next, hnext⟩ := unescape_numeric hletter hread h position
    rw [hnext, unescape]
    rfl
  cases h with
  | @twoDigits ds _ hlt h =>
    refine hend (.inl rfl) ?_ h
    change (ds.take 2, ds.drop 2) = _
    rw [List.take_of_length_le (Nat.le_of_lt hlt), List.drop_of_length_le (Nat.le_of_lt hlt)]
  | @fourDigits ds _ hlt h =>
    refine hend (.inr rfl) ?_ h
    cases ds with
    | nil => exact absurd rfl h.nonempty
    | cons d ds =>
      rw [escapeDigits_unbraced h.ne_brace, List.take_of_length_le (Nat.le_of_lt hlt),
        List.drop_of_length_le (Nat.le_of_lt hlt)]
  | braced h => exact hend (.inr rfl) (escapeDigits_unclosed h.digits) h

theorem unescape_of_decodesOrCut {cs ds : List Char} (h : DecodesOrCut cs ds) (position : Nat) :
    unescape position cs = .ok ds := by
  rcases h with h | ⟨before, ds', es, c, rfl, hbefore, hcut, rfl⟩
  · obtain ⟨next, hnext⟩ := unescape_append h position []
    rw [List.append_nil, unescape] at hnext
    rw [hnext, Except.map, List.append_nil]
  · obtain ⟨next, hnext⟩ := unescape_append hbefore position ('\\' :: es)
    rw [hnext, unescape_cut hcut]
    rfl

/-- A string literal is decoded exactly when its body is made of plain characters and whole escapes,
or ends with a numeric escape cut short; its value is what these stand for. -/
theorem stringValue_eq_ok_iff (quote : Char) (body : List Char) (start : Nat) (value : String) :
    stringValue ⟨.string, String.ofList (quote :: (body ++ [quote])), start⟩ = .ok value ↔
      Decodes body value.toList ∨ ∃ before ds es c, body = before ++ '\\' :: es ∧
        Decodes before ds ∧ CutShort es c ∧ value.toList = ds ++ [c] := by
  change _ ↔ DecodesOrCut body value.toList
  unfold stringValue literalBody
  simp only [String.toList_ofList, List.drop_one, List.tail_cons, List.dropLast_concat]
  constructor
  · intro h
    cases hcs : unescape (start + 1) body with
    | error e =>
      rw [hcs] at h
      cases h
    | ok cs =>
      rw [hcs] at h
      cases h
      rw [String.toList_ofList]
      exact decodesOrCut_of_unescape hcs
  · intro h
    rw [unescape_of_decodesOrCut h]
    exact congrArg Except.ok String.ofList_toList

/-- The second digit is missing. -/
example : stringValue ⟨.string, "'\\x4'", 0⟩ = .ok "\x04" := by cbv

end Templating
