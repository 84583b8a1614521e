import Mathlib.Data.List.Basic
import Templating.Expr.Parser

/-!
Texts spelled from lexemes. What is spelled with a blank wherever two words or two operators would
meet is read back as the tokens of these lexemes.
-/
namespace Templating
open Text

namespace Enclosure

/-- The text leaves the enclosure open. -/
def Keeps (e : Enclosure) (cs : List Char) : Prop :=
  ∀ outer rest, closingLength? (e :: outer) (cs ++ rest) =
    (closingLength? (e :: outer) rest).map (· + cs.length)

/-- The text ends with the end of the enclosure. -/
def Closes (e : Enclosure) (cs : List Char) : Prop :=
  ∀ outer rest, closingLength? (e :: outer) (cs ++ rest) =
    (closingLength? outer rest).map (· + cs.length)

variable {e : Enclosure} {cs ds : List Char}

theorem Keeps.nil : Keeps e [] := by
  intro outer rest
  cases h : closingLength? (e :: outer) rest <;> simp [h]

theorem Keeps.append (h : Keeps e cs) (h' : Keeps e ds) : Keeps e (cs ++ ds) := by
  intro outer rest
  rw [List.append_assoc, h, h', Option.map_map, List.length_append]
  congr 1
  funext n
  exact (Nat.add_assoc ..).trans (congrArg (n + ·) (Nat.add_comm ..))

theorem Keeps.closes (h : Keeps e cs) (h' : Closes e ds) : Closes e (cs ++ ds) := by
  intro outer rest
  rw [List.append_assoc, h, h', Option.map_map, List.length_append]
  congr 1
  funext n
  exact (Nat.add_assoc ..).trans (congrArg (n + ·) (Nat.add_comm ..))

theorem Keeps.cons {c : Char} (h : Keeps e [c]) (h' : Keeps e cs) : Keeps e (c :: cs) := h.append h'

/-- The length up to the end of one that is not inside another. -/
theorem Closes.length_eq (h : Closes e cs) (rest : List Char) :
    closingLength? [e] (cs ++ rest) = some cs.length := by
  rw [h [] rest, closingLength?]
  simp

end Enclosure

def TokenKind.ofWord (word : String) : TokenKind :=
  match Keyword.ofWord? word with
  | some k => .keyword k
  | none => .word

/-- A token as it is written, wherever it stands. -/
structure Lexeme where
  kind : TokenKind
  text : List Char
  deriving DecidableEq

namespace Lexeme

def word (w : String) : Lexeme := ⟨.ofWord w, w.toList⟩

def keyword (k : Keyword) : Lexeme := ⟨.keyword k, k.spelling.toList⟩

def punct (p : Punct) : Lexeme := ⟨.punct p, p.spelling.toList⟩

/-- What the tokens of a text can be, numbers left out. -/
inductive Valid : Lexeme → Prop where
  | word {c : Char} {cs : List Char} : isWordStart c = true → cs.all isWordPart = true →
      Valid ⟨.ofWord (String.ofList (c :: cs)), c :: cs⟩
  | punct (p : Punct) : Valid (Lexeme.punct p)
  | string {cs : List Char} : Enclosure.Closes (.quoted '\x27') cs → Valid ⟨.string, '\x27' :: cs⟩
  | template {cs : List Char} : Enclosure.Closes .template cs → Valid ⟨.template, '\x60' :: cs⟩

def isWord (l : Lexeme) : Bool := l.kind.isPropertyName

def isSign (l : Lexeme) : Bool :=
  match l.kind with
  | .punct .comma | .punct .colon | .punct .semicolon => false
  | .punct p => !(p.isOpening || p.isClosing)
  | _ => false

/-- Whether two lexemes must not meet. -/
def clashes (l l' : Lexeme) : Bool := (l.isWord && l'.isWord) || (l.isSign && l'.isSign)

def gap (l' : Lexeme) : Option Lexeme → List Char
  | some l => if l.clashes l' then [' '] else []
  | none => []

end Lexeme

def spellAfter : Option Lexeme → List Lexeme → List Char
  | _, [] => []
  | before, l :: ls => l.gap before ++ (l.text ++ spellAfter (some l) ls)

def spell (ls : List Lexeme) : List Char := spellAfter none ls

def consPlace (first : Nat) (places : Nat → Nat) : Nat → Nat
  | 0 => first
  | n + 1 => places n

def placed (places : Nat → Nat) : List Lexeme → List Token
  | [] => []
  | l :: ls => ⟨l.kind, String.ofList l.text, places 0⟩ :: placed (fun n => places (n + 1)) ls

@[simp] theorem placed_nil (places : Nat → Nat) : placed places [] = [] := rfl

@[simp] theorem placed_cons (places : Nat → Nat) (l : Lexeme) (ls : List Lexeme) :
    placed places (l :: ls) =
      ⟨l.kind, String.ofList l.text, places 0⟩ :: placed (fun n => places (n + 1)) ls := rfl

@[simp] theorem placed_append (places : Nat → Nat) (ls ls' : List Lexeme) :
    placed places (ls ++ ls') =
      placed places ls ++ placed (fun n => places (n + ls.length)) ls' := by
  induction ls generalizing places with
  | nil => rfl
  | cons l ls ih =>
    rw [List.cons_append, placed_cons, placed_cons, ih, List.cons_append]
    simp only [List.length_cons, Nat.add_assoc]

def signParts : List Char := ['=', '!', '.', '*', '<', '>', '&', '|', '?', '+', '-', '/', '%']

def isSignPart (c : Char) : Bool := signParts.contains c

def blankCodes : List Nat :=
  [0x09, 0x0A, 0x0B, 0x0C, 0x0D, 0x20, 0x85, 0xA0, 0x1680, 0x2000, 0x2001, 0x2002, 0x2003, 0x2004,
    0x2005, 0x2006, 0x2007, 0x2008, 0x2009, 0x200A, 0x2028, 0x2029, 0x202F, 0x205F, 0x3000]

theorem toNat_mem_blankCodes {c : Char} (h : isBlank c = true) : c.toNat ∈ blankCodes := by
  simp only [isBlank, Bool.or_eq_true, Bool.and_eq_true, decide_eq_true_eq, beq_iff_eq] at h
  simp only [blankCodes, List.mem_cons, List.not_mem_nil, or_false]
  omega

theorem isWordStart_of_isBlank {c : Char} (h : isBlank c = true) : isWordStart c = false := by
  -- the tables are looked through as lists, which the kernel does faster
  have hcodes : ∀ n ∈ blankCodes,
      (Char.ofNat n == '_' || Char.ofNat n == '$' || (Char.ofNat n).isAlpha) = false ∧
        alphabeticRanges.toList.any (fun r => r.1 ≤ n && n ≤ r.2) = false := by
    decide +kernel
  obtain ⟨hascii, htable⟩ := hcodes _ (toNat_mem_blankCodes h)
  rw [Char.ofNat_toNat, Bool.or_eq_false_iff] at hascii
  unfold isWordStart isAlphabetic inRanges
  rw [hascii.1, ← Array.any_toList, htable, hascii.2, ite_self]
  rfl

theorem isWordStart_of_isDigit {c : Char} (h : c.isDigit = true) : isWordStart c = false := by
  have hascii : ∀ n < 128, (Char.ofNat n).isDigit = true → isWordStart (Char.ofNat n) = false := by
    decide
  have hlt : c.toNat < 128 := by
    have hle : c.val ≤ 57 := (Bool.and_eq_true_iff.mp h).2 |> of_decide_eq_true
    have : c.val.toNat ≤ 57 := UInt32.le_iff_toNat_le.mp hle
    exact Nat.lt_of_le_of_lt this (by decide)
  have := hascii c.toNat hlt
  rw [Char.ofNat_toNat] at this
  exact this h

theorem isWordStart_of_isSignPart {c : Char} (h : isSignPart c = true) : isWordStart c = false := by
  have hnone : signParts.all (fun c => isWordStart c == false) = true := by decide
  exact beq_iff_eq.mp (List.all_eq_true.mp hnone c (List.contains_iff_mem.mp h))

namespace Lexeme

/-- What may follow a lexeme at once. -/
def EndsBefore (l : Lexeme) (rest : List Char) : Prop :=
  ∀ c ∈ rest.head?, (l.isWord = true → isWordPart c = false) ∧
    (l.isSign = true → isSignPart c = false ∧ c.isDigit = false)

theorem isWord_word (w : String) : (Lexeme.word w).isWord = true := by
  unfold isWord Lexeme.word TokenKind.ofWord
  cases Keyword.ofWord? w <;> rfl

/-- A lexeme that is no word does not begin like the rest of one, and one that is no sign does not
begin like the rest of one. -/
theorem Valid.head {l : Lexeme} (h : l.Valid) : ∃ c cs, l.text = c :: cs ∧
    (l.isWord = false → isWordPart c = false) ∧
    (l.isSign = false → isSignPart c = false ∧ c.isDigit = false) := by
  cases h with
  | @word c cs hc hcs =>
    refine ⟨c, cs, rfl, fun hword => ?_, fun _ => ⟨?_, ?_⟩⟩
    · have hisWord := isWord_word (String.ofList (c :: cs))
      simp only [Lexeme.word, String.toList_ofList] at hisWord
      rw [hisWord] at hword
      cases hword
    · cases hsign : isSignPart c with
      | false => rfl
      | true => rw [isWordStart_of_isSignPart hsign] at hc; cases hc
    · cases hdigit : c.isDigit with
      | false => rfl
      | true => rw [isWordStart_of_isDigit hdigit] at hc; cases hc
  | punct p =>
    have hp : ∀ p : Punct, ∃ c cs, (Lexeme.punct p).text = c :: cs ∧ isWordPart c = false ∧
        ((Lexeme.punct p).isSign = false → isSignPart c = false ∧ c.isDigit = false) := by
      intro p
      cases p <;> exact ⟨_, _, rfl, by decide, by decide⟩
    obtain ⟨c, cs, htext, hpart, hsign⟩ := hp p
    exact ⟨c, cs, htext, fun _ => hpart, hsign⟩
  | string => exact ⟨_, _, rfl, fun _ => by decide, fun _ => by decide⟩
  | template => exact ⟨_, _, rfl, fun _ => by decide, fun _ => by decide⟩

theorem endsBefore_spellAfter (l : Lexeme) {ls : List Lexeme} (h : ∀ l' ∈ ls, l'.Valid) :
    l.EndsBefore (spellAfter (some l) ls) := by
  intro c hc
  cases ls with
  | nil => cases hc
  | cons l' ls =>
    unfold spellAfter gap at hc
    cases hclash : l.clashes l' with
    | true =>
      simp only [hclash, if_true, List.cons_append, List.head?_cons, Option.mem_def,
        Option.some.injEq] at hc
      subst hc
      exact ⟨fun _ => by decide, fun _ => by decide⟩
    | false =>
      obtain ⟨c', cs, htext, hword, hsign⟩ := (h l' (List.mem_cons_self ..)).head
      simp only [hclash, Bool.false_eq_true, if_false, List.nil_append, htext, List.cons_append,
        List.head?_cons, Option.mem_def, Option.some.injEq] at hc
      subst hc
      unfold clashes at hclash
      rw [Bool.or_eq_false_iff, Bool.and_eq_false_iff, Bool.and_eq_false_iff] at hclash
      refine ⟨fun hl => hword ?_, fun hl => hsign ?_⟩
      · simpa [hl] using hclash.1
      · simpa [hl] using hclash.2

end Lexeme

theorem Keyword.ofWord?_spelling (k : Keyword) : Keyword.ofWord? k.spelling = some k := by
  cases k <;> decide

theorem skipGap_of_start {c : Char} {cs : List Char} (hblank : isBlank c = false)
    (hslash : c = '/' → ∀ d ∈ cs.head?, isSignPart d = false) :
    skipGap .blank (c :: cs) = c :: cs := by
  unfold skipGap
  split
  · rename_i heq
    cases heq
  · rename_i heq _
    cases heq
  · rename_i heq _
    cases heq
  · rename_i heq _
    cases heq
  · rename_i heq
    cases heq
    exact absurd (hslash rfl '/' rfl) (by decide)
  · rename_i heq
    cases heq
    exact absurd (hslash rfl '*' rfl) (by decide)
  · rename_i heq
    cases heq
    rw [hblank]
    rfl

namespace Punct

theorem find?_prefix (p : Punct) :
    longestFirst.find? (fun q => q.spelling.toList.isPrefixOf p.spelling.toList) = some p := by
  cases p <;> decide

/-- The character with which `q` goes on after `p`. -/
def next? (p q : Punct) : Option Char :=
  if p.spelling.toList.isPrefixOf q.spelling.toList then
    (q.spelling.toList.drop p.spelling.toList.length).head?
  else none

/-- Only signs are the beginning of longer punctuation. -/
theorem isSign_of_prefix (p q : Punct) {c : Char} {cs : List Char}
    (h : q.spelling.toList = p.spelling.toList ++ c :: cs) :
    (Lexeme.punct p).isSign = true ∧ isSignPart c = true := by
  have hall : longestFirst.all (fun p => longestFirst.all fun q =>
      (next? p q).all fun c => (Lexeme.punct p).isSign && isSignPart c) = true := by
    decide +kernel
  have hnext : next? p q = some c := by
    unfold next?
    rw [h, if_pos (List.isPrefixOf_iff_prefix.mpr (List.prefix_append _ _)), List.drop_left]
    rfl
  have hp := List.all_eq_true.mp (List.all_eq_true.mp hall p p.mem_longestFirst) q
    q.mem_longestFirst
  rw [hnext] at hp
  exact Bool.and_eq_true_iff.mp hp

/-- How punctuation begins. A point and a stroke are signs, and no digit follows a point. -/
theorem exists_start (p : Punct) : ∃ c cs, p.spelling.toList = c :: cs ∧ isBlank c = false ∧
    c ≠ '\x22' ∧ c ≠ '\x27' ∧ c ≠ '\x60' ∧ c.isDigit = false ∧ isWordStart c = false ∧
    (c = '.' ∨ c = '/' → (Lexeme.punct p).isSign = true ∧ cs.head?.any Char.isDigit = false) ∧
    (c = '/' → cs = []) := by
  cases p <;> exact ⟨_, _, rfl, by decide, by decide, by decide, by decide, by decide, by decide,
    by decide, by decide⟩

theorem questionDot_of_prefix (p : Punct)
    (h : Punct.questionDot.spelling.toList.isPrefixOf p.spelling.toList = true) :
    p = .questionDot := by
  cases p <;> first | rfl | exact absurd h (by decide)

theorem isPrefixOf_append (p q : Punct) {rest : List Char} (h : (Lexeme.punct p).EndsBefore rest) :
    q.spelling.toList.isPrefixOf (p.spelling.toList ++ rest) =
      q.spelling.toList.isPrefixOf p.spelling.toList := by
  rw [Bool.eq_iff_iff, List.isPrefixOf_iff_prefix, List.isPrefixOf_iff_prefix]
  refine ⟨fun hq => ?_, fun hq => hq.trans (List.prefix_append _ _)⟩
  rcases List.prefix_or_prefix_of_prefix hq (List.prefix_append _ rest) with hqp | ⟨t, ht⟩
  · exact hqp
  · cases t with
    | nil =>
      rw [List.append_nil] at ht
      exact ht ▸ List.prefix_refl _
    | cons c t =>
      -- then `rest` would begin with the character that `q` goes on with
      obtain ⟨hsign, hpart⟩ := isSign_of_prefix p q ht.symm
      rw [← ht, List.prefix_append_right_inj] at hq
      obtain ⟨t', rfl⟩ := hq
      have := ((h c rfl).2 hsign).1
      rw [hpart] at this
      cases this

theorem begins_append (p q : Punct) {rest : List Char} (h : (Lexeme.punct p).EndsBefore rest) :
    q.begins (p.spelling.toList ++ rest) = q.spelling.toList.isPrefixOf p.spelling.toList := by
  unfold begins
  rw [isPrefixOf_append p q h]
  cases hprefix : q.spelling.toList.isPrefixOf p.spelling.toList with
  | false => rfl
  | true =>
    -- the only one that looks further ahead is a question mark with a dot
    cases hq : q == .questionDot with
    | false => rfl
    | true =>
      obtain rfl : q = .questionDot := by simpa using hq
      obtain rfl : p = .questionDot := questionDot_of_prefix p hprefix
      rw [show (Punct.questionDot.spelling.toList ++ rest).drop 2 = rest from rfl]
      cases rest with
      | nil => rfl
      | cons c rest =>
        have hdigit := ((h c rfl).2 rfl).2
        simp [hdigit]

theorem find?_begins (p : Punct) {rest : List Char} (h : (Lexeme.punct p).EndsBefore rest) :
    longestFirst.find? (·.begins (p.spelling.toList ++ rest)) = some p := by
  have hcongr : (fun q : Punct => q.begins (p.spelling.toList ++ rest)) =
      fun q => q.spelling.toList.isPrefixOf p.spelling.toList :=
    funext fun q => p.begins_append q h
  rw [hcongr, find?_prefix]

end Punct

namespace Lexeme

structure ReadFrom (l : Lexeme) (rest : List Char) : Prop where
  starts : skipGap .blank (l.text ++ rest) = l.text ++ rest
  reads : ∃ c cs, l.text = c :: cs ∧ ∀ start, lexeme start c (cs ++ rest) = .ok (l.kind, cs.length)

theorem read_word {c : Char} {cs rest : List Char} (hc : isWordStart c = true)
    (hcs : cs.all isWordPart = true) (hrest : ∀ d ∈ rest.head?, isWordPart d = false) :
    ReadFrom ⟨.ofWord (String.ofList (c :: cs)), c :: cs⟩ rest := by
  have hne : ∀ d, isWordStart d = false → c ≠ d := by
    rintro d hd rfl
    rw [hd] at hc
    cases hc
  have hblank : isBlank c = false := by
    cases hblank : isBlank c with
    | false => rfl
    | true => rw [isWordStart_of_isBlank hblank] at hc; cases hc
  have hdigit : c.isDigit = false := by
    cases hdigit : c.isDigit with
    | false => rfl
    | true => rw [isWordStart_of_isDigit hdigit] at hc; cases hc
  refine ⟨skipGap_of_start hblank fun h => absurd h (hne '/' (by decide)), c, cs, rfl, ?_⟩
  intro start
  have htake : (cs ++ rest).takeWhile isWordPart = cs := by
    have hnone : rest.takeWhile isWordPart = [] := by
      cases rest with
      | nil => rfl
      | cons d rest => rw [List.takeWhile_cons, hrest d rfl]; rfl
    rw [List.takeWhile_append_of_pos (List.all_eq_true.mp hcs), hnone, List.append_nil]
  unfold lexeme
  simp only [hne '\x22' (by decide), hne '\x27' (by decide), hne '\x60' (by decide),
    hne '.' (by decide), hdigit, hc, htake]
  rfl

theorem read_punct (p : Punct) {rest : List Char} (h : (punct p).EndsBefore rest) :
    ReadFrom (punct p) rest := by
  obtain ⟨c, cs, htext, hblank, hdouble, hsingle, hback, hdigit, hword, hdot, hslash⟩ :=
    p.exists_start
  have hfollowing : (c = '.' → (cs ++ rest).head?.any Char.isDigit = false) := by
    intro hc
    obtain ⟨hsign, hcs⟩ := hdot (.inl hc)
    cases cs with
    | nil =>
      cases rest with
      | nil => rfl
      | cons d rest => exact ((h d rfl).2 hsign).2
    | cons d cs => exact hcs
  constructor
  · rw [show (punct p).text = c :: cs from htext]
    refine skipGap_of_start hblank fun hc d hd => ?_
    obtain rfl := hslash hc
    exact ((h d hd).2 (hdot (.inr hc)).1).1
  · refine ⟨c, cs, htext, fun start => ?_⟩
    have hfind := p.find?_begins h
    rw [htext, List.cons_append] at hfind
    have hnumber : ¬ (c.isDigit = true ∨ c = '.' ∧ (cs ++ rest).head?.any Char.isDigit = true) := by
      rintro (hc | ⟨hc, hany⟩)
      · rw [hdigit] at hc
        cases hc
      · rw [hfollowing hc] at hany
        cases hany
    have hlength : p.spelling.length - 1 = cs.length := by
      rw [← String.length_toList, htext]
      rfl
    unfold lexeme
    simp only [hdouble, hsingle, hback, hnumber, hword, hfind, hlength]
    rfl

theorem read_string {cs : List Char} (h : Enclosure.Closes (.quoted '\x27') cs) (rest : List Char) :
    ReadFrom ⟨.string, '\x27' :: cs⟩ rest := by
  refine ⟨skipGap_of_start (by decide) (fun h => absurd h (by decide)), _, cs, rfl, fun start => ?_⟩
  unfold lexeme
  simp only [h.length_eq rest]
  rfl

theorem read_template {cs : List Char} (h : Enclosure.Closes .template cs) (rest : List Char) :
    ReadFrom ⟨.template, '\x60' :: cs⟩ rest := by
  refine ⟨skipGap_of_start (by decide) (fun h => absurd h (by decide)), _, cs, rfl, fun start => ?_⟩
  unfold lexeme
  simp only [h.length_eq rest]
  rfl

theorem Valid.readFrom {l : Lexeme} (h : l.Valid) {rest : List Char} (hrest : l.EndsBefore rest) :
    l.ReadFrom rest := by
  cases h with
  | @word c cs hc hcs =>
    refine read_word hc hcs fun d hd => (hrest d hd).1 ?_
    have hword := isWord_word (String.ofList (c :: cs))
    simpa only [Lexeme.word, String.toList_ofList] using hword
  | punct p => exact read_punct p hrest
  | string h => exact read_string h rest
  | template h => exact read_template h rest

end Lexeme

theorem skipGap_gap (before : Option Lexeme) (l : Lexeme) (cs : List Char) :
    skipGap .blank (l.gap before ++ cs) = skipGap .blank cs := by
  unfold Lexeme.gap
  split
  · split
    · rfl
    · rfl
  · rfl

theorem tokensFrom_of_lexeme (position : Nat) {n : Nat} {cs rest : List Char} {c : Char}
    {kind : TokenKind} (hstart : skipGap .blank cs = c :: rest)
    (hread : ∀ start, lexeme start c rest = .ok (kind, n)) :
    ∃ start next, tokensFrom position cs =
      (tokensFrom next (rest.drop n)).map
        (⟨kind, String.ofList (c :: rest.take n), start⟩ :: ·) := by
  rw [tokensFrom]
  split
  · rename_i heq
    rw [hstart] at heq
    cases heq
  · rename_i heq
    rw [hstart] at heq
    cases heq
    dsimp only
    rw [hread]
    exact ⟨_, _, rfl⟩

/-- What is spelled from valid lexemes is read as their tokens. -/
theorem tokensFrom_spellAfter (before : Option Lexeme) (position : Nat) {ls : List Lexeme}
    (h : ∀ l ∈ ls, l.Valid) :
    ∃ places, tokensFrom position (spellAfter before ls) = .ok (placed places ls) := by
  induction ls generalizing before position with
  | nil => exact ⟨id, by rw [spellAfter, tokensFrom]; rfl⟩
  | cons l ls ih =>
    have hls : ∀ l ∈ ls, l.Valid := fun l' hl' => h l' (List.mem_cons_of_mem _ hl')
    have hread := (h l (List.mem_cons_self ..)).readFrom (l.endsBefore_spellAfter hls)
    obtain ⟨c, cs, htext, hlexeme⟩ := hread.reads
    have hstart : skipGap .blank (spellAfter before (l :: ls)) =
        c :: (cs ++ spellAfter (some l) ls) := by
      rw [spellAfter, skipGap_gap, hread.starts, htext, List.cons_append]
    obtain ⟨start, next, htokens⟩ := tokensFrom_of_lexeme position hstart hlexeme
    obtain ⟨places, hplaces⟩ := ih (some l) next hls
    rw [List.drop_left, List.take_left, hplaces, ← htext] at htokens
    exact ⟨consPlace start places, htokens⟩

theorem tokenize_spell {ls : List Lexeme} (h : ∀ l ∈ ls, l.Valid) :
    ∃ places, tokenize (String.ofList (spell ls)) = .ok (placed places ls) := by
  unfold tokenize spell
  rw [String.toList_ofList]
  exact tokensFrom_spellAfter none 0 h

end Templating
