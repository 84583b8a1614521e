import Mathlib.Data.List.Forall2
import Templating.Proofs.ParserErrors

/-!
Tokens read again. The kinds and texts of the tokens of a text do not depend on its place, and what
literals stand for does not depend on theirs.
-/
namespace Templating
open Text

section Repeats

variable {ε ε' α β γ δ : Type} {R : α → β → Prop} {Q : γ → δ → Prop}

def Repeats (R : α → β → Prop) (r : Except ε α) (r' : Except ε' β) : Prop :=
  ∀ a, r = .ok a → ∃ b, r' = .ok b ∧ R a b

namespace Repeats

variable {r : Except ε α} {r' : Except ε' β}

theorem ok {a : α} {b : β} (h : R a b) :
    Repeats R (.ok a : Except ε α) (.ok b : Except ε' β) := by
  rintro _ ⟨⟩
  exact ⟨b, rfl, h⟩

theorem error (e : ε) : Repeats R (.error e) r' := nofun

theorem bind {f : α → Except ε γ} {g : β → Except ε' δ} (h : Repeats R r r')
    (hf : ∀ a b, R a b → Repeats Q (f a) (g b)) : Repeats Q (r >>= f) (r' >>= g) := by
  cases r with
  | error e => exact error e
  | ok a =>
    obtain ⟨b, rfl, hab⟩ := h a rfl
    exact hf a b hab

theorem mono {R' : α → β → Prop} (h : Repeats R r r') (himp : ∀ a b, R a b → R' a b) :
    Repeats R' r r' := fun a ha =>
  have ⟨b, hb, hab⟩ := h a ha
  ⟨b, hb, himp a b hab⟩

end Repeats

end Repeats

def Token.moved (place : Nat → Nat) (t : Token) : Token := { t with start := place t.start }

def Token.extent (t : Token) : Nat := max 1 t.text.length

theorem Token.extent_pos (t : Token) : 1 ≤ t.extent := Nat.le_max_left _ _

theorem lexeme_repeats (start start' : Nat) (c : Char) (cs : List Char) :
    Repeats Eq (lexeme start c cs) (lexeme start' c cs) := by
  unfold lexeme
  dsimp only
  repeat' split
  all_goals first
    | exact .ok rfl
    | exact .error _

theorem skipGap_blanks {blanks : List Char} (h : blanks.all isBlank = true) (cs : List Char) :
    skipGap .blank (blanks ++ cs) = skipGap .blank cs := by
  induction blanks with
  | nil => rfl
  | cons c blanks ih =>
    obtain ⟨hc, hblanks⟩ := Bool.and_eq_true_iff.mp h
    have hslash : c ≠ '/' := by
      rintro rfl
      revert hc
      decide
    rw [← ih hblanks, List.cons_append]
    conv => lhs; unfold skipGap
    split <;> simp_all

theorem skipGap_blank_cons {c : Char} (hc : isBlank c = true) (cs : List Char) :
    skipGap .blank (c :: cs) = skipGap .blank cs := by
  have hblanks : [c].all isBlank = true := by simp [hc]
  exact skipGap_blanks hblanks cs

/-- The beginning of a text, at `position`, is told by its first token. -/
theorem tokensFrom_eq (position : Nat) (cs : List Char) :
    tokensFrom position cs = match skipGap .blank cs with
      | [] => .ok []
      | c :: rest => do
        let start := position + (utf8Size cs - utf8Size (c :: rest))
        let (kind, n) ← lexeme start c rest
        let text := c :: rest.take n
        let tokens ← tokensFrom (start + utf8Size text) (rest.drop n)
        return ⟨kind, String.ofList text, start⟩ :: tokens := by
  rw [tokensFrom]
  split
  · rename_i hskip
    rw [hskip]
  · rename_i hskip
    rw [hskip]

theorem utf8Size_skipGap_le (gap : Gap) (cs : List Char) :
    utf8Size (skipGap gap cs) ≤ utf8Size cs := by
  obtain ⟨before, hbefore⟩ := skipGap_suffix gap cs
  conv => rhs; rw [← hbefore, utf8Size_append]
  exact Nat.le_add_left _ _

/-- What is skipped at the beginning of a text only puts its tokens at later places. -/
theorem tokensFrom_skipped {before cs : List Char}
    (h : skipGap .blank (before ++ cs) = skipGap .blank cs) (position : Nat) :
    tokensFrom position (before ++ cs) = tokensFrom (position + utf8Size before) cs := by
  have hle := utf8Size_skipGap_le .blank cs
  rw [tokensFrom_eq, tokensFrom_eq, h, utf8Size_append]
  split
  · rfl
  · rename_i hskip
    rw [hskip] at hle
    rw [Nat.add_assoc position, Nat.add_sub_assoc hle]

theorem tokensFrom_blanks {blanks : List Char} (h : blanks.all isBlank = true) (position : Nat)
    (cs : List Char) :
    tokensFrom position (blanks ++ cs) = tokensFrom (position + utf8Size blanks) cs :=
  tokensFrom_skipped (skipGap_blanks h cs) position

def extents : List Token → Nat
  | [] => 0
  | t :: tokens => t.extent + extents tokens

@[simp] theorem extents_cons (t : Token) (tokens : List Token) :
    extents (t :: tokens) = t.extent + extents tokens := rfl

/-- At an earlier place a text has the same tokens at earlier places. They have no more characters
than the text. -/
theorem tokensFrom_repeats (position n : Nat) (cs : List Char) :
    Repeats (fun ts ts' => ts' = ts.map (Token.moved (· - n)) ∧ extents ts ≤ cs.length)
      (tokensFrom (position + n) cs) (tokensFrom position cs) := by
  fun_induction tokensFrom position cs with
  | case1 position cs hskip =>
    rw [tokensFrom_eq, hskip]
    exact .ok ⟨rfl, Nat.zero_le _⟩
  | case2 position cs c rest hskip =>
    rename_i start ih
    have hsuffix := (skipGap_suffix .blank cs).length_le
    have hstart : position + n + (utf8Size cs - utf8Size (c :: rest)) = start + n :=
      Nat.add_right_comm _ _ _
    rw [tokensFrom_eq, hskip]
    dsimp only
    rw [hstart]
    refine (lexeme_repeats _ start c rest).bind ?_
    rintro ⟨kind, k⟩ _ rfl
    dsimp only
    rw [Nat.add_right_comm]
    refine (ih k).bind ?_
    rintro ts ts' ⟨hts, hle⟩
    refine .ok ⟨?_, ?_⟩
    · simp [hts, Token.moved]
    · rw [hskip] at hsuffix
      simp only [extents_cons, Token.extent, String.length_ofList, List.length_cons,
        List.length_take, List.length_drop] at hle hsuffix ⊢
      omega

theorem unescape_repeats (position position' : Nat) (cs : List Char) :
    Repeats Eq (unescape position cs) (unescape position' cs) := by
  fun_induction unescape position cs generalizing position' with
  | case1 =>
    rw [unescape.eq_def position']
    exact .ok rfl
  | case2 => exact .error _
  | case3 => exact .error _
  | case4 position letter rest after hnumeric read decoded hsome ih =>
    have hread : codePoint? (escapeDigits letter rest).1 = some decoded := hsome
    rw [unescape.eq_def position']
    simp only [if_pos hnumeric, hread, if_true]
    exact (ih _).bind fun _ _ h => .ok (congrArg (decoded :: ·) h)
  | case5 position rest after hnumeric ih =>
    rw [unescape.eq_def position']
    simp only [if_neg hnumeric, if_true]
    exact ih _
  | case6 position letter rest after hnumeric hline ih =>
    rw [unescape.eq_def position']
    simp only [if_neg hnumeric, if_neg hline, if_true]
    exact (ih _).bind fun _ _ h => .ok (congrArg (_ :: ·) h)
  | case7 position c cs hc ih =>
    rw [unescape.eq_def position']
    simp only [if_neg hc]
    exact (ih _).bind fun _ _ h => .ok (congrArg (c :: ·) h)

theorem stringValue_repeats (place : Nat → Nat) (t : Token) :
    Repeats Eq (stringValue t) (stringValue (t.moved place)) :=
  (unescape_repeats _ _ (literalBody t)).bind fun _ _ h => .ok (congrArg String.ofList h)

def Chunk.Alike : Chunk → Chunk → Prop
  | .text cs _, .text cs' _ => cs = cs'
  | .substitution cs _, .substitution cs' _ => cs = cs'
  | _, _ => False

/-- A substitution is as long as what is between its braces, and the dollar and brace before it. -/
def Chunk.extent : Chunk → Nat
  | .text _ _ => 1
  | .substitution source _ => source.length + 2

def chunkExtents : List Chunk → Nat
  | [] => 0
  | chunk :: chunks => chunk.extent + chunkExtents chunks

@[simp] theorem chunkExtents_cons (chunk : Chunk) (chunks : List Chunk) :
    chunkExtents (chunk :: chunks) = chunk.extent + chunkExtents chunks := rfl

theorem chunkExtents_append (chunks more : List Chunk) :
    chunkExtents (chunks ++ more) = chunkExtents chunks + chunkExtents more := by
  induction chunks with
  | nil => exact (Nat.zero_add _).symm
  | cons chunk chunks ih =>
    rw [List.cons_append, chunkExtents_cons, chunkExtents_cons, ih, Nat.add_assoc]

theorem textChunk_alike (position position' : Nat) (pending : List Char) :
    List.Forall₂ Chunk.Alike (textChunk position pending) (textChunk position' pending) := by
  unfold textChunk
  split
  · exact .nil
  · exact .cons rfl .nil

theorem chunkExtents_textChunk_le (position : Nat) (pending : List Char) :
    chunkExtents (textChunk position pending) ≤ pending.length := by
  unfold textChunk
  cases pending with
  | nil => exact Nat.le_refl 0
  | cons c cs => exact Nat.le_add_left _ _

theorem chunksFrom_repeats (position position' : Nat) (pending cs : List Char) :
    Repeats (fun chunks chunks' => List.Forall₂ Chunk.Alike chunks chunks' ∧
        chunkExtents chunks ≤ pending.length + cs.length)
      (chunksFrom position pending cs) (chunksFrom position' pending cs) := by
  fun_induction chunksFrom position pending cs generalizing position' with
  | case1 position pending =>
    rw [chunksFrom.eq_def position']
    exact .ok ⟨textChunk_alike _ _ _, chunkExtents_textChunk_le _ _⟩
  | case2 position pending =>
    rw [chunksFrom.eq_def position']
    refine .ok ⟨textChunk_alike _ _ _, ?_⟩
    exact Nat.le_trans (chunkExtents_textChunk_le _ _) (by simp)
  | case3 position pending c rest ih =>
    rw [chunksFrom.eq_def position']
    refine (ih _).mono ?_
    rintro _ _ ⟨halike, hle⟩
    refine ⟨halike, ?_⟩
    simp only [List.length_append, List.length_cons, List.length_nil] at hle ⊢
    omega
  | case4 position pending rest => exact .error _
  | case5 position pending rest n hclosing inner ih =>
    rw [chunksFrom.eq_def position']
    simp only [hclosing]
    refine (ih _).bind ?_
    rintro chunks chunks' ⟨halike, hle⟩
    refine .ok ⟨?_, ?_⟩
    · exact List.rel_append (textChunk_alike _ _ _) (.cons rfl halike)
    · have htext := chunkExtents_textChunk_le position pending
      simp only [chunkExtents_append, chunkExtents_cons, Chunk.extent, List.length_take,
        List.length_drop, List.length_cons, List.length_nil, inner] at hle htext ⊢
      omega
  | case6 position pending c rest h h' h'' ih =>
    rw [chunksFrom]
    · refine (ih _).mono ?_
      rintro _ _ ⟨halike, hle⟩
      refine ⟨halike, ?_⟩
      simp only [List.length_append, List.length_cons, List.length_nil] at hle ⊢
      omega
    all_goals assumption

theorem decoded_repeats {chunk chunk' : Chunk} (h : chunk.Alike chunk') :
    Repeats (fun c c' => c.Alike c' ∧ c.extent = chunk.extent) chunk.decoded chunk'.decoded := by
  cases chunk <;> cases chunk' <;> cases h
  · exact (unescape_repeats _ _ _).bind fun _ _ h => .ok ⟨h, rfl⟩
  · exact .ok ⟨rfl, rfl⟩

theorem mapM_decoded_repeats {chunks chunks' : List Chunk}
    (h : List.Forall₂ Chunk.Alike chunks chunks') :
    Repeats (fun cs cs' => List.Forall₂ Chunk.Alike cs cs' ∧ chunkExtents cs = chunkExtents chunks)
      (chunks.mapM Chunk.decoded) (chunks'.mapM Chunk.decoded) := by
  induction h with
  | nil => exact .ok ⟨.nil, rfl⟩
  | cons hchunk _ ih =>
    rw [List.mapM_cons, List.mapM_cons]
    refine (decoded_repeats hchunk).bind ?_
    rintro c c' ⟨hc, hextent⟩
    refine ih.bind ?_
    rintro cs cs' ⟨hcs, hextents⟩
    exact .ok ⟨.cons hc hcs, congrArg₂ (· + ·) hextent hextents⟩

theorem decodedChunks_repeats (place : Nat → Nat) (t : Token) :
    Repeats (fun chunks chunks' => List.Forall₂ Chunk.Alike chunks chunks' ∧
        chunkExtents chunks < t.extent)
      (decodedChunks t) (decodedChunks (t.moved place)) := by
  refine (chunksFrom_repeats _ _ [] (literalBody t)).bind ?_
  rintro chunks chunks' ⟨halike, hle⟩
  refine (mapM_decoded_repeats halike).mono ?_
  rintro cs cs' ⟨hcs, hextents⟩
  refine ⟨hcs, ?_⟩
  simp only [literalBody, List.length_nil, List.length_dropLast, List.length_drop,
    String.length_toList] at hle
  have hpos := t.extent_pos
  rw [hextents]
  unfold Token.extent at hpos ⊢
  omega

end Templating
