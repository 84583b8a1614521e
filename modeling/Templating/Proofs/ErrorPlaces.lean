import Mathlib.Data.List.Basic
import Templating.Expr.Parser

/-!
Where the errors of lexing are. Every position that a reader gives is between two characters of the
text it was given, or at one of its ends: the tokens stand in the text as they are written, and a
substitution stands in its token.
-/
namespace Templating
open Text

/-- A place, in bytes, between two characters of a text or at one of its ends. -/
def Boundary (cs : List Char) (place : Nat) : Prop :=
  ∃ before, before <+: cs ∧ utf8Size before = place

/-- A text stands in the source at the given place. -/
def StandsAt (source : List Char) (place : Nat) (cs : List Char) : Prop :=
  ∃ before after, source = before ++ cs ++ after ∧ utf8Size before = place

theorem Boundary.start (cs : List Char) : Boundary cs 0 := ⟨[], List.nil_prefix, rfl⟩

theorem Boundary.finish (cs : List Char) : Boundary cs (utf8Size cs) :=
  ⟨cs, List.prefix_refl cs, rfl⟩

namespace StandsAt

variable {source cs ds : List Char} {place inner : Nat}

theorem whole (cs : List Char) : StandsAt cs 0 cs := ⟨[], [], by simp, rfl⟩

/-- A boundary of a part is one of the source. -/
theorem boundary_add (h : StandsAt source place cs) (hinner : Boundary cs inner) :
    Boundary source (place + inner) := by
  obtain ⟨before, after, rfl, rfl⟩ := h
  obtain ⟨a, ha, rfl⟩ := hinner
  refine ⟨before ++ a, ?_, utf8Size_append _ _⟩
  rw [List.append_assoc, List.prefix_append_right_inj]
  exact ha.trans (List.prefix_append _ _)

theorem boundary (h : StandsAt source place cs) : Boundary source place :=
  h.boundary_add (Boundary.start cs)

theorem boundary_end (h : StandsAt source place cs) : Boundary source (place + utf8Size cs) :=
  h.boundary_add (Boundary.finish cs)

theorem left (h : StandsAt source place (cs ++ ds)) : StandsAt source place cs := by
  obtain ⟨before, after, rfl, rfl⟩ := h
  exact ⟨before, ds ++ after, by simp only [List.append_assoc], rfl⟩

theorem right (h : StandsAt source place (cs ++ ds)) :
    StandsAt source (place + utf8Size cs) ds := by
  obtain ⟨before, after, rfl, rfl⟩ := h
  exact ⟨before ++ cs, after, by simp only [List.append_assoc], utf8Size_append _ _⟩

theorem tail {c : Char} (h : StandsAt source place (c :: cs)) :
    StandsAt source (place + c.utf8Size) cs := @right source [c] cs place h

theorem of_prefix (h : StandsAt source place ds) (hpre : cs <+: ds) : StandsAt source place cs := by
  obtain ⟨more, rfl⟩ := hpre
  exact h.left

theorem of_suffix (h : StandsAt source place ds) (hsuf : cs <:+ ds) :
    StandsAt source (place + (utf8Size ds - utf8Size cs)) cs := by
  obtain ⟨before, rfl⟩ := hsuf
  rw [utf8Size_append, Nat.add_sub_cancel]
  exact h.right

theorem take (h : StandsAt source place cs) (n : Nat) : StandsAt source place (cs.take n) :=
  h.of_prefix (List.take_prefix n cs)

theorem drop (h : StandsAt source place cs) (n : Nat) :
    StandsAt source (place + utf8Size (cs.take n)) (cs.drop n) := by
  rw [← List.take_append_drop n cs] at h
  exact h.right

end StandsAt

section Meets

variable {ε α β : Type} {E : ε → Prop} {P : α → Prop} {Q : β → Prop}

def Meets (E : ε → Prop) (P : α → Prop) : Except ε α → Prop
  | .ok a => P a
  | .error e => E e

namespace Meets

theorem bind {r : Except ε α} {f : α → Except ε β} (h : Meets E P r)
    (hf : ∀ a, P a → Meets E Q (f a)) : Meets E Q (r >>= f) := by
  cases r with
  | ok a => exact hf a h
  | error e => exact h

theorem mapM {f : α → Except ε β} : ∀ {xs : List α}, (∀ x ∈ xs, Meets E Q (f x)) →
    Meets E (fun ys => ∀ y ∈ ys, Q y) (xs.mapM f)
  | [], _ => fun _ hy => by cases hy
  | x :: xs, h => by
    rw [List.mapM_cons]
    refine (h x List.mem_cons_self).bind fun y hy => ?_
    refine (mapM fun x hx => h x (List.mem_cons_of_mem _ hx)).bind fun ys hys => ?_
    exact List.forall_mem_cons.mpr ⟨hy, hys⟩

end Meets

end Meets

section Pinpoints

variable {ε α β : Type} {place : ε → Nat} {source : List Char} {P : α → Prop} {Q : β → Prop}

/-- A failure is at a boundary of the source, and a result is as required. -/
def Pinpoints (place : ε → Nat) (source : List Char) (P : α → Prop) : Except ε α → Prop
  | .ok a => P a
  | .error e => Boundary source (place e)

theorem Pinpoints.bind {r : Except ε α} {f : α → Except ε β} (h : Pinpoints place source P r)
    (hf : ∀ a, P a → Pinpoints place source Q (f a)) : Pinpoints place source Q (r >>= f) :=
  Meets.bind h hf

theorem Pinpoints.mapM {f : α → Except ε β} {xs : List α}
    (h : ∀ x ∈ xs, Pinpoints place source Q (f x)) :
    Pinpoints place source (fun ys => ∀ y ∈ ys, Q y) (xs.mapM f) := Meets.mapM h

end Pinpoints

/-- A token stands in the source as it is written; a literal begins with a quote, of one byte. -/
structure Token.WrittenIn (source : List Char) (t : Token) : Prop where
  stands : StandsAt source t.start t.text.toList
  quoted : t.kind = .string ∨ t.kind = .template → ∃ c cs, t.text.toList = c :: cs ∧ c.utf8Size = 1

variable {source : List Char}

theorem lexeme_pinpoints {start : Nat} {c : Char} {cs : List Char}
    (h : StandsAt source start (c :: cs)) :
    Pinpoints LexError.position source
      (fun r => r.1 = .string ∨ r.1 = .template → c.utf8Size = 1) (lexeme start c cs) := by
  have hstart : Boundary source start := h.boundary
  have hend : Boundary source (start + utf8Size (c :: cs)) := h.boundary_end
  dsimp only [lexeme]
  split
  · rename_i hquote
    split
    · intro _
      rcases hquote with rfl | rfl <;> decide
    · exact hend
  split
  · rename_i hquote
    split
    · intro _
      subst hquote
      decide
    · exact hend
  split
  · split
    · exact hstart
    split
    · rintro (h | h) <;> cases h
    · split
      · exact hstart
      · rintro (h | h) <;> cases h
  split
  · simp only [Pinpoints]
    split <;> rintro (h | h) <;> cases h
  · split
    · rintro (h | h) <;> cases h
    · exact hstart

theorem tokensFrom_pinpoints (position : Nat) (cs : List Char) (h : StandsAt source position cs) :
    Pinpoints LexError.position source (fun ts => ∀ t ∈ ts, t.WrittenIn source)
      (tokensFrom position cs) := by
  fun_induction tokensFrom position cs with
  | case1 => exact fun _ ht => by cases ht
  | case2 position cs c rest hskip start ih =>
    have hsuffix : c :: rest <:+ cs := hskip ▸ skipGap_suffix .blank cs
    have hstart : StandsAt source start (c :: rest) := h.of_suffix hsuffix
    refine (lexeme_pinpoints hstart).bind ?_
    rintro ⟨kind, n⟩ hkind
    have htext : StandsAt source start (c :: rest.take n) := hstart.take (n + 1)
    have hmore : StandsAt source (start + utf8Size (c :: rest.take n)) (rest.drop n) :=
      hstart.drop (n + 1)
    refine (ih n hmore).bind fun tokens htokens => ?_
    refine List.forall_mem_cons.mpr ⟨⟨?_, fun hlit => ⟨c, rest.take n, ?_, hkind hlit⟩⟩, htokens⟩
    · simpa only [String.toList_ofList] using htext
    · exact String.toList_ofList

theorem tokenize_pinpoints (text : String) :
    Pinpoints LexError.position text.toList (fun ts => ∀ t ∈ ts, t.WrittenIn text.toList)
      (tokenize text) := tokensFrom_pinpoints 0 text.toList (StandsAt.whole _)

theorem Token.WrittenIn.literalBody {t : Token} (h : t.WrittenIn source)
    (hlit : t.kind = .string ∨ t.kind = .template) :
    StandsAt source (t.start + 1) (literalBody t) := by
  obtain ⟨c, cs, htext, hsize⟩ := h.quoted hlit
  have hbody : StandsAt source (t.start + 1) cs := by
    rw [← hsize]
    exact (htext ▸ h.stands).tail
  rw [Templating.literalBody, htext]
  exact hbody.of_prefix (List.dropLast_prefix cs)

theorem escapeDigits_suffix (letter : Char) (cs : List Char) :
    (escapeDigits letter cs).2 <:+ cs := by
  unfold escapeDigits
  split
  · exact List.drop_suffix _ _
  · split
    · exact (List.drop_suffix _ _).trans ((List.dropWhile_suffix _).trans (List.suffix_cons _ _))
    · exact List.drop_suffix _ _

theorem unescape_pinpoints (position : Nat) (cs : List Char) (h : StandsAt source position cs) :
    Pinpoints LexError.position source (fun _ => True) (unescape position cs) := by
  fun_induction unescape position cs with
  | case1 => trivial
  | case2 position => exact h.boundary
  | case3 => exact h.boundary
  | case4 position letter rest after hnumeric read decoded hsome ih =>
    have hrest : StandsAt source after rest := h.tail.tail
    exact (ih (hrest.of_suffix (escapeDigits_suffix letter rest))).bind fun _ _ => trivial
  | case5 position rest after hnumeric ih => exact ih h.tail.tail
  | case6 position letter rest after hnumeric hline ih =>
    exact (ih h.tail.tail).bind fun _ _ => trivial
  | case7 position c cs hc ih => exact (ih h.tail).bind fun _ _ => trivial

theorem stringValue_pinpoints {t : Token} (h : t.WrittenIn source) (hkind : t.kind = .string) :
    Pinpoints LexError.position source (fun _ => True) (stringValue t) :=
  (unescape_pinpoints _ _ (h.literalBody (.inl hkind))).bind fun _ _ => trivial

def Chunk.WrittenIn (source : List Char) : Chunk → Prop
  | .text raw start | .substitution raw start => StandsAt source start raw

theorem textChunk_writtenIn {start position : Nat} {pending : List Char}
    (h : StandsAt source start pending) (hposition : position = start + utf8Size pending) :
    ∀ chunk ∈ textChunk position pending, chunk.WrittenIn source := by
  subst hposition
  unfold textChunk
  split
  · exact fun _ hchunk => by cases hchunk
  · rw [Nat.add_sub_cancel]
    exact List.forall_mem_singleton.mpr h

/-- Of the text, `pending` has been read since the last substitution. -/
theorem chunksFrom_pinpoints {start : Nat} (position : Nat) (pending cs : List Char)
    (h : StandsAt source start (pending ++ cs)) (hposition : position = start + utf8Size pending) :
    Pinpoints LexError.position source (fun chunks => ∀ chunk ∈ chunks, chunk.WrittenIn source)
      (chunksFrom position pending cs) := by
  fun_induction chunksFrom position pending cs generalizing start with
  | case1 position pending => exact textChunk_writtenIn h.left hposition
  | case2 position pending =>
    refine textChunk_writtenIn h ?_
    rw [utf8Size_append, ← Nat.add_assoc, ← hposition]
    rfl
  | case3 position pending c rest ih =>
    refine ih (by simpa using h) ?_
    rw [utf8Size_append, ← Nat.add_assoc, ← hposition, Nat.add_assoc]
    rfl
  | case4 position pending rest =>
    have hend := h.boundary_end
    rw [utf8Size_append, ← Nat.add_assoc, ← hposition] at hend
    exact hend
  | case5 position pending rest n hclosing inner =>
    rename_i ih
    have hrest : StandsAt source (position + 2) rest := by
      have hright := h.right
      rw [← hposition] at hright
      exact hright.tail.tail
    refine (ih (hrest.drop n) rfl).bind fun after hafter => ?_
    refine List.forall_mem_append.mpr ⟨textChunk_writtenIn h.left hposition, ?_⟩
    exact List.forall_mem_cons.mpr ⟨hrest.take (n - 1), hafter⟩
  | case6 position pending c rest _ _ _ ih =>
    refine ih (by simpa using h) ?_
    rw [utf8Size_append, ← Nat.add_assoc, ← hposition]
    rfl

/-- The substitutions among chunks stand in the source, whatever became of the texts. -/
def SubstitutionsIn (source : List Char) (chunks : List Chunk) : Prop :=
  ∀ chunk ∈ chunks, ∀ inner place, chunk = .substitution inner place → StandsAt source place inner

theorem decodedChunks_pinpoints {t : Token} (h : t.WrittenIn source) (hkind : t.kind = .template) :
    Pinpoints LexError.position source (SubstitutionsIn source) (decodedChunks t) := by
  have hraw := chunksFrom_pinpoints (t.start + 1) [] _ (h.literalBody (.inr hkind)) rfl
  refine hraw.bind fun chunks hchunks => Pinpoints.mapM fun chunk hchunk => ?_
  have hstands := hchunks chunk hchunk
  cases chunk with
  | text raw start =>
    refine (unescape_pinpoints start raw hstands).bind fun decoded _ => ?_
    intro inner place heq
    cases heq
  | substitution raw start =>
    intro inner place heq
    cases heq
    exact hstands

end Templating
