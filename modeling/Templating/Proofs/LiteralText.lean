import Templating.Expr.Literal
import Templating.Proofs.Lexemes

/-!
Texts of string and template literals. What would end the literal or begin a substitution stands
after a backslash, and the literal is read back as what it was written from.
-/
namespace Templating
open Text

def escape (special : Char → Bool) : List Char → List Char
  | [] => []
  | c :: cs => if special c then '\\' :: c :: escape special cs else c :: escape special cs

def isStringSpecial (c : Char) : Bool := c == '\\' || c == '\x27'

def isTemplateSpecial (c : Char) : Bool := c == '\\' || c == '\x60' || c == '$'

/-- The special characters stand for themselves after a backslash, which is one of them. -/
structure Escapable (special : Char → Bool) : Prop where
  backslash : special '\\' = true
  itself {c : Char} : special c = true →
    ¬ (c = 'x' ∨ c = 'u') ∧ c ≠ '\n' ∧ (letterEscape? c).getD c = c

theorem escapable_string : Escapable isStringSpecial where
  backslash := rfl
  itself {c} h := by
    simp only [isStringSpecial, Bool.or_eq_true, beq_iff_eq] at h
    rcases h with rfl | rfl <;> decide

theorem escapable_template : Escapable isTemplateSpecial where
  backslash := rfl
  itself {c} h := by
    simp only [isTemplateSpecial, Bool.or_eq_true, beq_iff_eq] at h
    rcases h with (rfl | rfl) | rfl <;> decide

theorem unescape_escape {special : Char → Bool} (h : Escapable special) (position : Nat)
    (cs : List Char) : unescape position (escape special cs) = .ok cs := by
  induction cs generalizing position with
  | nil => rw [escape, unescape]
  | cons c cs ih =>
    unfold escape
    split
    · rename_i hc
      obtain ⟨hnumeric, hbreak, hself⟩ := h.itself hc
      rw [unescape.eq_def]
      simp only [if_true, hnumeric, hbreak, if_false, ih, hself]
      rfl
    · rename_i hc
      have hne : c ≠ '\\' := by
        rintro rfl
        exact hc h.backslash
      rw [unescape.eq_def]
      simp only [hne, if_false, ih]
      rfl

theorem escape_eq_nil {special : Char → Bool} {cs : List Char} (h : escape special cs = []) :
    cs = [] := by
  cases cs with
  | nil => rfl
  | cons c cs =>
    unfold escape at h
    split at h <;> cases h

namespace Enclosure

variable {c : Char} {cs : List Char} {d : Nat}

theorem Keeps.quoted_escaped {q : Char} : Keeps (.quoted q) ['\\', c] := by
  intro outer rest
  simp [closingLength?]

theorem Keeps.quoted_plain {q : Char} (hc : c ≠ '\\') (hq : c ≠ q) : Keeps (.quoted q) [c] := by
  intro outer rest
  rw [List.singleton_append, closingLength?.eq_def]
  simp [hc, hq]

theorem Keeps.template_escaped : Keeps .template ['\\', c] := by
  intro outer rest
  simp [closingLength?]

theorem Keeps.template_plain (h : isTemplateSpecial c = false) : Keeps .template [c] := by
  intro outer rest
  simp only [isTemplateSpecial, Bool.or_eq_false_iff, beq_eq_false_iff_ne] at h
  rw [List.singleton_append, closingLength?.eq_def]
  simp [h.1.1, h.1.2, h.2]

theorem Keeps.escape_string (cs : List Char) :
    Keeps (.quoted '\x27') (escape isStringSpecial cs) := by
  induction cs with
  | nil => exact Keeps.nil
  | cons c cs ih =>
    unfold escape
    split
    · exact Keeps.quoted_escaped.append ih
    · rename_i hc
      simp only [isStringSpecial, Bool.or_eq_true, beq_iff_eq, not_or] at hc
      exact (Keeps.quoted_plain hc.1 hc.2).append ih

theorem Keeps.escape_template (cs : List Char) :
    Keeps .template (escape isTemplateSpecial cs) := by
  induction cs with
  | nil => exact Keeps.nil
  | cons c cs ih =>
    unfold escape
    split
    · exact Keeps.template_escaped.append ih
    · rename_i hc
      exact (Keeps.template_plain (eq_false_of_ne_true hc)).append ih

theorem Closes.ofQuote (q : Char) (hq : q ≠ '\\') : Closes (.quoted q) [q] := by
  intro outer rest
  rw [List.singleton_append, closingLength?.eq_def]
  simp [hq]

theorem Closes.backquote : Closes .template ['\x60'] := by
  intro outer rest
  rw [List.singleton_append, closingLength?.eq_def]
  simp

theorem Closes.brace : Closes (.substitution 1) ['\x7d'] := by
  intro outer rest
  simp [closingLength?]

/-- The characters that open or close something inside a substitution. -/
def fences : List Char := ['\x7b', '\x7d', '\x22', '\x27', '\x60']

def isInert (c : Char) : Bool := !(fences.contains c)

theorem isInert_of {c : Char} {p : Char → Bool} (hnone : fences.all (fun c => p c == false) = true)
    (h : p c = true) : isInert c = true := by
  unfold isInert
  rw [Bool.not_eq_true', ← Bool.not_eq_true, List.contains_iff_mem]
  intro hmem
  rw [beq_iff_eq.mp (List.all_eq_true.mp hnone c hmem)] at h
  cases h

theorem Keeps.inert (h : cs.all isInert = true) : Keeps (.substitution d) cs := by
  induction cs with
  | nil => exact Keeps.nil
  | cons c cs ih =>
    rw [List.all_cons, Bool.and_eq_true] at h
    refine Keeps.cons (fun outer rest => ?_) (ih h.2)
    have hc := h.1
    simp only [isInert, fences, List.contains_cons, List.contains_nil, Bool.or_false,
      Bool.not_eq_true', Bool.or_eq_false_iff, beq_eq_false_iff_ne] at hc
    simp [closingLength?, hc.1, hc.2.1, hc.2.2.1, hc.2.2.2.1, hc.2.2.2.2]

theorem Keeps.string (h : Closes (.quoted '\x27') cs) :
    Keeps (.substitution d) ('\x27' :: cs) := by
  intro outer rest
  have := h (.substitution d :: outer) rest
  simp [closingLength?, this, Option.map_map, Function.comp_def, Nat.add_assoc]

theorem Keeps.template (h : Closes .template cs) : Keeps (.substitution d) ('\x60' :: cs) := by
  intro outer rest
  have := h (.substitution d :: outer) rest
  simp [closingLength?, this, Option.map_map, Function.comp_def, Nat.add_assoc]

theorem Keeps.braces (hd : 1 ≤ d) (h : Keeps (.substitution (d + 1)) cs) :
    Keeps (.substitution d) ('\x7b' :: (cs ++ ['\x7d'])) := by
  intro outer rest
  have hclose : closingLength? (.substitution (d + 1) :: outer) ('\x7d' :: rest) =
      (closingLength? (.substitution d :: outer) rest).map (· + 1) := by
    simp [closingLength?, Nat.one_le_iff_ne_zero.mp hd]
  have hbody := h outer ('\x7d' :: rest)
  rw [hclose, Option.map_map] at hbody
  simp [closingLength?, hbody, Function.comp_def, Nat.add_assoc, Nat.add_comm 1]

theorem Keeps.substitution (h : Keeps (.substitution 1) cs) :
    Keeps .template ('$' :: '\x7b' :: (cs ++ ['\x7d'])) := by
  intro outer rest
  have hbody := (h.closes Closes.brace) (.template :: outer) rest
  rw [List.append_assoc, List.singleton_append] at hbody
  simp [closingLength?, hbody, Function.comp_def, Nat.add_assoc]

end Enclosure

namespace Lexeme

def string (s : String) : Lexeme :=
  ⟨.string, '\x27' :: (escape isStringSpecial s.toList ++ ['\x27'])⟩

theorem string_valid (s : String) : (string s).Valid :=
  .string ((Enclosure.Keeps.escape_string _).closes (Enclosure.Closes.ofQuote _ (by decide)))

end Lexeme

theorem stringValue_string (s : String) (start : Nat) :
    stringValue ⟨.string, String.ofList (Lexeme.string s).text, start⟩ = .ok s := by
  unfold stringValue literalBody Lexeme.string
  simp only [String.toList_ofList, List.drop_one, List.tail_cons, List.dropLast_concat,
    unescape_escape escapable_string]
  exact congrArg Except.ok String.ofList_toList

/-- A portion of a template: a text as it is meant, or the source of a substitution. -/
inductive Portion where
  | text (cs : List Char)
  | substitution (source : List Char)

namespace Portion

def isText : Portion → Bool
  | text _ => true
  | substitution _ => false

def written : Portion → List Char
  | text cs => escape isTemplateSpecial cs
  | substitution source => '$' :: '\x7b' :: (source ++ ['\x7d'])

def escaped : Portion → Portion
  | text cs => text (escape isTemplateSpecial cs)
  | substitution source => substitution source

def chunk (start : Nat) : Portion → Chunk
  | text cs => .text cs start
  | substitution source => .substitution source start

/-- Texts are not empty, and sources have their literals and braces closed. -/
inductive Valid : Portion → Prop where
  | text {cs : List Char} : cs ≠ [] → Valid (.text cs)
  | substitution {source : List Char} : Enclosure.Keeps (.substitution 1) source →
      Valid (.substitution source)

theorem Valid.keeps {p : Portion} (h : p.Valid) : Enclosure.Keeps .template p.written := by
  cases h with
  | text => exact Enclosure.Keeps.escape_template _
  | substitution h => exact Enclosure.Keeps.substitution h

def allWritten (ps : List Portion) : List Char := ps.flatMap written

theorem allWritten_cons (p : Portion) (ps : List Portion) :
    allWritten (p :: ps) = p.written ++ allWritten ps := List.flatMap_cons

def chunksAt (places : Nat → Nat) : List Portion → List Chunk
  | [] => []
  | p :: ps => p.chunk (places 0) :: chunksAt (fun n => places (n + 1)) ps

/-- Valid portions where no text follows a text. -/
inductive Apart : List Portion → Prop where
  | nil : Apart []
  | cons {p : Portion} {ps : List Portion} : p.Valid →
      (p.isText = true → ∀ q ∈ ps.head?, q.isText = false) → Apart ps → Apart (p :: ps)

theorem Apart.keeps {ps : List Portion} (h : Apart ps) :
    Enclosure.Keeps .template (allWritten ps) := by
  induction h with
  | nil => exact Enclosure.Keeps.nil
  | cons hp _ _ ih => exact hp.keeps.append ih

end Portion

theorem chunksFrom_escape (position : Nat) (pending cs rest : List Char) :
    ∃ next, chunksFrom position pending (escape isTemplateSpecial cs ++ rest) =
      chunksFrom next (pending ++ escape isTemplateSpecial cs) rest := by
  induction cs generalizing position pending with
  | nil => exact ⟨position, by rw [escape, List.nil_append, List.append_nil]⟩
  | cons c cs ih =>
    unfold escape
    split
    · obtain ⟨next, hnext⟩ := ih (position + 1 + c.utf8Size) (pending ++ ['\\', c])
      refine ⟨next, ?_⟩
      rw [List.cons_append, List.cons_append, chunksFrom, hnext, List.append_assoc]
      rfl
    · rename_i hc
      obtain ⟨next, hnext⟩ := ih (position + c.utf8Size) (pending ++ [c])
      have hplain : ¬ c = '\\' ∧ ¬ c = '$' := by
        simp only [isTemplateSpecial, Bool.or_eq_true, beq_iff_eq, not_or] at hc
        exact ⟨hc.1.1, hc.2⟩
      refine ⟨next, ?_⟩
      rw [List.cons_append, chunksFrom, hnext, List.append_assoc]
      · rfl
      all_goals intros; simp_all

theorem chunksFrom_substitution (position : Nat) (pending rest : List Char) {source : List Char}
    (h : Enclosure.Keeps (.substitution 1) source) :
    ∃ start next, chunksFrom position pending ('$' :: '\x7b' :: (source ++ '\x7d' :: rest)) =
      (chunksFrom next [] rest).map fun after =>
        textChunk position pending ++ .substitution source start :: after := by
  have hlength := (h.closes Enclosure.Closes.brace).length_eq rest
  have hdrop : (source ++ '\x7d' :: rest).drop (source.length + 1) = rest := by
    rw [← List.drop_drop, List.drop_left]
    rfl
  rw [List.append_assoc, List.singleton_append, List.length_append] at hlength
  refine ⟨position + 2, position + 2 + utf8Size ((source ++ '\x7d' :: rest).take
    (source.length + 1)), ?_⟩
  rw [chunksFrom, hlength]
  simp only [List.length_singleton, hdrop, Nat.add_sub_cancel, List.take_left]
  rfl

namespace Portion

/-- A text that is still being read is followed by no other. -/
theorem chunksFrom_allWritten {ps : List Portion} (h : Apart ps) (position : Nat)
    {pending : List Char} (hpending : pending = [] ∨ ∀ q ∈ ps.head?, q.isText = false) :
    ∃ here places, chunksFrom position pending (allWritten ps) =
      .ok (textChunk here pending ++ chunksAt places (ps.map escaped)) := by
  induction h generalizing position pending with
  | nil => exact ⟨position, id, by rw [allWritten, List.flatMap_nil, chunksFrom]; simp [chunksAt]⟩
  | @cons p ps hp hnext _ ih =>
    rw [allWritten_cons]
    cases hp with
    | @text cs hcs =>
      -- the text becomes a chunk only at the substitution or the end that follows it
      obtain rfl : pending = [] := hpending.resolve_right fun hnot => by cases hnot _ rfl
      obtain ⟨next, hescape⟩ := chunksFrom_escape position [] cs (allWritten ps)
      obtain ⟨here, places, hrest⟩ := ih next (.inr (hnext rfl))
      have hne : (escape isTemplateSpecial cs).isEmpty = false := by
        rw [List.isEmpty_eq_false_iff]
        exact fun hnil => hcs (escape_eq_nil hnil)
      refine ⟨0, consPlace (here - utf8Size (escape isTemplateSpecial cs)) places, ?_⟩
      rw [written, hescape, List.nil_append, hrest]
      simp only [textChunk, hne, Bool.false_eq_true, if_false, List.isEmpty_nil, if_true]
      rfl
    | @substitution source hsource =>
      obtain ⟨start, next, hchunk⟩ :=
        chunksFrom_substitution position pending (allWritten ps) hsource
      obtain ⟨here, places, hrest⟩ := ih next (.inl rfl)
      refine ⟨position, consPlace start places, ?_⟩
      rw [written, List.cons_append, List.cons_append, List.append_assoc, List.singleton_append,
        hchunk, hrest]
      rfl

theorem decoded_chunksAt (places : Nat → Nat) (ps : List Portion) :
    (chunksAt places (ps.map escaped)).mapM Chunk.decoded = .ok (chunksAt places ps) := by
  induction ps generalizing places with
  | nil => rfl
  | cons p ps ih =>
    have hp : (p.escaped.chunk (places 0)).decoded = .ok (p.chunk (places 0)) := by
      cases p with
      | text cs =>
        have hcs := unescape_escape escapable_template (places 0) cs
        simp only [escaped, chunk, Chunk.decoded, hcs]
        rfl
      | substitution source => rfl
    rw [List.map_cons, chunksAt, List.mapM_cons, hp, ih]
    rfl

end Portion

namespace Lexeme

def template (ps : List Portion) : Lexeme :=
  ⟨.template, '\x60' :: (Portion.allWritten ps ++ ['\x60'])⟩

theorem template_valid {ps : List Portion} (h : Portion.Apart ps) : (template ps).Valid :=
  .template (h.keeps.closes Enclosure.Closes.backquote)

end Lexeme

theorem decodedChunks_template {ps : List Portion} (h : Portion.Apart ps) (start : Nat) :
    ∃ places, decodedChunks ⟨.template, String.ofList (Lexeme.template ps).text, start⟩ =
      .ok (Portion.chunksAt places ps) := by
  obtain ⟨here, places, hchunks⟩ := Portion.chunksFrom_allWritten h (start + 1) (.inl rfl)
  refine ⟨places, ?_⟩
  unfold decodedChunks templateChunks literalBody Lexeme.template
  simp only [String.toList_ofList, List.drop_one, List.tail_cons, List.dropLast_concat, hchunks]
  exact Portion.decoded_chunksAt places ps

end Templating
