import Mathlib.Data.List.Chain
import Templating.Proofs.LiteralScans

/-!
The chunks of template tokens. The lexer finds the end of a template by a scan of the source, and
the parser cuts the token into texts and substitutions by a scan of the token alone. The two go
through the same text: the chunks with their delimiters are the token between its backquotes.
-/
namespace Templating
open Text Enclosure

/-- A text within a template that has no substitution in it. -/
inductive IsPlain : List Char → Prop
  | nil : IsPlain []
  | escape (c : Char) {cs : List Char} (h : IsPlain cs) : IsPlain ('\\' :: c :: cs)
  | cons {c : Char} {cs : List Char} (hc : c ≠ '\\') (hback : c ≠ '\x60')
      (hdollar : c = '$' → cs.head? ≠ some '\x7b') (h : IsPlain cs) : IsPlain (c :: cs)

/-- Escapes and characters that are no backslash, so that no escape goes on after them. -/
inductive Unescaped : List Char → Prop
  | nil : Unescaped []
  | escape (c : Char) {cs : List Char} (h : Unescaped cs) : Unescaped ('\\' :: c :: cs)
  | cons {c : Char} {cs : List Char} (hc : c ≠ '\\') (h : Unescaped cs) : Unescaped (c :: cs)

def HasOpening (raw : List Char) : Prop :=
  ∃ before after, Unescaped before ∧ raw = before ++ '$' :: '\x7b' :: after

theorem IsPlain.not_hasOpening {raw : List Char} (h : IsPlain raw) : ¬HasOpening raw := by
  rintro ⟨before, after, hwhole, hraw⟩
  induction hwhole generalizing raw with
  | nil =>
    subst hraw
    cases h with
    | cons _ _ hdollar => exact hdollar rfl rfl
  | escape c _ ih =>
    rw [List.cons_append, List.cons_append] at hraw
    subst hraw
    cases h with
    | escape _ h => exact ih h rfl
    | cons hc => exact hc rfl
  | cons hc _ ih =>
    rw [List.cons_append] at hraw
    cases h with
    | nil => cases hraw
    | escape => exact hc (List.cons.inj hraw).1.symm
    | cons _ _ _ h => exact ih h (List.cons.inj hraw).2

/-- Plain text is read into the text that has been read before it. -/
theorem chunksFrom_plain {raw rest : List Char} (h : IsPlain raw)
    (hrest : rest.head? ≠ some '\x7b') (position : Nat) (pending : List Char) :
    chunksFrom position pending (raw ++ rest) =
      chunksFrom (position + utf8Size raw) (pending ++ raw) rest := by
  induction h generalizing position pending with
  | nil => rw [List.append_nil]; rfl
  | escape c _ ih =>
    rw [List.cons_append, List.cons_append, chunksFrom, ih, List.append_assoc]
    simp only [utf8Size_cons, Nat.add_assoc]
    rfl
  | @cons c cs hc hback hdollar _ ih =>
    have hnext : ∀ more, c = '$' → cs ++ rest = '\x7b' :: more → False := by
      intro more hd hmore
      cases cs with
      | nil => exact hrest (congrArg List.head? hmore)
      | cons d cs => exact hdollar hd (congrArg List.head? hmore)
    rw [List.cons_append, chunksFrom, ih, List.append_assoc, utf8Size_cons, Nat.add_assoc]
    · rfl
    · exact fun h => absurd h hc
    · exact fun _ _ h => absurd h hc
    · exact hnext

namespace Chunk

def raw : Chunk → List Char
  | text raw _ | substitution raw _ => raw

def start : Chunk → Nat
  | text _ start | substitution _ start => start

def isText : Chunk → Bool
  | text .. => true
  | substitution .. => false

def opening : Chunk → List Char
  | text .. => []
  | substitution .. => ['$', '\x7b']

def closing : Chunk → List Char
  | text .. => []
  | substitution .. => ['\x7d']

def written (chunk : Chunk) : List Char := chunk.opening ++ chunk.raw ++ chunk.closing

/-- The chunks stand one after the other, the first of them at the place. -/
def PlacedFrom : Nat → List Chunk → Prop
  | _, [] => True
  | place, chunk :: chunks => chunk.start = place + utf8Size chunk.opening ∧
      PlacedFrom (place + utf8Size chunk.written) chunks

/-- Two texts do not stand one after the other. -/
def Apart (chunks : List Chunk) : Prop := chunks.IsChain fun a b => (a.isText && b.isText) = false

/-- The source of a substitution ends where the scan for its brace does, whatever comes after it. -/
def EndsAtBrace (source : List Char) : Prop :=
  ∀ rest, Scan (.substitution 1) (source ++ '\x7d' :: rest) (some (source, rest))

/-- A text is plain and not empty, and a source ends at its brace. -/
def IsCut : Chunk → Prop
  | text raw _ => raw ≠ [] ∧ IsPlain raw
  | substitution source _ => EndsAtBrace source

end Chunk

open Chunk

/-- The inside of a template at the given place is cut into the chunks: plain texts, as long as they
can be, with substitutions between them. -/
inductive CutInto : Nat → List Char → List Chunk → Prop
  | last {place : Nat} {raw : List Char} (h : IsPlain raw) :
      CutInto place raw (textChunk (place + utf8Size raw) raw)
  | substitution {place : Nat} {raw source rest : List Char} {chunks : List Chunk}
      (h : IsPlain raw) (hsource : EndsAtBrace source)
      (hrest : CutInto (place + utf8Size raw + 2 + utf8Size source + 1) rest chunks) :
      CutInto place (raw ++ '$' :: '\x7b' :: (source ++ '\x7d' :: rest))
        (textChunk (place + utf8Size raw) raw ++
          .substitution source (place + utf8Size raw + 2) :: chunks)

namespace CutInto

variable {place : Nat} {body : List Char} {chunks : List Chunk}

theorem chunksFrom_eq (h : CutInto place body chunks) : chunksFrom place [] body = .ok chunks := by
  induction h with
  | @last place raw hraw =>
    have hnone : ([] : List Char).head? ≠ some '\x7b' := nofun
    have hread := chunksFrom_plain hraw hnone place []
    rw [List.append_nil, List.nil_append, chunksFrom] at hread
    exact hread
  | @substitution place raw source rest chunks hraw hsource _ ih =>
    have hclosing := (hsource rest).closingLength?_of_some
    have htake : (source ++ '\x7d' :: rest).take (source.length + 1) = source ++ ['\x7d'] :=
      List.take_length_add_append _
    have hdrop : (source ++ '\x7d' :: rest).drop (source.length + 1) = rest :=
      List.drop_length_add_append _
    have hsize : utf8Size (source ++ ['\x7d']) = utf8Size source + 1 := utf8Size_append _ _
    rw [chunksFrom_plain hraw (by simp), List.nil_append, chunksFrom, hclosing]
    dsimp only
    rw [htake, hdrop, hsize, Nat.add_sub_cancel, List.take_left, ← Nat.add_assoc, ih]
    rfl

/-- Plain text before the inside of a template belongs to its first chunk. -/
theorem exists_append {piece : List Char} (h : CutInto (place + utf8Size piece) body chunks)
    (hplain : ∀ raw, raw <+: body → IsPlain raw → IsPlain (piece ++ raw)) :
    ∃ chunks, CutInto place (piece ++ body) chunks := by
  cases h with
  | last hraw => exact ⟨_, .last (hplain _ (List.prefix_refl _) hraw)⟩
  | @substitution _ raw source rest chunks hraw hsource hrest =>
    have hboth := hplain raw (List.prefix_append _ _) hraw
    rw [Nat.add_assoc place, ← utf8Size_append] at hrest
    rw [← List.append_assoc]
    exact ⟨_, .substitution hboth hsource hrest⟩

/-- What a scan for the end of a template goes through is cut into chunks. -/
theorem exists_of_scan {cs rest : List Char} (h : Scan .template cs (some (body, rest)))
    (place : Nat) : ∃ chunks, CutInto place body chunks := by
  generalize he : Enclosure.template = e at h
  generalize hr : some (body, rest) = r at h
  induction h generalizing body place with
  | ends | escapeEnds | unended => cases hr
  | closes =>
    cases hr
    exact ⟨_, .last .nil⟩
  | step hstep hscan ih =>
    obtain ⟨⟨body', rest'⟩, rfl, hp⟩ := Option.map_eq_some_iff.mp hr.symm
    cases hp
    subst he
    -- what the step reads goes in front of the first chunk
    cases hstep with
    | escape _ =>
      obtain ⟨chunks, hchunks⟩ := ih _ rfl rfl
      exact hchunks.exists_append fun raw _ hraw => .escape _ hraw
    | @template c _ hc hback hdollar =>
      obtain ⟨chunks, hchunks⟩ := ih _ rfl rfl
      apply hchunks.exists_append
      intro raw hprefix hraw
      have hnext : c = '$' → raw.head? ≠ some '\x7b' := by
        intro hd hhead
        obtain ⟨more, rfl⟩ := hprefix
        apply hdollar hd
        rw [hscan.eq_append, List.append_assoc, List.head?_append, hhead]
        rfl
      exact .cons hc hback hnext hraw
  | @nested e inner opener source cs after r hopens hinner _ _ ih =>
    obtain ⟨⟨body', rest'⟩, rfl, hp⟩ := Option.map_eq_some_iff.mp hr.symm
    cases hp
    subst he
    cases hopens
    obtain ⟨chunks, hchunks⟩ := ih (place + utf8Size [] + 2 + utf8Size source + 1) rfl rfl
    have hcut := CutInto.substitution .nil hinner.replace_rest hchunks
    rw [List.nil_append] at hcut
    simpa [Enclosure.closer] using ⟨_, hcut⟩

/-- There is a chunk for plain text exactly if there is such text. -/
theorem textChunk_cases (place : Nat) (raw : List Char) :
    (raw = [] ∧ textChunk (place + utf8Size raw) raw = []) ∨
      (raw ≠ [] ∧ textChunk (place + utf8Size raw) raw = [.text raw place]) := by
  cases raw with
  | nil => exact .inl ⟨rfl, rfl⟩
  | cons c cs => exact .inr ⟨List.cons_ne_nil c cs, by simp [textChunk]⟩

/-- The chunks with their delimiters are the inside of the template. -/
theorem flatMap_written (h : CutInto place body chunks) : chunks.flatMap written = body := by
  have htext (place : Nat) (raw : List Char) :
      (textChunk (place + utf8Size raw) raw).flatMap written = raw := by
    rcases textChunk_cases place raw with ⟨rfl, hchunk⟩ | ⟨-, hchunk⟩ <;> rw [hchunk]
    · rfl
    · simp [written, opening, Chunk.raw, closing]
  induction h with
  | last => exact htext _ _
  | substitution _ _ _ ih =>
    rw [List.flatMap_append, htext, List.flatMap_cons, ih]
    simp [written, opening, Chunk.raw, closing]

theorem placedFrom (h : CutInto place body chunks) : PlacedFrom place chunks := by
  have htext (place : Nat) (raw : List Char) {more : List Chunk}
      (hmore : PlacedFrom (place + utf8Size raw) more) :
      PlacedFrom place (textChunk (place + utf8Size raw) raw ++ more) := by
    rcases textChunk_cases place raw with ⟨rfl, hchunk⟩ | ⟨-, hchunk⟩ <;> rw [hchunk]
    · exact hmore
    · exact ⟨rfl, by simpa [written, opening, Chunk.raw, closing] using hmore⟩
  induction h with
  | @last place raw =>
    rw [← List.append_nil (textChunk _ raw)]
    exact htext place raw trivial
  | @substitution place raw source rest chunks _ _ _ ih =>
    apply htext
    refine ⟨rfl, ?_⟩
    have hsize : utf8Size (written (.substitution source (place + utf8Size raw + 2))) =
        2 + utf8Size source + 1 := by
      rw [written, utf8Size_append, utf8Size_append]
      rfl
    rwa [hsize, ← Nat.add_assoc, ← Nat.add_assoc]

theorem apart (h : CutInto place body chunks) : Apart chunks := by
  induction h with
  | @last place raw =>
    rcases textChunk_cases place raw with ⟨rfl, hchunk⟩ | ⟨-, hchunk⟩ <;> rw [hchunk]
    · exact .nil
    · exact .singleton _
  | @substitution place raw source rest chunks _ _ _ ih =>
    have hmore : Apart (.substitution source (place + utf8Size raw + 2) :: chunks) :=
      List.isChain_cons.mpr ⟨fun _ _ => rfl, ih⟩
    rcases textChunk_cases place raw with ⟨rfl, hchunk⟩ | ⟨-, hchunk⟩ <;> rw [hchunk]
    · exact hmore
    · exact List.isChain_cons_cons.mpr ⟨rfl, hmore⟩

theorem isCut (h : CutInto place body chunks) : ∀ chunk ∈ chunks, chunk.IsCut := by
  have htext {place : Nat} {raw : List Char} (hraw : IsPlain raw) :
      ∀ chunk ∈ textChunk (place + utf8Size raw) raw, chunk.IsCut := by
    rcases textChunk_cases place raw with ⟨rfl, hchunk⟩ | ⟨hne, hchunk⟩ <;> rw [hchunk]
    · exact List.forall_mem_nil _
    · exact List.forall_mem_singleton.mpr ⟨hne, hraw⟩
  induction h with
  | last hraw => exact htext hraw
  | substitution hraw hsource _ ih =>
    exact List.forall_mem_append.mpr ⟨htext hraw, List.forall_mem_cons.mpr ⟨hsource, ih⟩⟩

end CutInto

/-- Chunks that stand in a source one after the other stand there one by one. -/
theorem Chunk.PlacedFrom.standsAt {source : List Char} {place : Nat} {chunks : List Chunk}
    (h : PlacedFrom place chunks) (hstands : StandsAt source place (chunks.flatMap written)) :
    ∀ chunk ∈ chunks, StandsAt source chunk.start (chunk.raw ++ chunk.closing) := by
  induction chunks generalizing place with
  | nil => exact List.forall_mem_nil _
  | cons chunk chunks ih =>
    obtain ⟨hstart, hmore⟩ := h
    rw [List.flatMap_cons] at hstands
    refine List.forall_mem_cons.mpr ⟨?_, ih hmore hstands.right⟩
    have hchunk := hstands.left
    rw [written, List.append_assoc] at hchunk
    rw [hstart]
    exact hchunk.right

theorem Chunk.PlacedFrom.le_start {place : Nat} {chunks : List Chunk}
    (h : PlacedFrom place chunks) : ∀ chunk ∈ chunks, place ≤ chunk.start := by
  induction chunks generalizing place with
  | nil => exact List.forall_mem_nil _
  | cons chunk chunks ih =>
    obtain ⟨hstart, hmore⟩ := h
    refine List.forall_mem_cons.mpr ⟨by omega, fun later hlater => ?_⟩
    exact Nat.le_trans (Nat.le_add_right _ _) (ih hmore later hlater)

/-- The inside of a template token is where the scan of the source ends. -/
theorem exists_body_of_readIn {source rest : List Char} {t : Token} {c : Char} {n : Nat}
    (h : t.ReadIn source c rest n) (hkind : t.kind = .template) :
    ∃ body after, Scan .template rest (some (body, after)) ∧
      t.text.toList = '\x60' :: (body ++ ['\x60']) ∧ literalBody t = body ∧
      StandsAt source (t.start + 1) body := by
  have hread := h.reads
  rw [hkind] at hread
  rcases lexeme_cases hread with ⟨-, hstring, -⟩ | ⟨rfl, -, hclosing⟩ | ⟨hnumber, -⟩ |
    ⟨-, hword, -⟩ | ⟨p, hpunct, -⟩
  · cases hstring
  · obtain ⟨body, after, hscan, rfl⟩ := exists_scan_of_eq_some hclosing
    have hrest := hscan.eq_append
    have htake : rest.take (body.length + 1) = body ++ ['\x60'] := by
      rw [hrest, List.take_length_add_append]
      rfl
    have htext := h.text
    rw [htake] at htext
    refine ⟨body, after, hscan, htext, ?_, ?_⟩
    · rw [literalBody, htext, List.drop_one, List.tail_cons, List.dropLast_concat]
    · have hstands := h.stands.tail
      rw [hrest] at hstands
      exact hstands.left
  · cases hnumber
  · cases hword
  · cases hpunct

def LexError.InEscape (e : LexError) : Prop := ∃ sequence, e.fault = .invalidEscape sequence

theorem unescape_meets (position : Nat) (cs : List Char) :
    Meets LexError.InEscape (fun _ => True) (unescape position cs) := by
  fun_induction unescape position cs with
  | case1 => trivial
  | case2 | case3 => exact ⟨_, rfl⟩
  | case5 _ _ _ _ ih => exact ih
  | case4 | case6 | case7 =>
    rename_i ih
    exact ih.bind fun _ _ => trivial

structure Token.SplitsInto (source : List Char) (t : Token) (chunks : List Chunk) : Prop where
  reads : templateChunks t = .ok chunks
  written : t.text.toList = '\x60' :: (chunks.flatMap Chunk.written ++ ['\x60'])
  placed : PlacedFrom (t.start + 1) chunks
  apart : Apart chunks
  text : ∀ raw start, .text raw start ∈ chunks → raw ≠ [] ∧ ¬HasOpening raw
  substitution : ∀ inner start, .substitution inner start ∈ chunks →
    StandsAt source start (inner ++ ['\x7d']) ∧ EndsAtBrace inner

theorem exists_splitsInto {source rest : List Char} {t : Token} {c : Char} {n : Nat}
    (h : t.ReadIn source c rest n) (hkind : t.kind = .template) :
    ∃ chunks, t.SplitsInto source chunks := by
  obtain ⟨body, after, hscan, htext, hbody, hstands⟩ := exists_body_of_readIn h hkind
  obtain ⟨chunks, hcut⟩ := CutInto.exists_of_scan hscan (t.start + 1)
  have hwritten := hcut.flatMap_written
  refine ⟨chunks, ?_, ?_, hcut.placedFrom, hcut.apart, ?_, ?_⟩
  · rw [templateChunks, hbody]
    exact hcut.chunksFrom_eq
  · rw [hwritten, htext]
  · intro raw start hmem
    obtain ⟨hne, hplain⟩ := hcut.isCut _ hmem
    exact ⟨hne, hplain.not_hasOpening⟩
  · intro inner start hmem
    rw [← hwritten] at hstands
    exact ⟨hcut.placedFrom.standsAt hstands _ hmem, hcut.isCut _ hmem⟩

/-- Only an escape can be at fault in a template token, and its substitutions stay as they are. -/
theorem decodedChunks_meets {source : List Char} {t : Token} {chunks : List Chunk}
    (h : t.SplitsInto source chunks) :
    Meets LexError.InEscape (fun decoded => ∀ chunk ∈ decoded, chunk.isText = true ∨ chunk ∈ chunks)
      (decodedChunks t) := by
  rw [decodedChunks, h.reads]
  change Meets _ _ (chunks.mapM Chunk.decoded)
  apply Meets.mapM
  intro chunk hmem
  cases chunk with
  | text raw start => exact (unescape_meets start raw).bind fun _ _ => .inl rfl
  | substitution inner start => exact .inr hmem

/-- Every template token of every source is cut into chunks that are, with their delimiters, the
token between its backquotes, and only an escape can be at fault in it. The scans for the ends of
literals and substitutions come to exactly one outcome on every text, which is that of the lexer. -/
theorem template_tokens_split :
    (∀ source tokens, tokenize source = .ok tokens → ∀ t ∈ tokens, t.kind = .template →
      (∃ chunks, t.SplitsInto source.toList chunks) ∧
      ∀ e, decodedChunks t = .error e → e.InEscape) ∧
    ∀ e cs, ∃ r, Scan e cs r ∧ (∀ r', Scan e cs r' → r' = r) ∧
      closingLength? [e] cs = r.map fun p => p.1.length + 1 := by
  constructor
  · intro source tokens h t ht hkind
    obtain ⟨c, rest, n, hread⟩ := exists_readIn (StandsAt.whole _) h t ht
    obtain ⟨chunks, hsplits⟩ := exists_splitsInto hread hkind
    refine ⟨⟨chunks, hsplits⟩, fun e he => ?_⟩
    have hmeets := decodedChunks_meets hsplits
    rwa [he] at hmeets
  · intro e cs
    obtain ⟨r, hscan⟩ := exists_scan e cs
    refine ⟨r, hscan, fun r' => hscan.unique, ?_⟩
    rw [hscan.closingLength?_eq]
    cases r with
    | none => rfl
    | some p => simp [Outcome.lengthIn, closingLength?]

/-- A template with a brace in a string in its substitution, and with an escape that is none. -/
def bracedTemplate : String := "\x60\xe9$\x7b'\x7d'\x7d\\xZ\x60"

theorem bracedTemplate_split :
    tokenize bracedTemplate = .ok [⟨.template, bracedTemplate, 0⟩] ∧
      (∃ chunks, Token.SplitsInto bracedTemplate.toList ⟨.template, bracedTemplate, 0⟩ chunks) ∧
      decodedChunks ⟨.template, bracedTemplate, 0⟩ = .error ⟨.invalidEscape "xZ", 9⟩ ∧
      LexError.InEscape ⟨.invalidEscape "xZ", 9⟩ ∧
      ∃ body rest, Scan (.substitution 1) (bracedTemplate.toList.drop 4) (some (body, rest)) ∧
        (∀ r, Scan (.substitution 1) (bracedTemplate.toList.drop 4) r → r = some (body, rest)) ∧
        body.length = 3 := by
  have htokens : tokenize bracedTemplate = .ok [⟨.template, bracedTemplate, 0⟩] := by
    decide +kernel
  have hfault : decodedChunks ⟨.template, bracedTemplate, 0⟩ =
      .error ⟨.invalidEscape "xZ", 9⟩ := by
    decide +kernel
  have hclosing : closingLength? [.substitution 1] (bracedTemplate.toList.drop 4) = some 4 := by
    decide +kernel
  obtain ⟨htokensSplit, hscans⟩ := template_tokens_split
  obtain ⟨hchunks, hescape⟩ := htokensSplit _ _ htokens _ List.mem_cons_self rfl
  obtain ⟨r, hscan, hunique, hlength⟩ := hscans (.substitution 1) (bracedTemplate.toList.drop 4)
  rw [hclosing] at hlength
  obtain ⟨⟨body, rest⟩, rfl, hbody⟩ := Option.map_eq_some_iff.mp hlength.symm
  exact ⟨htokens, hchunks, hfault, hescape _ hfault, body, rest, hscan, hunique,
    Nat.succ.inj hbody⟩

end Templating
