import Mathlib.Data.List.Basic
import Templating.Template.Segment

/-!
How a text is cut into literal runs and directives, said without cutting it, and where the segments
of the pieces are in the text.
-/
namespace Templating
open Text

def openingBraces : List Char := ['\x7b', '\x7b']

def closingBraces : List Char := ['\x7d', '\x7d']

/-- The opening braces between two texts are the first ones. -/
def OpensFirst (before after : List Char) : Prop :=
  ∀ a b, before ++ openingBraces ++ after = a ++ openingBraces ++ b → before.length ≤ a.length

/-- A text that closing braces and `rest` come after may be the content of a directive. -/
structure Content (raw rest : List Char) : Prop where
  ne_nil : raw ≠ []
  head : rest.head? ≠ some '\x7d'

/-- Of the contents that a directive may have, `raw` is the shortest. -/
structure ShortestContent (raw rest : List Char) : Prop extends Content raw rest where
  shortest : ∀ a b, Content a b → raw ++ closingBraces ++ rest = a ++ closingBraces ++ b →
    raw.length ≤ a.length

def NoDirective (cs : List Char) : Prop :=
  ∀ before raw rest, cs = before ++ openingBraces ++ raw ++ closingBraces ++ rest →
    ¬ Content raw rest

/-- A directive begins at the first opening braces and has the shortest content. What is left when
there is no more of them is a literal run. -/
inductive Cut : List Char → List Piece → Prop where
  | literal {cs : List Char} (h : NoDirective cs) : Cut cs (literalPiece cs)
  | directive {before raw rest : List Char} {pieces : List Piece}
      (opens : OpensFirst before (raw ++ closingBraces ++ rest))
      (content : ShortestContent raw rest) (more : Cut rest pieces) :
      Cut (before ++ openingBraces ++ raw ++ closingBraces ++ rest)
        (literalPiece before ++ .directive raw :: pieces)

theorem Piece.source_directive (raw : List Char) :
    (directive raw).source = openingBraces ++ raw ++ closingBraces := rfl

theorem flatMap_literalPiece (cs : List Char) : (literalPiece cs).flatMap Piece.source = cs := by
  unfold literalPiece
  split
  · rename_i h
    rw [List.isEmpty_iff.mp h]
    rfl
  · simp [Piece.source]

/-- Nothing is lost by cutting. -/
theorem Cut.flatMap_source {cs : List Char} {pieces : List Piece} (h : Cut cs pieces) :
    pieces.flatMap Piece.source = cs := by
  induction h with
  | literal => exact flatMap_literalPiece _
  | directive opens content more ih =>
    rw [List.flatMap_append, flatMap_literalPiece, List.flatMap_cons, ih, Piece.source_directive]
    simp only [List.append_assoc]

/-- Opening braces are found no later than where there are some. -/
theorem exists_splitOpening? (a b : List Char) :
    ∃ before after, splitOpening? (a ++ openingBraces ++ b) = some (before, after) ∧
      before.length ≤ a.length := by
  induction a with
  | nil => exact ⟨[], b, rfl, Nat.le_refl _⟩
  | cons c a ih =>
    obtain ⟨before, after, hsplit, hle⟩ := ih
    rw [List.cons_append, List.cons_append]
    unfold splitOpening?
    split
    · contradiction
    · exact ⟨[], _, rfl, Nat.zero_le _⟩
    · rename_i heq
      obtain ⟨rfl, rfl⟩ := List.cons.inj heq
      rw [hsplit]
      exact ⟨c :: before, after, rfl, Nat.succ_le_succ hle⟩

theorem opensFirst_of_splitOpening? {cs before after : List Char}
    (h : splitOpening? cs = some (before, after)) : OpensFirst before after := by
  intro a b heq
  have hcs := splitOpening?_eq h
  obtain ⟨before', after', hsplit, hle⟩ := exists_splitOpening? a b
  have hsame : cs = a ++ openingBraces ++ b := by
    rw [hcs, ← heq, List.append_assoc]
    rfl
  rw [hsame, hsplit] at h
  obtain ⟨rfl, -⟩ := Prod.mk.inj (Option.some.inj h)
  exact hle

theorem splitClosing?_head {cs raw rest : List Char} (h : splitClosing? cs = some (raw, rest)) :
    rest.head? ≠ some '\x7d' := by
  fun_induction splitClosing? cs generalizing raw rest with
  | case1 => cases h
  | case2 c cs hc =>
    obtain ⟨-, rfl⟩ := Prod.mk.inj (Option.some.inj h)
    exact hc.2.2
  | case3 c cs _ ih =>
    obtain ⟨⟨b, a⟩, hp, heq⟩ := Option.map_eq_some_iff.mp h
    obtain ⟨-, rfl⟩ := Prod.mk.inj heq
    exact ih hp

/-- Closing braces are found no later than where there are some that no third one follows. -/
theorem exists_splitClosing? (a : List Char) {b : List Char} (hb : b.head? ≠ some '\x7d') :
    ∃ raw rest, splitClosing? (a ++ closingBraces ++ b) = some (raw, rest) ∧
      raw.length ≤ a.length := by
  induction a with
  | nil =>
    refine ⟨[], b, ?_, Nat.le_refl _⟩
    change splitClosing? ('\x7d' :: '\x7d' :: b) = _
    unfold splitClosing?
    exact if_pos ⟨rfl, rfl, hb⟩
  | cons c a ih =>
    obtain ⟨raw, rest, hsplit, hle⟩ := ih
    rw [List.cons_append, List.cons_append]
    unfold splitClosing?
    split
    · exact ⟨[], _, rfl, Nat.zero_le _⟩
    · rw [hsplit]
      exact ⟨c :: raw, rest, rfl, Nat.succ_le_succ hle⟩

/-- A directive is found, and no later than where there is a place for one. -/
theorem exists_splitDirective? {a b : List Char} (h : Content a b) :
    ∃ raw rest, splitDirective? (a ++ closingBraces ++ b) = some (raw, rest) ∧
      raw.length ≤ a.length := by
  cases a with
  | nil => exact absurd rfl h.ne_nil
  | cons c a =>
    obtain ⟨raw, rest, hsplit, hle⟩ := exists_splitClosing? a h.head
    rw [List.cons_append, List.cons_append]
    refine ⟨c :: raw, rest, ?_, Nat.succ_le_succ hle⟩
    simp only [splitDirective?, hsplit, Option.map_some]

theorem shortestContent_of_splitDirective? {cs raw rest : List Char}
    (h : splitDirective? cs = some (raw, rest)) : ShortestContent raw rest := by
  have hcs := splitDirective?_eq h
  cases cs with
  | nil => cases h
  | cons c cs =>
    have hcontent : Content raw rest := by
      obtain ⟨⟨r, s⟩, hp, heq⟩ := Option.map_eq_some_iff.mp h
      obtain ⟨rfl, rfl⟩ := Prod.mk.inj heq
      exact ⟨List.cons_ne_nil _ _, splitClosing?_head hp⟩
    refine ⟨hcontent, fun a b hab heq => ?_⟩
    obtain ⟨raw', rest', hsplit, hle⟩ := exists_splitDirective? hab
    have hsame : c :: cs = a ++ closingBraces ++ b := by
      rw [hcs, ← heq, List.append_assoc]
      rfl
    rw [hsame, hsplit] at h
    obtain ⟨rfl, -⟩ := Prod.mk.inj (Option.some.inj h)
    exact hle

/-- What comes after later braces is an end of what comes after the first ones. -/
theorem OpensFirst.suffix {before after a b : List Char} (h : OpensFirst before after)
    (heq : before ++ openingBraces ++ after = a ++ openingBraces ++ b) : ∃ x, after = x ++ b := by
  have hle := h a b heq
  have hprefix : before ++ openingBraces <+: a ++ openingBraces :=
    List.prefix_of_prefix_length_le (List.prefix_append _ _) ⟨b, heq.symm⟩ (by simpa using hle)
  obtain ⟨x, hx⟩ := hprefix
  rw [← hx, List.append_assoc (before ++ openingBraces)] at heq
  exact ⟨x, List.append_cancel_left heq⟩

theorem noDirective_of_splitOpening? {cs : List Char} (h : splitOpening? cs = none) :
    NoDirective cs := by
  rintro before raw rest rfl
  obtain ⟨before', after', hsplit, -⟩ :=
    exists_splitOpening? before (raw ++ (closingBraces ++ rest))
  rw [← List.append_assoc, ← List.append_assoc, h] at hsplit
  cases hsplit

theorem noDirective_of_splitDirective? {cs before after : List Char}
    (h : splitOpening? cs = some (before, after)) (h' : splitDirective? after = none) :
    NoDirective cs := by
  rintro a raw rest hcs hcontent
  have heq : before ++ openingBraces ++ after =
      a ++ openingBraces ++ (raw ++ closingBraces ++ rest) := by
    rw [← List.append_assoc, ← List.append_assoc, ← hcs, splitOpening?_eq h, List.append_assoc]
    rfl
  obtain ⟨x, rfl⟩ := (opensFirst_of_splitOpening? h).suffix heq
  have hlonger : Content (x ++ raw) rest :=
    ⟨fun hnil => hcontent.ne_nil (List.append_eq_nil_iff.mp hnil).2, hcontent.head⟩
  obtain ⟨raw', rest', hsplit, -⟩ := exists_splitDirective? hlonger
  rw [List.append_assoc x, List.append_assoc x, h'] at hsplit
  cases hsplit

/-- Cutting is what has been said of it. -/
theorem cut_piecesOf (cs : List Char) : Cut cs (piecesOf cs) := by
  fun_induction piecesOf cs with
  | case1 cs h => exact .literal (noDirective_of_splitOpening? h)
  | case2 cs before after h h' => exact .literal (noDirective_of_splitDirective? h h')
  | case3 cs before after h raw rest h' ih =>
    have hafter : after = raw ++ closingBraces ++ rest := by
      rw [splitDirective?_eq h', List.append_assoc]
      rfl
    have hcs : cs = before ++ openingBraces ++ raw ++ closingBraces ++ rest := by
      rw [splitOpening?_eq h, hafter]
      simp only [openingBraces, List.append_assoc, List.cons_append, List.nil_append]
    have hopens := opensFirst_of_splitOpening? h
    rw [hafter] at hopens
    rw [hcs]
    exact .directive hopens (shortestContent_of_splitDirective? h') ih

theorem piecesOf_of_noDirective {cs : List Char} (h : NoDirective cs) :
    piecesOf cs = literalPiece cs := by
  fun_cases piecesOf cs with
  | case1 => rfl
  | case2 => rfl
  | case3 before after hopen raw rest hclose =>
    refine absurd (shortestContent_of_splitDirective? hclose).toContent (h before raw rest ?_)
    rw [splitOpening?_eq hopen, splitDirective?_eq hclose]
    simp only [openingBraces, closingBraces, List.append_assoc, List.cons_append, List.nil_append]

theorem mem_literalPiece {cs run : List Char} (h : .literal run ∈ literalPiece cs) :
    run = cs ∧ run ≠ [] := by
  unfold literalPiece at h
  split at h
  · cases h
  · rename_i hne
    obtain rfl := Piece.literal.inj (List.mem_singleton.mp h)
    exact ⟨rfl, fun hnil => hne (List.isEmpty_iff.mpr hnil)⟩

/-- A literal run is not empty and has no place for a directive. -/
theorem Cut.of_literal {cs run : List Char} {pieces : List Piece} (h : Cut cs pieces)
    (hrun : .literal run ∈ pieces) : run ≠ [] ∧ NoDirective run := by
  induction h with
  | literal h =>
    obtain ⟨rfl, hne⟩ := mem_literalPiece hrun
    exact ⟨hne, h⟩
  | @directive before raw rest pieces opens content more ih =>
    rcases List.mem_append.mp hrun with hrun | hrun
    · obtain ⟨rfl, hne⟩ := mem_literalPiece hrun
      refine ⟨hne, ?_⟩
      rintro a raw' rest' rfl hcontent
      have hle := opens a (raw' ++ closingBraces ++ rest' ++ openingBraces ++
        (raw ++ closingBraces ++ rest)) (by simp only [List.append_assoc])
      simp only [List.length_append, openingBraces, List.length_cons] at hle
      omega
    · rcases List.mem_cons.mp hrun with hrun | hrun
      · cases hrun
      · exact ih hrun

def Piece.segment (before : List Char) : Piece → Segment
  | literal cs => .text (String.ofList cs) (1 + lineFeeds before) (utf8Size before)
  | directive raw =>
    .directive (String.ofList (trim raw)) (1 + lineFeeds before)
      (utf8Size (before ++ openingBraces ++ raw.takeWhile isBlank))

/-- The segments of pieces, each after the text of those before it. -/
def segmentsAfter (before : List Char) (pieces : List Piece) : List Segment :=
  pieces.mapIdx fun i p => p.segment (before ++ (pieces.take i).flatMap Piece.source)

namespace Segment

def content : Segment → String
  | text s _ _ | directive s _ _ => s

def offset : Segment → Nat
  | text _ _ offset | directive _ _ offset => offset

end Segment

theorem segmentsAfter_cons (before : List Char) (p : Piece) (pieces : List Piece) :
    segmentsAfter before (p :: pieces) =
      p.segment before :: segmentsAfter (before ++ p.source) pieces := by
  simp [segmentsAfter, List.mapIdx_cons]

theorem segmentsAfter_append (before : List Char) (pieces pieces' : List Piece) :
    segmentsAfter before (pieces ++ pieces') = segmentsAfter before pieces ++
      segmentsAfter (before ++ pieces.flatMap Piece.source) pieces' := by
  induction pieces generalizing before with
  | nil => simp [segmentsAfter]
  | cons p pieces ih =>
    simp only [List.cons_append, segmentsAfter_cons, ih, List.flatMap_cons, List.append_assoc]

theorem located_eq_segmentsAfter (before : List Char) (pieces : List Piece) :
    located (1 + lineFeeds before) (utf8Size before) pieces = segmentsAfter before pieces := by
  induction pieces generalizing before with
  | nil => rfl
  | cons p pieces ih =>
    rw [segmentsAfter_cons, ← ih]
    cases p with
    | literal cs => simp [located, Piece.segment, Piece.source, lineFeeds, Nat.add_assoc]
    | directive raw =>
      have hblanks : utf8Size raw =
          utf8Size (raw.takeWhile isBlank) + utf8Size (trimStart raw) := by
        rw [← utf8Size_append, trimStart, List.takeWhile_append_dropWhile]
      have hopening : utf8Size openingBraces = 2 := by decide
      have hclosing : utf8Size closingBraces = 2 := by decide
      have hlines : lineFeeds (before ++ (Piece.directive raw).source) =
          lineFeeds before + lineFeeds raw := by
        simp [lineFeeds, Piece.source_directive, openingBraces, closingBraces]
      have hsize : utf8Size (before ++ (Piece.directive raw).source) =
          utf8Size before + 4 + utf8Size raw := by
        simp only [Piece.source_directive, utf8Size_append, hopening, hclosing]
        omega
      have hoffset : utf8Size before + 2 + (utf8Size raw - utf8Size (trimStart raw)) =
          utf8Size (before ++ openingBraces ++ raw.takeWhile isBlank) := by
        simp only [utf8Size_append, hopening]
        omega
      rw [located, Piece.segment, hlines, hsize, hoffset, Nat.add_assoc]

theorem segmentsOf_eq (source : String) :
    segmentsOf source = layoutLast (segmentsAfter [] (piecesOf source.toList)) := by
  rw [← located_eq_segmentsAfter]
  rfl

theorem mem_of_mem_layoutLast {s : Segment} {segments : List Segment}
    (h : s ∈ layoutLast segments) : s ∈ segments := by
  rcases List.mem_append.mp h with h | h
  · exact (List.mem_filter.mp h).1
  · have hlast := List.mem_of_getLast? (Option.mem_toList.mp h)
    exact (List.mem_filter.mp hlast).1

/-- Every segment comes from a piece at its place. -/
theorem mem_segmentsAfter {s : Segment} {before : List Char} {pieces : List Piece}
    (h : s ∈ segmentsAfter before pieces) : ∃ these p those, pieces = these ++ p :: those ∧
      s = p.segment (before ++ these.flatMap Piece.source) := by
  obtain ⟨i, hi, rfl⟩ := List.mem_mapIdx.mp h
  refine ⟨pieces.take i, pieces[i], pieces.drop (i + 1), ?_, rfl⟩
  rw [← List.drop_eq_getElem_cons hi, List.take_append_drop]

/-- Only blanks are cut off in trimming. -/
theorem exists_trim (cs : List Char) :
    ∃ blanks, cs = cs.takeWhile isBlank ++ (trim cs ++ blanks) := by
  have htrim : trim cs <+: trimStart cs := by
    rw [trim, trimEnd]
    exact List.reverse_suffix.mp (by simpa using List.dropWhile_suffix _)
  obtain ⟨blanks, hblanks⟩ := htrim
  refine ⟨blanks, ?_⟩
  rw [hblanks, trimStart, List.takeWhile_append_dropWhile]

/-- The text of a segment stands where its offset says. -/
theorem Piece.segment_slice (before : List Char) (p : Piece) (after : List Char) :
    ∃ x y, before ++ p.source ++ after = x ++ (p.segment before).content.toList ++ y ∧
      utf8Size x = (p.segment before).offset := by
  cases p with
  | literal cs =>
    refine ⟨before, after, ?_, rfl⟩
    simp [segment, Segment.content, source]
  | directive raw =>
    obtain ⟨blanks, hraw⟩ := exists_trim raw
    refine ⟨before ++ openingBraces ++ raw.takeWhile isBlank, blanks ++ closingBraces ++ after, ?_,
      rfl⟩
    have hsource : raw ++ closingBraces =
        raw.takeWhile isBlank ++ trim raw ++ blanks ++ closingBraces := by
      rw [List.append_assoc (raw.takeWhile isBlank), ← hraw]
    simp only [segment, Segment.content, String.toList_ofList, source_directive]
    rw [List.append_assoc openingBraces, hsource]
    simp only [List.append_assoc]

/-- A text is cut into pieces that are its literal runs and directives. Its segments are those of
the pieces, each where the text before it says, with only the last layout kept and moved to the end.
A literal run that is cut on its own stays whole. -/
theorem segmentsOf_cut (source : String) :
    ∃ pieces, Cut source.toList pieces ∧ pieces.flatMap Piece.source = source.toList ∧
      segmentsOf source =
        (segmentsAfter [] pieces).filter (!·.isLayout) ++
          ((segmentsAfter [] pieces).filter Segment.isLayout).getLast?.toList ∧
      (∀ s ∈ segmentsOf source, ∃ before after,
        source.toList = before ++ s.content.toList ++ after ∧ utf8Size before = s.offset) ∧
      ∀ run line offset, .text run line offset ∈ segmentsOf source →
        segmentsOf run = [.text run 1 0] := by
  have hcut := cut_piecesOf source.toList
  refine ⟨_, hcut, hcut.flatMap_source, segmentsOf_eq source, fun s hs => ?_,
    fun run line offset hrun => ?_⟩
  · rw [segmentsOf_eq] at hs
    obtain ⟨these, p, those, hpieces, rfl⟩ := mem_segmentsAfter (mem_of_mem_layoutLast hs)
    obtain ⟨x, y, hslice, hsize⟩ :=
      p.segment_slice ([] ++ these.flatMap Piece.source) (those.flatMap Piece.source)
    refine ⟨x, y, ?_, hsize⟩
    rw [← hslice, ← hcut.flatMap_source, hpieces]
    simp
  · rw [segmentsOf_eq] at hrun
    obtain ⟨these, p, those, hpieces, hp⟩ := mem_segmentsAfter (mem_of_mem_layoutLast hrun)
    cases p with
    | directive raw => cases hp
    | literal cs =>
      obtain ⟨rfl, -, -⟩ := Segment.text.inj hp
      have hmem : .literal cs ∈ piecesOf source.toList := by simp [hpieces]
      obtain ⟨hne, hno⟩ := hcut.of_literal hmem
      have halone : piecesOf cs = [.literal cs] := by
        rw [piecesOf_of_noDirective hno, literalPiece, if_neg (by simpa using hne)]
      rw [segmentsOf_eq, String.toList_ofList, halone]
      rfl

end Templating
