import Templating.Text.Blank
import Templating.Text.Utf8

/-!
Segments of a template: literal runs and directives. A directive opens at two braces and ends at the
first two closing braces that no third one follows, with at least one character between. Of the
directives that name a layout only the last counts, and it comes after everything else.
-/
namespace Templating
open Text

/-- A literal run, or the text between the braces of a directive, as written. -/
inductive Piece where
  | literal (cs : List Char)
  | directive (raw : List Char)
  deriving DecidableEq, Repr

def Piece.source : Piece → List Char
  | literal cs => cs
  | directive raw => '\x7b' :: '\x7b' :: raw ++ ['\x7d', '\x7d']

/-- The text before the first two opening braces and the text after them. -/
def splitOpening? : List Char → Option (List Char × List Char)
  | [] => none
  | '\x7b' :: '\x7b' :: cs => some ([], cs)
  | c :: cs => (splitOpening? cs).map fun p => (c :: p.1, p.2)

/-- The text before the first two closing braces that no third one follows, and the text after them.
-/
def splitClosing? : List Char → Option (List Char × List Char)
  | [] => none
  | c :: cs =>
    if c = '\x7d' ∧ cs.head? = some '\x7d' ∧ (cs.drop 1).head? ≠ some '\x7d' then
      some ([], cs.drop 1)
    else (splitClosing? cs).map fun p => (c :: p.1, p.2)

def splitDirective? : List Char → Option (List Char × List Char)
  | [] => none
  | c :: cs => (splitClosing? cs).map fun p => (c :: p.1, p.2)

theorem splitOpening?_eq {cs before after : List Char}
    (h : splitOpening? cs = some (before, after)) : cs = before ++ '\x7b' :: '\x7b' :: after := by
  fun_induction splitOpening? cs generalizing before after with
  | case1 => simp at h
  | case2 cs => simp at h; simp [← h.1, ← h.2]
  | case3 c cs _ ih =>
    obtain ⟨⟨b, a⟩, hp, heq⟩ := Option.map_eq_some_iff.mp h
    simp only [Prod.mk.injEq] at heq
    rw [ih hp, ← heq.1, ← heq.2]
    rfl

theorem splitClosing?_eq {cs raw rest : List Char}
    (h : splitClosing? cs = some (raw, rest)) : cs = raw ++ '\x7d' :: '\x7d' :: rest := by
  fun_induction splitClosing? cs generalizing raw rest with
  | case1 => simp at h
  | case2 c cs hc =>
    obtain ⟨rfl, hd, -⟩ := hc
    cases cs with
    | nil => simp at hd
    | cons d ds =>
      simp at h hd
      simp [← h.1, ← h.2, hd]
  | case3 c cs _ ih =>
    obtain ⟨⟨b, a⟩, hp, heq⟩ := Option.map_eq_some_iff.mp h
    simp only [Prod.mk.injEq] at heq
    rw [ih hp, ← heq.1, ← heq.2]
    rfl

theorem splitDirective?_eq {cs raw rest : List Char}
    (h : splitDirective? cs = some (raw, rest)) : cs = raw ++ '\x7d' :: '\x7d' :: rest := by
  cases cs with
  | nil => simp [splitDirective?] at h
  | cons c cs =>
    obtain ⟨⟨b, a⟩, hp, heq⟩ := Option.map_eq_some_iff.mp h
    simp only [Prod.mk.injEq] at heq
    rw [splitClosing?_eq hp, ← heq.1, ← heq.2]
    rfl

def literalPiece (cs : List Char) : List Piece := if cs.isEmpty then [] else [.literal cs]

/-- Opening braces that nothing closes begin a literal run that lasts to the end. -/
def piecesOf (cs : List Char) : List Piece :=
  match _h : splitOpening? cs with
  | none => literalPiece cs
  | some (before, after) =>
    match _h' : splitDirective? after with
    | none => literalPiece cs
    | some (raw, rest) => literalPiece before ++ .directive raw :: piecesOf rest
termination_by cs.length
decreasing_by
  rw [splitOpening?_eq _h, splitDirective?_eq _h']
  simp
  omega

/-- A literal run, or the trimmed text of a directive. The line is that of its first character,
counting the braces, and the offset that of its text. -/
inductive Segment where
  | text (s : String) (line offset : Nat)
  | directive (s : String) (line offset : Nat)
  deriving DecidableEq, Repr

def located (line offset : Nat) : List Piece → List Segment
  | [] => []
  | .literal cs :: ps =>
    .text (String.ofList cs) line offset :: located (line + lineFeeds cs) (offset + utf8Size cs) ps
  | .directive raw :: ps =>
    .directive (String.ofList (trim raw)) line
        (offset + 2 + (utf8Size raw - utf8Size (trimStart raw)))
      :: located (line + lineFeeds raw) (offset + 4 + utf8Size raw) ps

def namesLayout (s : String) : Bool :=
  match "extends".toList.isPrefixOf? s.toList with
  | some rest => rest.head?.any isBlank
  | none => false

def Segment.isLayout : Segment → Bool
  | text _ _ _ => false
  | directive s _ _ => namesLayout s

/-- Leaves out all layout directives but the last and moves that one to the end. -/
def layoutLast (segments : List Segment) : List Segment :=
  segments.filter (!·.isLayout) ++ (segments.filter Segment.isLayout).getLast?.toList

def segmentsOf (source : String) : List Segment := layoutLast (located 1 0 (piecesOf source.toList))

end Templating
