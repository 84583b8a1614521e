import Mathlib.Data.List.TakeWhile
import Mathlib.Data.Prod.Lex
import Mathlib.Order.Bounds.Basic
import Templating.Proofs.ErrorPlaces
import Templating.Template.Diagnostic

/-!
Lines of a source, and the locations of its places. A text is taken apart at its line feeds, and
what the counters of lines and columns and the reader of lines answer is read off its parts. A
location leads back to the place it was made for, and later places have later locations.
-/
namespace Templating
open Text

/-- The characters taken end at the last place that is not after the offset, nor after the end of
the text. -/
theorem takeBytes_isGreatest (offset : Nat) (cs : List Char) :
    IsGreatest {place | Boundary cs place ∧ place ≤ min offset (utf8Size cs)}
      (utf8Size (takeBytes offset cs)) := by
  obtain ⟨more, hmore⟩ := takeBytes_isPrefix offset cs
  have hsize : utf8Size (takeBytes offset cs) + utf8Size more = utf8Size cs := by
    rw [← utf8Size_append, hmore]
  constructor
  · refine ⟨⟨_, takeBytes_isPrefix offset cs, rfl⟩, le_min (utf8Size_takeBytes_le offset cs) ?_⟩
    omega
  · rintro place ⟨⟨before, hbefore, rfl⟩, hle⟩
    obtain ⟨rest, hrest⟩ := prefix_takeBytes hbefore (hle.trans (min_le_left _ _))
    rw [← hrest, utf8Size_append]
    omega

def withFeeds (lines : List (List Char)) : List Char := lines.flatMap (· ++ ['\n'])

@[simp] theorem withFeeds_nil : withFeeds [] = [] := rfl

@[simp] theorem withFeeds_cons (line : List Char) (lines : List (List Char)) :
    withFeeds (line :: lines) = line ++ '\n' :: withFeeds lines := by
  simp [withFeeds]

/-- Whole lines, and what stands after the last line feed. -/
structure Lined (cs : List Char) (lines : List (List Char)) (last : List Char) : Prop where
  eq : cs = withFeeds lines ++ last
  lines_flat : ∀ line ∈ lines, '\n' ∉ line
  last_flat : '\n' ∉ last

theorem exists_lined (cs : List Char) : ∃ lines last, Lined cs lines last := by
  induction cs with
  | nil => exact ⟨[], [], rfl, by simp, by simp⟩
  | cons c cs ih =>
    obtain ⟨lines, last, rfl, hlines, hlast⟩ := ih
    by_cases hc : c = '\n'
    · subst hc
      exact ⟨[] :: lines, last, by simp, by simpa using hlines, hlast⟩
    · cases lines with
      | nil => exact ⟨[], c :: last, by simp, by simp, by simp [Ne.symm hc, hlast]⟩
      | cons line lines =>
        refine ⟨(c :: line) :: lines, last, by simp, ?_, hlast⟩
        simpa [Ne.symm hc] using hlines

theorem splitOn_withFeeds_append {lines : List (List Char)} (h : ∀ line ∈ lines, '\n' ∉ line)
    (rest : List Char) : (withFeeds lines ++ rest).splitOn '\n' = lines ++ rest.splitOn '\n' := by
  induction lines with
  | nil => simp
  | cons line lines ih =>
    obtain ⟨hline, hlines⟩ := List.forall_mem_cons.mp h
    simp [List.splitOn_append_cons_self_of_not_mem hline, ih hlines]

theorem bne_feed_of_flat {cs : List Char} (h : '\n' ∉ cs) : ∀ c ∈ cs, (c != '\n') = true := by
  intro c hc
  simpa using ne_of_mem_of_not_mem hc h

theorem lineFeeds_append (before after : List Char) :
    lineFeeds (before ++ after) = lineFeeds before + lineFeeds after := List.count_append

theorem lineFeeds_feed_cons (cs : List Char) : lineFeeds ('\n' :: cs) = lineFeeds cs + 1 :=
  List.count_cons_self

theorem lineFeeds_flat {cs : List Char} (h : '\n' ∉ cs) : lineFeeds cs = 0 :=
  List.count_eq_zero.mpr h

theorem lastLine_append_feed (before after : List Char) :
    lastLine (before ++ '\n' :: after) = lastLine after := by
  simp only [lastLine, List.reverse_append, List.reverse_cons, List.append_assoc,
    List.takeWhile_append]
  split
  · rename_i h
    simp [(List.takeWhile_prefix (· != '\n')).eq_of_length h]
  · rfl

theorem lastLine_append_flat (before : List Char) {after : List Char} (h : '\n' ∉ after) :
    lastLine (before ++ after) = lastLine before ++ after := by
  have hafter : '\n' ∉ after.reverse := by simpa using h
  simp [lastLine, List.takeWhile_append_of_pos (bne_feed_of_flat hafter)]

namespace Lined

variable {cs last : List Char} {lines : List (List Char)}

theorem lineFeeds_eq (h : Lined cs lines last) : lineFeeds cs = lines.length := by
  obtain ⟨rfl, hlines, hlast⟩ := h
  induction lines with
  | nil => simpa using lineFeeds_flat hlast
  | cons line lines ih =>
    obtain ⟨hline, hrest⟩ := List.forall_mem_cons.mp hlines
    simp [lineFeeds_append, lineFeeds_flat hline, lineFeeds_feed_cons, ← ih hrest]

theorem lastLine_eq (h : Lined cs lines last) : lastLine cs = last := by
  obtain ⟨rfl, hlines, hlast⟩ := h
  induction lines with
  | nil => simpa [lastLine] using lastLine_append_flat [] hlast
  | cons line lines ih =>
    rw [withFeeds_cons, List.append_assoc, List.cons_append, lastLine_append_feed]
    exact ih (List.forall_mem_cons.mp hlines).2

end Lined

/-- Locations are ordered as they are read: by the line, and on one line by the column. -/
instance : Preorder Location := Preorder.lift fun l => toLex (l.line, l.column)

namespace Location

variable {source : String} {offset : Nat} {lines : List (List Char)} {last : List Char}

theorem le_iff {l m : Location} :
    l ≤ m ↔ l.line < m.line ∨ l.line = m.line ∧ l.column ≤ m.column := Prod.Lex.toLex_le_toLex

/-- The place, in bytes, that has so many lines before it, and so many characters before it on its
line. -/
def place (source : String) (l : Location) : Nat :=
  let before := withFeeds ((source.toList.splitOn '\n').take (l.line - 1))
  utf8Size (source.toList.take (before.length + (l.column - 1)))

theorem ofOffset_eq (h : Lined (takeBytes offset source.toList) lines last) :
    ofOffset source offset = ⟨lines.length + 1, last.length + 1⟩ := by
  rw [ofOffset, h.lineFeeds_eq, h.lastLine_eq]

/-- The location of an offset leads back to it, or to the place that it is moved to. -/
theorem place_ofOffset (source : String) (offset : Nat) :
    (ofOffset source offset).place source = utf8Size (takeBytes offset source.toList) := by
  obtain ⟨lines, last, hlined⟩ := exists_lined (takeBytes offset source.toList)
  obtain ⟨more, hmore⟩ := takeBytes_isPrefix offset source.toList
  have hsource : source.toList = withFeeds lines ++ (last ++ more) := by
    rw [← hmore, hlined.eq, List.append_assoc]
  have hlines : (source.toList.splitOn '\n').take lines.length = lines := by
    rw [hsource, splitOn_withFeeds_append hlined.lines_flat, List.take_left]
  have htake : source.toList.take ((withFeeds lines).length + last.length) =
      withFeeds lines ++ last := by
    rw [hsource, ← List.append_assoc, ← List.length_append, List.take_left]
  rw [ofOffset_eq hlined, place, Nat.add_sub_cancel, Nat.add_sub_cancel, hlines, htake, hlined.eq]

theorem ofOffset_monotone (source : String) : Monotone (ofOffset source) := by
  intro m n hle
  obtain ⟨more, hmore⟩ := takeBytes_mono hle source.toList
  rw [le_iff, ofOffset, ofOffset, ← hmore, lineFeeds_append]
  by_cases hfeed : '\n' ∈ more
  · left
    have hcount : 0 < lineFeeds more := List.count_pos_iff.mpr hfeed
    simp only
    omega
  · right
    simp [lineFeeds_flat hfeed, lastLine_append_flat _ hfeed]

end Location

/-- What follows the text of a line: nothing, or its ending and further text. A carriage return
belongs to the ending if a line feed follows it. -/
inductive LineEnd (text : List Char) : List Char → Prop
  | nothing : LineEnd text []
  | feed (after : List Char) (h : text.getLast? ≠ some '\r') : LineEnd text ('\n' :: after)
  | pair (after : List Char) : LineEnd text ('\r' :: '\n' :: after)

theorem exists_lineEnd (cs : List Char) :
    ∃ text rest, cs = text ++ rest ∧ '\n' ∉ text ∧ LineEnd text rest := by
  by_cases hfeed : '\n' ∈ cs
  · obtain ⟨line, after, rfl, hflat⟩ := List.eq_append_cons_of_mem hfeed
    by_cases hreturn : line.getLast? = some '\r'
    · obtain ⟨text, rfl⟩ := List.getLast?_eq_some_iff.mp hreturn
      refine ⟨text, '\r' :: '\n' :: after, by simp, ?_, .pair after⟩
      simpa using hflat
    · exact ⟨line, '\n' :: after, rfl, hflat, .feed after hreturn⟩
  · exact ⟨cs, [], by simp, hfeed, .nothing⟩

theorem splitLine_flat {cs : List Char} (h : '\n' ∉ cs) : splitLine cs = (cs, none) := by
  have hflat := bne_feed_of_flat h
  simp only [splitLine, List.takeWhile_eq_self_iff.mpr hflat, List.dropWhile_eq_nil_iff.mpr hflat]

theorem splitLine_feed {line : List Char} (h : '\n' ∉ line) (rest : List Char) :
    splitLine (line ++ '\n' :: rest) =
      (if line.getLast? = some '\r' then line.dropLast else line, some rest) := by
  have hflat := bne_feed_of_flat h
  simp [splitLine, List.takeWhile_append_of_pos hflat, List.dropWhile_append_of_pos hflat]

theorem splitLine_append {text rest : List Char} (h : '\n' ∉ text) (hend : LineEnd text rest) :
    (splitLine (text ++ rest)).1 = text := by
  cases hend with
  | nothing => simp [splitLine_flat h]
  | feed after hreturn => simp [splitLine_feed h, hreturn]
  | pair after =>
    have hline : '\n' ∉ text ++ ['\r'] := by simpa using h
    have hsplit := splitLine_feed hline after
    rw [List.append_assoc] at hsplit
    simpa using congrArg Prod.fst hsplit

theorem lineAt_withFeeds_append {lines : List (List Char)} (h : ∀ line ∈ lines, '\n' ∉ line)
    (rest : List Char) : lineAt lines.length (withFeeds lines ++ rest) = (splitLine rest).1 := by
  induction lines with
  | nil => rfl
  | cons line lines ih =>
    obtain ⟨hline, hlines⟩ := List.forall_mem_cons.mp h
    simp [lineAt, splitLine_feed hline, ih hlines]

/-- The text of the line after the given ones, without its ending. -/
structure LineAfter (source : List Char) (lines : List (List Char)) (text : List Char) : Prop where
  lines_flat : ∀ line ∈ lines, '\n' ∉ line
  text_flat : '\n' ∉ text
  cut : ∃ rest, source = withFeeds lines ++ text ++ rest ∧ LineEnd text rest

/-- The reader of lines finds this text and no other. -/
theorem LineAfter.lineAt_eq {source text : List Char} {lines : List (List Char)}
    (h : LineAfter source lines text) : lineAt lines.length source = text := by
  obtain ⟨hlines, htext, rest, rfl, hend⟩ := h
  rw [List.append_assoc, lineAt_withFeeds_append hlines, splitLine_append htext hend]

end Templating
