import Mathlib
import Templating.Path
import Templating.Proofs.Occurrences

/-!
Resolved paths. A path stands for the segments that are left when empty ones and single dots are
passed over and two dots have taken away the segment before them. A resolved path is written from
such segments, so that resolving it again changes nothing. A relative path counts from the directory
of the template in which it is written, as long as the path of that template has a slash; otherwise
it counts from that path itself.
-/
namespace Templating.Path
open Text

theorem pieces_append (cs ds : List Char) :
    pieces ['/'] (cs ++ '/' :: ds) = pieces ['/'] cs ++ pieces ['/'] ds := by
  simp only [pieces_singleton, List.splitOn_append_cons_self]

/-- What can be a segment of a resolved path. -/
structure IsSegment (s : List Char) : Prop where
  nonempty : s ≠ []
  not_dot : s ≠ ['.']
  not_dots : s ≠ ['.', '.']
  slashFree : '/' ∉ s

theorem push_isSegment {stack : List (List Char)} {s : List Char} (hs : '/' ∉ s)
    (h : ∀ t ∈ stack, IsSegment t) : ∀ t ∈ push stack s, IsSegment t := by
  intro t ht
  unfold push at ht
  split_ifs at ht with hskip hdots
  · exact h t ht
  · exact h t (List.mem_of_mem_dropLast ht)
  · rcases List.mem_append.mp ht with ht | ht
    · exact h t ht
    · obtain ⟨hnil, hdot⟩ := not_or.mp hskip
      rw [List.mem_singleton.mp ht]
      exact ⟨hnil, hdot, hdots, hs⟩

theorem foldl_push_isSegment {stack ss : List (List Char)} (hss : ∀ s ∈ ss, '/' ∉ s)
    (h : ∀ t ∈ stack, IsSegment t) : ∀ t ∈ ss.foldl push stack, IsSegment t := by
  induction ss generalizing stack with
  | nil => exact h
  | cons s ss ih =>
    have hs := push_isSegment (hss s List.mem_cons_self) h
    exact ih (fun t ht => hss t (List.mem_cons_of_mem s ht)) hs

theorem isSegment_of_mem_segments {cs s : List Char} (h : s ∈ segments cs) : IsSegment s :=
  foldl_push_isSegment (fun _ => not_mem_of_mem_pieces) (fun _ ht => absurd ht List.not_mem_nil) s h

theorem IsSegment.push_eq {s : List Char} (h : IsSegment s) (stack : List (List Char)) :
    push stack s = stack ++ [s] := by
  rw [push, if_neg (not_or.mpr ⟨h.nonempty, h.not_dot⟩), if_neg h.not_dots]

/-- Segments of a resolved path are all kept. -/
theorem foldl_push_of_isSegment {ss : List (List Char)} (h : ∀ s ∈ ss, IsSegment s)
    (stack : List (List Char)) : ss.foldl push stack = stack ++ ss := by
  induction ss generalizing stack with
  | nil => exact (List.append_nil stack).symm
  | cons s ss ih =>
    have hs := (h s List.mem_cons_self).push_eq stack
    rw [List.foldl_cons, hs, ih fun t ht => h t (List.mem_cons_of_mem s ht), List.append_assoc,
      List.singleton_append]

/-- A path that goes on takes up the segments of its beginning. -/
theorem segments_append (cs ds : List Char) :
    segments (cs ++ '/' :: ds) = (pieces ['/'] ds).foldl push (segments cs) := by
  rw [segments, pieces_append, List.foldl_append, segments]

theorem segments_ofSegments {ss : List (List Char)} (h : ∀ s ∈ ss, IsSegment s) :
    segments (ofSegments ss) = ss := by
  have hstart : segments (ofSegments ss) = (pieces ['/'] (['/'].intercalate ss)).foldl push [] :=
    segments_append [] _
  rw [hstart, pieces_singleton]
  by_cases hss : ss = []
  · rw [hss]
    rfl
  · rw [List.splitOn_intercalate '/' (fun s hs => (h s hs).slashFree) hss,
      foldl_push_of_isSegment h, List.nil_append]

theorem segments_normalizeChars (cs : List Char) : segments (normalizeChars cs) = segments cs :=
  segments_ofSegments fun _ => isSegment_of_mem_segments

theorem normalizeChars_congr {cs ds : List Char} (h : segments cs = segments ds) (es : List Char) :
    normalizeChars (cs ++ '/' :: es) = normalizeChars (ds ++ '/' :: es) := by
  rw [normalizeChars, segments_append, h, ← segments_append, normalizeChars]

theorem normalizeChars_normalizeChars (cs : List Char) :
    normalizeChars (normalizeChars cs) = normalizeChars cs := by
  rw [normalizeChars, segments_normalizeChars, normalizeChars]

theorem toList_normalize (p : String) : (normalize p).toList = normalizeChars p.toList :=
  String.toList_ofList

theorem normalize_normalize (p : String) : normalize (normalize p) = normalize p := by
  rw [normalize, toList_normalize, normalizeChars_normalizeChars, normalize]

theorem toList_append_slash (p q : String) :
    (p ++ "/" ++ q).toList = p.toList ++ '/' :: q.toList := by
  simp

theorem normalize_append (p q : String) :
    normalize (p ++ "/" ++ q) = normalize (normalize p ++ "/" ++ q) := by
  have hsame := segments_normalizeChars p.toList
  rw [normalize, normalize, toList_append_slash, toList_append_slash, toList_normalize,
    normalizeChars_congr hsame]

/-- What is written for a path: a slash, and its segments with slashes between them. -/
theorem normalize_eq_intercalate (p : String) :
    ∃ ss : List String, normalize p = "/" ++ "/".intercalate ss ∧ ∀ s ∈ ss, IsSegment s.toList := by
  refine ⟨(segments p.toList).map String.ofList, ?_, fun s hs => ?_⟩
  · apply String.toList_inj.mp
    simp [toList_normalize, normalizeChars, ofSegments, String.toList_intercalate,
      Function.comp_def]
  · obtain ⟨cs, hcs, rfl⟩ := List.mem_map.mp hs
    rw [String.toList_ofList]
    exact isSegment_of_mem_segments hcs

theorem resolve_eq_normalize (p referencing : String) (root : Option String) :
    ∃ q, resolve p referencing root = normalize q := by
  unfold resolve
  split
  · exact ⟨p, rfl⟩
  · exact ⟨_, rfl⟩
  · exact ⟨String.ofList _, by rw [normalize, String.toList_ofList]⟩

theorem resolve_normalize (p referencing : String) (root : Option String) :
    resolve (normalize p) referencing root = normalize p := by
  have hslash : (normalize p).toList = '/' :: ['/'].intercalate (segments p.toList) :=
    toList_normalize p
  rw [resolve, hslash]
  exact normalize_normalize p

/-- A normal path is a slash and segments with single slashes between them, none of which is empty
or made of one or two dots. Normalizing a path again changes nothing, and so does normalizing its
beginning first. What a path resolves to is normal, and resolves to itself from any place. -/
theorem resolve_settles :
    (∀ p, ∃ ss : List String,
      normalize p = "/" ++ "/".intercalate ss ∧ ∀ s ∈ ss, IsSegment s.toList) ∧
    (∀ p, normalize (normalize p) = normalize p) ∧
    (∀ p q, normalize (p ++ "/" ++ q) = normalize (normalize p ++ "/" ++ q)) ∧
    (∀ p referencing root, normalize (resolve p referencing root) = resolve p referencing root ∧
      ∀ referencing' root',
        resolve (resolve p referencing root) referencing' root' = resolve p referencing root) := by
  refine ⟨normalize_eq_intercalate, normalize_normalize, normalize_append, ?_⟩
  intro p referencing root
  obtain ⟨q, hq⟩ := resolve_eq_normalize p referencing root
  rw [hq]
  exact ⟨normalize_normalize q, resolve_normalize q⟩

/-- Dots that climb above the root stop there. -/
example : normalize "views/./home//../../../icons/a.png" = "/icons/a.png" := by decide

/-- The path without its last segment, empty when it has only one. -/
def directory (path : String) : String :=
  String.ofList (['/'].intercalate (path.toList.splitOn '/').dropLast)

/-- A path without a slash stands for a place as a whole. -/
def base (referencing : String) : String :=
  if '/' ∈ referencing.toList then directory referencing else referencing

/-- A path that begins neither at the root nor with a tilde. -/
def IsRelative (p : String) : Prop := p.toList.head? ≠ some '/' ∧ p.toList.head? ≠ some '~'

theorem exists_last_slash {cs : List Char} (h : '/' ∈ cs) :
    ∃ before last, cs = before ++ '/' :: last ∧ '/' ∉ last := by
  obtain ⟨after, before, hsplit, hafter⟩ := List.eq_append_cons_of_mem (List.mem_reverse.mpr h)
  refine ⟨before.reverse, after.reverse, ?_, fun hmem => hafter (List.mem_reverse.mp hmem)⟩
  rw [← List.reverse_reverse cs, hsplit]
  simp

theorem directory_of_not_mem {path : String} (h : '/' ∉ path.toList) : directory path = "" := by
  rw [directory, List.splitOn_eq_singleton h]
  rfl

theorem toList_directory {path : String} {before last : List Char}
    (hpath : path.toList = before ++ '/' :: last) (hlast : '/' ∉ last) :
    (directory path).toList = before := by
  rw [directory, String.toList_ofList, hpath, List.splitOn_append_cons_self,
    List.splitOn_eq_singleton hlast, List.dropLast_concat, List.intercalate_splitOn]

theorem parentChars_of_not_mem {cs : List Char} (h : '/' ∉ cs) : parentChars cs = cs := by
  have hdrop : cs.reverse.dropWhile (· != '/') = [] :=
    List.dropWhile_eq_nil_iff.mpr fun c hc => bne_iff_ne.mpr fun heq =>
      h (heq ▸ List.mem_reverse.mp hc)
  unfold parentChars
  split
  next rest hrev => exact absurd (List.mem_reverse.mp (hrev ▸ List.mem_cons_self)) h
  next => rw [hdrop]

theorem parentChars_append {before last : List Char} (hne : last ≠ []) (hlast : '/' ∉ last) :
    parentChars (before ++ '/' :: last) = before := by
  have hrev : (before ++ '/' :: last).reverse = last.reverse ++ '/' :: before.reverse := by simp
  have hbefore : ∀ c ∈ last.reverse, (c != '/') = true := fun c hc => bne_iff_ne.mpr fun heq =>
    hlast (heq ▸ List.mem_reverse.mp hc)
  unfold parentChars
  rw [hrev]
  split
  next rest hcons =>
    obtain ⟨c, ds, hds⟩ := List.exists_cons_of_ne_nil (List.reverse_ne_nil_iff.mpr hne)
    rw [hds, List.cons_append] at hcons
    have hc := hbefore c (hds ▸ List.mem_cons_self)
    rw [(List.cons.inj hcons).1] at hc
    cases hc
  next =>
    rw [List.dropWhile_append_of_pos hbefore]
    exact List.reverse_reverse before

/-- A slash at the end says nothing. -/
theorem segments_append_slash (cs : List Char) : segments (cs ++ ['/']) = segments cs :=
  segments_append cs []

theorem normalize_append_slash (p : String) : normalize (p ++ "/" ++ "") = normalize p := by
  simp [normalize, normalizeChars, segments_append_slash]

theorem segments_dropWhile (cs : List Char) :
    segments (cs.dropWhile (· == '/')).reverse = segments cs.reverse := by
  induction cs with
  | nil => rfl
  | cons c cs ih =>
    rw [List.dropWhile_cons]
    split_ifs with hc
    · rw [ih, List.reverse_cons, beq_iff_eq.mp hc, segments_append_slash]
    · rfl

/-- The parent of a path with a slash is its directory, whatever slashes it ends in. -/
theorem segments_parentChars {before last : List Char} (hlast : '/' ∉ last) :
    segments (parentChars (before ++ '/' :: last)) = segments before := by
  by_cases hne : last = []
  · have hparent : parentChars (before ++ ['/']) =
        (before.reverse.dropWhile (· == '/')).reverse := by
      rw [parentChars, List.reverse_append]
      rfl
    rw [hne, hparent, segments_dropWhile, List.reverse_reverse]
  · rw [parentChars_append hne hlast]

theorem segments_parentChars_eq (referencing : String) :
    segments (parentChars referencing.toList) = segments (base referencing).toList := by
  by_cases h : '/' ∈ referencing.toList
  · obtain ⟨before, last, hpath, hlast⟩ := exists_last_slash h
    rw [base, if_pos h, toList_directory hpath hlast, hpath, segments_parentChars hlast]
  · rw [base, if_neg h, parentChars_of_not_mem h]

theorem resolve_of_isRelative {p : String} (h : IsRelative p) (referencing : String)
    (root : Option String) :
    resolve p referencing root = normalize (base referencing ++ "/" ++ p) := by
  have hchars : resolve p referencing root =
      String.ofList (normalizeChars (parentChars referencing.toList ++ '/' :: p.toList)) := by
    unfold resolve
    split
    next heq => exact absurd (congrArg List.head? heq) h.1
    next heq => exact absurd (congrArg List.head? heq) h.2
    next => rfl
  rw [hchars, normalize, toList_append_slash,
    normalizeChars_congr (segments_parentChars_eq referencing)]

/-- A relative path counts from the directory of the template, or from its path when that has no
slash. The two are one place just when there is a slash or the path stands for the root. -/
theorem resolve_relative (referencing : String) (root : Option String) :
    (∀ p, IsRelative p →
      resolve p referencing root = normalize (base referencing ++ "/" ++ p)) ∧
    ((∀ p, IsRelative p →
      resolve p referencing root = normalize (directory referencing ++ "/" ++ p)) ↔
        '/' ∈ referencing.toList ∨ normalize referencing = "/") := by
  refine ⟨fun p h => resolve_of_isRelative h referencing root, ?_⟩
  by_cases hslash : '/' ∈ referencing.toList
  · have hbase : base referencing = directory referencing := if_pos hslash
    refine iff_of_true (fun p h => ?_) (.inl hslash)
    rw [resolve_of_isRelative h, hbase]
  · have hbase : base referencing = referencing := if_neg hslash
    have hroot : normalize "" = "/" := rfl
    rw [directory_of_not_mem hslash]
    constructor
    · intro h
      have hrelative : IsRelative "" := ⟨by decide, by decide⟩
      have hempty := h "" hrelative
      rw [resolve_of_isRelative hrelative, hbase, normalize_append_slash,
        normalize_append_slash, hroot] at hempty
      exact .inr hempty
    · intro h p hp
      rw [resolve_of_isRelative hp, hbase, normalize_append referencing, h.resolve_left hslash,
        normalize_append "", hroot]

/-- A path in another directory, and one written in a template whose path has no slash. -/
theorem resolve_relative_header :
    IsRelative "../header" ∧ IsRelative "header" ∧
      resolve "../header" "/views/page" none = normalize ("/views" ++ "/" ++ "../header") ∧
      resolve "header" "page" none = normalize ("page" ++ "/" ++ "header") := by
  have hup : IsRelative "../header" := ⟨by decide, by decide⟩
  have hbeside : IsRelative "header" := ⟨by decide, by decide⟩
  exact ⟨hup, hbeside, (resolve_relative "/views/page" none).1 _ hup,
    (resolve_relative "page" none).1 _ hbeside⟩

/-- A template whose path has no slash is taken for a directory. -/
theorem resolve_from_page :
    directory "page" = "" ∧ resolve "header" "page" none = "/page/header" ∧
      normalize (directory "page" ++ "/" ++ "header") = "/header" := by
  decide

end Templating.Path
