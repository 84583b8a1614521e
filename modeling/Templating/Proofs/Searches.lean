import Templating.Proofs.Occurrences
import Templating.Proofs.TextLengths
import Templating.Proofs.Traversals
import Templating.Proofs.WholeDoubles

/-!
Searches in a text. Whether one text is found in another, where first and where last, and whether it
begins or ends it, is what the parts of the text say that are as long; indices and lengths count
characters in all of these.
-/
namespace Templating
open Decimal Text

variable {s p : String} {start stop k : Nat}

theorem relative_natCast (k length : Nat) : relative k length = min k length := rfl

namespace StringMethod

theorem Answers.unique {name : String} {args : List Value} {v w : Value}
    (h : Answers s name args (.ok v)) (h' : Answers s name args (.ok w)) : v = w := by
  have heq := (h Unit (fun _ _ => pure .undefined) ⟨0, 0, ()⟩).symm.trans
    (h' Unit (fun _ _ => pure .undefined) ⟨0, 0, ()⟩)
  exact Option.some.inj (Except.ok.inj (congrArg Prod.fst heq))

def SliceIs (s : String) (start stop : Nat) (p : String) : Prop :=
  ∃ part, Answers s "slice" [.nat start, .nat stop] (.ok part) ∧ part.strictEq (.string p) = true

theorem sliceIs_iff : SliceIs s start stop p ↔
    slice s.toList [.nat start, .nat stop] = p.toList := by
  have hsame (cs : List Char) : (ofChars cs).strictEq (.string p) = true ↔ cs = p.toList := by
    rw [ofChars, Value.strictEq, beq_iff_eq, ← String.toList_inj, String.toList_ofList]
  rw [← hsame]
  constructor
  · rintro ⟨part, hanswer, hpart⟩
    rwa [hanswer.unique (answers_slice s _)] at hpart
  · exact fun h => ⟨_, answers_slice s _, h⟩

theorem slice_eq (cs : List Char) (args : List Value) :
    slice cs args = between cs (sliceBounds args cs.length).1 (sliceBounds args cs.length).2 := rfl

theorem sliceBounds_fst {length : Nat} (hstart : start ≤ length) (fits : length < 2 ^ 53)
    (args : List Value) : (sliceBounds (.nat start :: args) length).1 = start := by
  change relative (whole (.nat start) 0) length = start
  rw [whole_nat (by omega), relative_natCast, Nat.min_eq_left hstart]

theorem sliceBounds_nat {length : Nat} (hstart : start ≤ stop) (hstop : stop ≤ length)
    (fits : length < 2 ^ 53) : sliceBounds [.nat start, .nat stop] length = (start, stop) := by
  have hsecond : relative (whole (.nat stop) length) length = stop := by
    rw [whole_nat (by omega), relative_natCast, Nat.min_eq_left hstop]
  refine Prod.ext (sliceBounds_fst (by omega) fits _) ?_
  change max (relative (whole (.nat stop) length) length) _ = stop
  rw [hsecond]
  exact Nat.max_eq_left ((sliceBounds_fst (by omega) fits _).trans_le hstart)

/-- A text begins at an index when the part of its length from there is the text. -/
theorem slice_eq_iff {q cs : List Char} (fits : cs.length < 2 ^ 53) (hk : k ≤ cs.length) :
    slice cs [.nat k, .nat (k + q.length)] = q ↔ BeginsAt q cs k := by
  by_cases hstop : k + q.length ≤ cs.length
  · rw [slice_eq, sliceBounds_nat (Nat.le_add_right k _) hstop fits, beginsAt_iff_between,
      and_iff_right hk]
  · refine iff_of_false (fun h => ?_) fun h => hstop h.length_le
    have hlength := congrArg List.length h
    have hwithin := (sliceBounds_le [.nat k, .nat (k + q.length)] cs.length).2
    rw [slice_eq, between, List.length_drop, List.length_take, sliceBounds_fst hk fits] at hlength
    omega

theorem sliceIs_iff_beginsAt (fits : s.length < 2 ^ 53) (hk : k ≤ s.length) :
    SliceIs s k (k + p.length) p ↔ BeginsAt p.toList s.toList k := by
  rw [sliceIs_iff, ← String.length_toList, slice_eq_iff]
  · rwa [String.length_toList]
  · rwa [String.length_toList]

/-- The answers of all searches for a text, by the indices where it stands. -/
structure SearchedAs (s p : String) (stands : Nat → Prop) (found starts ends : Bool)
    (first last : Value) : Prop where
  includes : Answers s "includes" [.string p] (.ok (.bool found))
  indexOf : Answers s "indexOf" [.string p] (.ok first)
  lastIndexOf : Answers s "lastIndexOf" [.string p] (.ok last)
  startsWith : Answers s "startsWith" [.string p] (.ok (.bool starts))
  endsWith : Answers s "endsWith" [.string p] (.ok (.bool ends))
  found_iff_first : found = true ↔ first.strictEq (.number (-1)) = false
  found_iff_last : found = true ↔ last.strictEq (.number (-1)) = false
  first_least : first.strictEq (.number (-1)) = false →
    ∃ i, first = .nat i ∧ IsLeast {k | k ≤ s.length ∧ stands k} i
  last_greatest : last.strictEq (.number (-1)) = false →
    ∃ j, last = .nat j ∧ IsGreatest {k | k ≤ s.length ∧ stands k} j
  starts_iff : starts = true ↔ stands 0
  ends_iff : ends = true ↔ p.length ≤ s.length ∧ stands (s.length - p.length)

/-- Only what holds of the indices within the text counts. -/
theorem SearchedAs.congr {stands stands' : Nat → Prop} {found starts ends : Bool}
    {first last : Value} (h : SearchedAs s p stands found starts ends first last)
    (hsame : ∀ k ≤ s.length, stands' k ↔ stands k) :
    SearchedAs s p stands' found starts ends first last := by
  have hset : {k | k ≤ s.length ∧ stands' k} = {k | k ≤ s.length ∧ stands k} :=
    Set.ext fun k => and_congr_right (hsame k)
  exact { h with
    first_least := hset ▸ h.first_least
    last_greatest := hset ▸ h.last_greatest
    starts_iff := h.starts_iff.trans (hsame 0 (Nat.zero_le _)).symm
    ends_iff := h.ends_iff.trans (and_congr_right fun _ => (hsame _ (Nat.sub_le _ _)).symm) }

theorem strictEq_index (found : Option Nat) :
    (index found).strictEq (.number (-1)) = false ↔ found.isSome = true := by
  cases found with
  | none => decide
  | some i => exact iff_of_true (ofNat_beq_negOne i) rfl

theorem isSuffixOf_iff (p cs : List Char) : p.isSuffixOf cs = true ↔
    p.length ≤ cs.length ∧ BeginsAt p cs (cs.length - p.length) := by
  rw [List.isSuffixOf_iff_suffix]
  constructor
  · intro h
    refine ⟨h.length_le, Nat.sub_le _ _, ?_⟩
    rw [← List.suffix_iff_eq_drop.mp h]
  · rintro ⟨hle, -, hprefix⟩
    have hlength : p.length = (cs.drop (cs.length - p.length)).length := by
      rw [List.length_drop]
      omega
    rw [List.suffix_iff_eq_drop]
    exact hprefix.eq_of_length hlength

theorem setOf_within (p cs : List Char) :
    {k | k ≤ cs.length ∧ BeginsAt p cs k} = {k | BeginsAt p cs k} :=
  Set.ext fun _ => and_iff_right_of_imp BeginsAt.within

theorem searchedAs_beginsAt (s p : String) :
    SearchedAs s p (BeginsAt p.toList s.toList) (occurs p.toList s.toList)
      (p.toList.isPrefixOf s.toList) (p.toList.isSuffixOf s.toList)
      (index (firstIndex? p.toList s.toList)) (index (lastIndex? p.toList s.toList)) where
  includes _ _ _ := rfl
  indexOf _ _ _ := rfl
  lastIndexOf _ _ _ := rfl
  startsWith _ _ _ := rfl
  endsWith _ _ _ := rfl
  found_iff_first := by rw [strictEq_index, occurs_eq_isSome_firstIndex?]
  found_iff_last := by rw [strictEq_index, occurs_iff, isSome_lastIndex?_iff]
  first_least := by
    rw [strictEq_index, ← String.length_toList, setOf_within]
    intro hsome
    obtain ⟨i, hi⟩ := Option.isSome_iff_exists.mp hsome
    exact ⟨i, by rw [hi, index], firstIndex?_isLeast hi⟩
  last_greatest := by
    rw [strictEq_index, ← String.length_toList, setOf_within]
    intro hsome
    obtain ⟨j, hj⟩ := Option.isSome_iff_exists.mp hsome
    exact ⟨j, by rw [hj, index], lastIndex?_isGreatest hj⟩
  starts_iff := by rw [beginsAt_zero, List.isPrefixOf_iff_prefix]
  ends_iff := by rw [isSuffixOf_iff, String.length_toList, String.length_toList]

/-- The characters that are read one by one are the parts of one character. -/
theorem char_of_slice {i : Nat} (fits : s.length < 2 ^ 53) (hi : i < s.length) :
    ∃ c, (Value.string s).property (toString i) = .ok (.string c) ∧ SliceIs s i (i + 1) c := by
  have hlist : i < s.toList.length := String.length_toList ▸ hi
  have hitem : (Value.chars s)[i]? = some (.char s.toList[i]) := by
    simp [Value.chars, hlist]
  have hword : i < 2 ^ 64 := by omega
  refine ⟨String.singleton s.toList[i], ?_, ?_⟩
  · rw [Value.property, if_neg ((Value.Spells.refl _).ne_length hword),
      Value.itemAt?_toString hword hitem]
    rfl
  · have hbegins : BeginsAt (String.singleton s.toList[i]).toList s.toList i := by
      refine ⟨hlist.le, ?_⟩
      rw [List.drop_eq_getElem_cons hlist, String.toList_singleton]
      exact ⟨_, rfl⟩
    have hslice := (sliceIs_iff_beginsAt fits hi.le).mpr hbegins
    rwa [String.length_singleton] at hslice

/-- All searches for a text agree on where its characters stand. These are the indices from which
the part of its length is the text, as far as numbers count them exactly, and the characters are
those that are counted and read one by one. -/
theorem searches_agree (s p : String) :
    ∃ found starts ends first last,
      SearchedAs s p (BeginsAt p.toList s.toList) found starts ends first last ∧
      (Value.string s).property "length" = .ok (.nat s.length) ∧
      (s.length < 2 ^ 53 →
        SearchedAs s p (fun k => SliceIs s k (k + p.length) p) found starts ends first last ∧
        ∀ i < s.length, ∃ c, (Value.string s).property (toString i) = .ok (.string c) ∧
          SliceIs s i (i + 1) c) := by
  have hbegins := searchedAs_beginsAt s p
  refine ⟨_, _, _, _, _, hbegins, rfl, fun fits => ⟨?_, fun i hi => char_of_slice fits hi⟩⟩
  exact hbegins.congr fun k hk => sliceIs_iff_beginsAt fits hk

/-- A text with a character of two bytes, which stands twice in the other. -/
theorem searches_for_accents :
    "né-né".length < 2 ^ 53 ∧ 1 < "né-né".length ∧
      ∃ first last, Answers "né-né" "indexOf" [.string "né"] (.ok first) ∧
        Answers "né-né" "lastIndexOf" [.string "né"] (.ok last) ∧
        first.strictEq (.number (-1)) = false ∧ last.strictEq (.number (-1)) = false ∧
        (∃ i, first = .nat i ∧ IsLeast {k | k ≤ 5 ∧ SliceIs "né-né" k (k + 2) "né"} i) ∧
        (∃ j, last = .nat j ∧ IsGreatest {k | k ≤ 5 ∧ SliceIs "né-né" k (k + 2) "né"} j) ∧
        ∃ c, (Value.string "né-né").property (toString 1) = .ok (.string c) ∧
          SliceIs "né-né" 1 2 c := by
  have hfits : "né-né".length < 2 ^ 53 := by decide
  have hwithin : 1 < "né-né".length := by decide
  obtain ⟨found, starts, ends, first, last, -, -, hslices⟩ := searches_agree "né-né" "né"
  obtain ⟨hsearched, hchars⟩ := hslices hfits
  have hfound : found = true := by
    have hanswer : Answers "né-né" "includes" [.string "né"] (.ok (.bool true)) :=
      fun _ _ _ => rfl
    exact Value.bool.inj (hsearched.includes.unique hanswer)
  have hfirst := hsearched.found_iff_first.mp hfound
  have hlast := hsearched.found_iff_last.mp hfound
  exact ⟨hfits, hwithin, first, last, hsearched.indexOf, hsearched.lastIndexOf, hfirst, hlast,
    hsearched.first_least hfirst, hsearched.last_greatest hlast, hchars 1 hwithin⟩

end StringMethod
end Templating
