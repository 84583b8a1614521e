import Templating.Eval.Method
import Templating.Eval.Operator
import Templating.Proofs.Doubles

/-!
Positions and lengths in the methods of texts. Whatever the arguments come to as numbers, a part is
cut between two positions of the text, and no sum of a position and a length leaves the signed words
of 64 bits. Padding and repeating give a text of the length that is asked for, or fail when it would
be a new one that is too long.
-/
namespace Templating
open Decimal

def FitsWord (i : Int) : Prop := -2 ^ 63 ≤ i ∧ i < 2 ^ 63

theorem whole_fitsWord (v : Value) {default : Int} (h : FitsWord default) :
    FitsWord (whole v default) := by
  unfold whole
  split_ifs
  · exact h
  · obtain ⟨hlow, hhigh⟩ : -0x8000000000000000 ≤ toIntWithin _ _ v.toNumber ∧
        toIntWithin _ _ v.toNumber ≤ 0x7FFFFFFFFFFFFFFF := toIntWithin_mem (by decide) v.toNumber
    exact ⟨by omega, by omega⟩

theorem whole_zero : whole (.number 0) 0 = 0 := by
  have hzero : Binary.ofFloat? 0 = some ⟨false, 0, minExponent⟩ := by decide
  have htruncate : (⟨false, 0, minExponent⟩ : Binary).truncate = 0 := Binary.truncate_eq_zero rfl
  simp only [whole, Value.isUndefined, Value.toNumber, toIntWithin, hzero, htruncate]
  rfl

/-- The whole part of a number, 0 for one that is negative or not finite. -/
def wholePart (x : Float) : Nat := ((Binary.ofFloat? x).map fun b => b.truncate.toNat).getD 0

theorem toNat_toIntWithin {x : Float} (hfinite : x.isInf = false) (high : Nat) :
    (toIntWithin 0 high x).toNat = min high (wholePart x) := by
  cases hx : Binary.ofFloat? x with
  | some b =>
    simp only [toIntWithin, wholePart, hx, Option.map_some, Option.getD_some]
    omega
  | none =>
    have hinfinity : infinity.isInf = true := by decide
    have hminus : (-infinity).isInf = true := by decide
    have hnan : ¬nan > 0 := by decide
    rcases ofFloat?_eq_none hx with rfl | rfl | rfl
    · exact absurd hfinite (by simp [hinfinity])
    · exact absurd hfinite (by simp [hminus])
    · simp [toIntWithin, wholePart, hx, hnan]

theorem length_flatten_replicate {α : Type} (n : Nat) (l : List α) :
    (List.replicate n l).flatten.length = n * l.length := by
  simp

theorem getElem?_flatten_replicate {α : Type} {n i : Nat} {l : List α} (h : i < n * l.length) :
    (List.replicate n l).flatten[i]? = l[i % l.length]? := by
  induction n generalizing i with
  | zero => simp at h
  | succ n ih =>
    rw [List.replicate_succ, List.flatten_cons]
    by_cases hfirst : i < l.length
    · rw [List.getElem?_append_left hfirst, Nat.mod_eq_of_lt hfirst]
    · have hle : l.length ≤ i := Nat.le_of_not_lt hfirst
      have hrest : i - l.length < n * l.length := by
        rw [Nat.succ_mul] at h
        omega
      rw [List.getElem?_append_right hle, ih hrest, ← Nat.mod_eq_sub_mod hle]

namespace StringMethod

variable {s : String} {args : List Value}

/-- The outcome of a method, whatever the functions do that it might call; what lasts is left as it
is. -/
def Answers (s name : String) (args : List Value) (outcome : Except EvalError Value) : Prop :=
  ∀ (σ : Type) (call : Caller σ) (st : EvalState σ),
    (callMethod call (.string s) name args).run.run st = (outcome.map some, st)

/-- A method that builds a value of what may fail to be found. -/
theorem run_built {σ α : Type} (found : Except EvalError α) (build : α → Value)
    (st : EvalState σ) :
    (do return some (build (← (liftM found : EvalM σ α))) : EvalM σ (Option Value)).run.run st =
      ((found.map build).map some, st) := by
  cases found with
  | error e => rfl
  | ok a => rfl

structure Cut (s : String) (bounds : Nat × Nat) (part : String) : Prop where
  ordered : bounds.1 ≤ bounds.2
  within : bounds.2 ≤ s.length
  splits : ∃ before after, s = before ++ part ++ after ∧ before.length = bounds.1
  length : part.length = bounds.2 - bounds.1

theorem between_splits {α : Type} (l : List α) {start stop : Nat} (h : start ≤ stop) :
    l = l.take start ++ between l start stop ++ l.drop stop := by
  have htake : l.take start = (l.take stop).take start := by
    rw [List.take_take, Nat.min_eq_left h]
  rw [between, htake, List.take_append_drop, List.take_append_drop]

theorem cut_between {bounds : Nat × Nat} (ordered : bounds.1 ≤ bounds.2)
    (within : bounds.2 ≤ s.length) :
    Cut s bounds (String.ofList (between s.toList bounds.1 bounds.2)) where
  ordered := ordered
  within := within
  splits := by
    refine ⟨String.ofList (s.toList.take bounds.1), String.ofList (s.toList.drop bounds.2), ?_, ?_⟩
    · rw [← String.ofList_append, ← String.ofList_append, ← between_splits _ ordered,
        String.ofList_toList]
    · rw [String.length_ofList, List.length_take, String.length_toList]
      omega
  length := by
    rw [String.length_ofList, between, List.length_drop, List.length_take, String.length_toList]
    omega

theorem answers_slice (s : String) (args : List Value) :
    Answers s "slice" args (.ok (ofChars (slice s.toList args))) := fun _ _ _ => rfl

theorem answers_substring (s : String) (args : List Value) :
    Answers s "substring" args (.ok (ofChars (substring s.toList args))) := fun _ _ _ => rfl

theorem slice_cuts (s : String) (args : List Value) :
    ∃ part, Cut s (sliceBounds args s.length) part ∧
      Answers s "slice" args (.ok (.string part)) := by
  obtain ⟨hordered, hwithin⟩ := sliceBounds_le args s.length
  exact ⟨_, cut_between hordered hwithin, answers_slice s args⟩

theorem substring_cuts (s : String) (args : List Value) :
    ∃ part, Cut s (substringBounds args s.length) part ∧
      Answers s "substring" args (.ok (.string part)) := by
  obtain ⟨hordered, hwithin⟩ := substringBounds_le args s.length
  exact ⟨_, cut_between hordered hwithin, answers_substring s args⟩

example : sliceBounds [.number (-2), .number (-1)] 5 = (3, 4) ∧
    sliceBounds [.number (-2), .number nan] 5 = (3, 3) := by decide

/-- A method that reads the character at a position, and has another result when there is none. -/
structure ReadsAt (s name : String) (args : List Value) (position : Int) (other : Value) :
    Prop where
  inside : ∀ i (h : i < s.toList.length), position = i →
    Answers s name args (.ok (.char s.toList[i]))
  outside : position < 0 ∨ s.length ≤ position → Answers s name args (.ok other)

theorem answers_charAt (s : String) (args : List Value) :
    Answers s "charAt" args (.ok (ofChars (charAt s.toList args))) := fun _ _ _ => rfl

theorem answers_at (s : String) (args : List Value) :
    Answers s "at" args (.ok (StringMethod.at s.toList args)) := fun _ _ _ => rfl

theorem charAt_reads (s : String) (args : List Value) :
    ReadsAt s "charAt" args (whole (argument args 0) 0) (.string "") where
  inside i h hi := by
    have hchar : charAt s.toList args = [s.toList[i]] := by simp [charAt, hi, h]
    have hanswer := answers_charAt s args
    rw [hchar] at hanswer
    exact hanswer
  outside h := by
    have hchar : charAt s.toList args = [] := by
      rw [charAt]
      split_ifs with hneg
      · rfl
      · have hle : s.toList.length ≤ (whole (argument args 0) 0).toNat := by
          rw [String.length_toList]
          omega
        rw [List.getElem?_eq_none hle, Option.toList_none]
    have hanswer := answers_charAt s args
    rw [hchar] at hanswer
    exact hanswer

/-- The position that a number names, counted from the end when it is negative. -/
def position (i : Int) (length : Nat) : Int := if i < 0 then i + length else i

theorem itemFrom?_eq {α : Type} (items : List α) (i : Int) :
    itemFrom? items i =
      if position i items.length < 0 then none else items[(position i items.length).toNat]? := rfl

theorem at_reads (s : String) (args : List Value) :
    ReadsAt s "at" args (position (whole (argument args 0) 0) s.length) .undefined where
  inside i h hi := by
    have hitem : itemFrom? s.toList (whole (argument args 0) 0) = some s.toList[i] := by
      rw [← String.length_toList] at hi
      rw [itemFrom?_eq, hi]
      simp [h]
    have hanswer := answers_at s args
    rw [StringMethod.at, hitem] at hanswer
    exact hanswer
  outside h := by
    have hitem : itemFrom? s.toList (whole (argument args 0) 0) = none := by
      rw [itemFrom?_eq, String.length_toList]
      split_ifs with hneg
      · rfl
      · rw [List.getElem?_eq_none (by rw [String.length_toList]; omega)]
    have hanswer := answers_at s args
    rw [StringMethod.at, hitem] at hanswer
    exact hanswer

theorem sliceBounds_before (x : Float) (length : Nat) :
    sliceBounds [.number 0, .number x] length = (0, relative (whole (.number x) 0) length) := by
  have hzero : relative (whole (argument [.number 0, .number x] 0) 0) length = 0 := by
    change relative (whole (.number 0) 0) length = 0
    simp [whole_zero, relative]
  rw [sliceBounds, hzero]
  simp only [Nat.max_zero]
  rfl

theorem sliceBounds_after (x : Float) (length : Nat) :
    sliceBounds [.number x] length = (relative (whole (.number x) 0) length, length) := by
  have hstop : relative (whole (argument [.number x] 1) length) length = length := by
    have hwhole : whole (argument [.number x] 1) length = length := rfl
    simp [hwhole, relative]
  rw [sliceBounds, hstop]
  have hle := relative_le (whole (argument [.number x] 0) 0) length
  rw [Nat.max_eq_left hle]
  rfl

theorem slice_append_slice (cs : List Char) (x : Float) :
    slice cs [.number 0, .number x] ++ slice cs [.number x] = cs := by
  rw [slice, slice, sliceBounds_before, sliceBounds_after]
  simp only [between, List.drop_zero, List.take_length, List.take_append_drop]

theorem slices_join (s : String) (x : Float) :
    ∃ before after, Answers s "slice" [.number 0, .number x] (.ok before) ∧
      Answers s "slice" [.number x] (.ok after) ∧
      BinaryOp.add.apply before after = .ok (.string s) := by
  refine ⟨_, _, answers_slice s _, answers_slice s _, ?_⟩
  have happly (cs ds : List Char) : BinaryOp.add.apply (ofChars cs) (ofChars ds) =
      .ok (.string (String.ofList cs ++ String.ofList ds)) := rfl
  rw [happly, ← String.ofList_append, slice_append_slice, String.ofList_toList]

def target (args : List Value) : Nat := (whole (argument args 0) 0).toNat

def fill (args : List Value) : List Char :=
  if (argument args 1).isUndefined then [' '] else (argument args 1).toText.toList

/-- Padding would give a new text that is longer than any method may build. -/
def PadsTooFar (s : String) (args : List Value) : Prop :=
  fill args ≠ [] ∧ s.length < target args ∧ maxStringLength < target args

/-- What is put before or after a text: it brings the text to the length that is asked for, and goes
through what it is padded with over and over. -/
structure Pads (s : String) (args : List Value) (p : String) : Prop where
  length : fill args ≠ [] → s.length + p.length = max s.length (target args)
  empty : fill args = [] → p = ""
  cycles : ∀ i < p.length, p.toList[i]? = (fill args)[i % (fill args).length]?

theorem paddingOf_eq (name : String) (cs : List Char) (args : List Value) :
    paddingOf name cs args =
      if target args ≤ cs.length ∨ (fill args).isEmpty then .ok []
      else if maxStringLength < target args then invalidArgument name "invalid string length"
      else .ok (padding (fill args) (target args - cs.length)) := rfl

theorem count_le {count width : Nat} (h : 0 < width) : count ≤ (count / width + 1) * width := by
  have hdiv := Nat.div_add_mod count width
  have hmod := Nat.mod_lt count h
  rw [Nat.succ_mul, Nat.mul_comm]
  omega

theorem length_padding {fill : List Char} (h : fill ≠ []) (count : Nat) :
    (padding fill count).length = count := by
  rw [padding, List.length_take, length_flatten_replicate,
    Nat.min_eq_left (count_le (List.length_pos_iff.mpr h))]

theorem getElem?_padding {fill : List Char} {count i : Nat} (h : i < (padding fill count).length) :
    (padding fill count)[i]? = fill[i % fill.length]? := by
  rw [padding, List.length_take, length_flatten_replicate] at h
  have hcount : i < count := by omega
  have hlength : i < (count / fill.length + 1) * fill.length := by omega
  rw [padding, List.getElem?_take_of_lt hcount, getElem?_flatten_replicate hlength]

theorem paddingOf_tooFar (h : PadsTooFar s args) (name : String) :
    paddingOf name s.toList args = invalidArgument name "invalid string length" := by
  obtain ⟨hfill, hlonger, htoo⟩ := h
  rw [paddingOf_eq, String.length_toList, if_neg, if_pos htoo]
  simp [hfill, hlonger]

theorem paddingOf_pads (h : ¬PadsTooFar s args) :
    ∃ p, Pads s args p ∧ ∀ name, paddingOf name s.toList args = .ok p.toList := by
  by_cases hkeeps : target args ≤ s.length ∨ (fill args).isEmpty
  · refine ⟨"", ⟨?_, ?_, ?_⟩, ?_⟩
    · intro hfill
      have hle : target args ≤ s.length := by simpa [hfill] using hkeeps
      simp [hle]
    · intro _
      rfl
    · intro i hi
      exact absurd hi (Nat.not_lt_zero i)
    · intro name
      rw [paddingOf_eq, String.length_toList, if_pos hkeeps]
      rfl
  · obtain ⟨hlonger, hfill⟩ := not_or.mp hkeeps
    have hfill : fill args ≠ [] := by simpa using hfill
    have hfits : ¬maxStringLength < target args := fun htoo => h ⟨hfill, by omega, htoo⟩
    have hlength := length_padding hfill (target args - s.length)
    refine ⟨String.ofList (padding (fill args) (target args - s.length)), ⟨?_, ?_, ?_⟩, ?_⟩
    · intro _
      rw [String.length_ofList, hlength]
      omega
    · intro hempty
      exact absurd hempty hfill
    · intro i hi
      rw [String.length_ofList] at hi
      rw [String.toList_ofList, getElem?_padding hi]
    · intro name
      rw [paddingOf_eq, String.length_toList, if_neg hkeeps, if_neg hfits, String.toList_ofList]

theorem answers_padStart (s : String) (args : List Value) :
    Answers s "padStart" args
      ((paddingOf "padStart" s.toList args).map fun p => ofChars (p ++ s.toList)) :=
  fun _ _ st => run_built (paddingOf "padStart" s.toList args) _ st

theorem answers_padEnd (s : String) (args : List Value) :
    Answers s "padEnd" args
      ((paddingOf "padEnd" s.toList args).map fun p => ofChars (s.toList ++ p)) :=
  fun _ _ st => run_built (paddingOf "padEnd" s.toList args) _ st

/-- Both ways of padding fail when they would go too far, and otherwise put one and the same before
the text or after it. -/
structure PadsAsAsked (s : String) (args : List Value) : Prop where
  fails : PadsTooFar s args → ∀ name ∈ ["padStart", "padEnd"],
    Answers s name args (invalidArgument name "invalid string length")
  pads : ¬PadsTooFar s args → ∃ p, Pads s args p ∧
    Answers s "padStart" args (.ok (.string (p ++ s))) ∧
    Answers s "padEnd" args (.ok (.string (s ++ p)))

theorem padsAsAsked (s : String) (args : List Value) : PadsAsAsked s args where
  fails h := by
    have hstart := answers_padStart s args
    have hend := answers_padEnd s args
    rw [paddingOf_tooFar h] at hstart hend
    simp only [List.mem_cons, List.not_mem_nil, or_false, forall_eq_or_imp, forall_eq]
    exact ⟨hstart, hend⟩
  pads h := by
    obtain ⟨p, hp, hpadding⟩ := paddingOf_pads h
    have hstart := answers_padStart s args
    have hend := answers_padEnd s args
    rw [hpadding] at hstart hend
    refine ⟨p, hp, ?_, ?_⟩
    · simpa [Except.map, ofChars] using hstart
    · simpa [Except.map, ofChars] using hend

def BadCount (args : List Value) : Prop :=
  (argument args 0).toNumber < 0 ∨ (argument args 0).toNumber.isInf = true

def copies (args : List Value) : Nat := wholePart (argument args 0).toNumber

/-- A count that is held back by the greatest word is too many for any text that is not empty. -/
theorem lt_mul_min_iff {length count limit high : Nat} (h : limit < high) :
    limit < length * min high count ↔ limit < length * count := by
  cases length with
  | zero => simp
  | succ n =>
    have hhigh : high ≤ (n + 1) * high := Nat.le_mul_of_pos_left high n.succ_pos
    have hcount : count ≤ (n + 1) * count := Nat.le_mul_of_pos_left count n.succ_pos
    rcases Nat.le_total count high with hle | hle
    · rw [Nat.min_eq_right hle]
    · rw [Nat.min_eq_left hle]
      omega

theorem repeat_badCount (h : BadCount args) (cs : List Char) :
    «repeat» cs args = invalidArgument "repeat" "invalid count value" := if_pos h

theorem repeat_of_count (h : ¬BadCount args) (cs : List Char) :
    «repeat» cs args =
      if maxStringLength < cs.length * copies args then
        invalidArgument "repeat" "invalid string length"
      else .ok (List.replicate (copies args) cs).flatten := by
  have hinf : (argument args 0).toNumber.isInf = false := by simpa using (not_or.mp h).2
  have hrun : «repeat» cs args =
      if maxStringLength < cs.length * min 0xFFFFFFFFFFFFFFFF (copies args) then
        invalidArgument "repeat" "invalid string length"
      else if cs.isEmpty then .ok []
      else .ok (List.replicate (min 0xFFFFFFFFFFFFFFFF (copies args)) cs).flatten := by
    rw [copies, ← toNat_toIntWithin hinf]
    exact if_neg h
  have hlimit : maxStringLength < 0xFFFFFFFFFFFFFFFF := by decide
  rw [hrun]
  simp only [lt_mul_min_iff hlimit]
  split_ifs with htoo hempty
  · rfl
  · simp [List.isEmpty_iff.mp hempty]
  · have hpos : 0 < cs.length := List.length_pos_iff.mpr (by simpa using hempty)
    have hcopies : copies args ≤ cs.length * copies args := Nat.le_mul_of_pos_left _ hpos
    rw [Nat.min_eq_right (by omega)]

theorem answers_repeat (s : String) (args : List Value) :
    Answers s "repeat" args ((«repeat» s.toList args).map ofChars) :=
  fun _ _ st => run_built («repeat» s.toList args) _ st

/-- Repeating fails for a count that makes no sense and for one that would give too long a text, and
otherwise gives the text as many times as it is asked for. -/
structure RepeatsAsAsked (s : String) (args : List Value) : Prop where
  badCount : BadCount args →
    Answers s "repeat" args (invalidArgument "repeat" "invalid count value")
  tooLong : ¬BadCount args → maxStringLength < s.length * copies args →
    Answers s "repeat" args (invalidArgument "repeat" "invalid string length")
  repeats : ¬BadCount args → s.length * copies args ≤ maxStringLength → ∃ t : String,
    Answers s "repeat" args (.ok (.string t)) ∧ t.length = s.length * copies args ∧
      t.toList = (List.replicate (copies args) s.toList).flatten

theorem repeatsAsAsked (s : String) (args : List Value) : RepeatsAsAsked s args where
  badCount h := by
    have hanswer := answers_repeat s args
    rw [repeat_badCount h] at hanswer
    exact hanswer
  tooLong h htoo := by
    have hanswer := answers_repeat s args
    rw [repeat_of_count h, String.length_toList, if_pos htoo] at hanswer
    exact hanswer
  repeats h hfits := by
    have hanswer := answers_repeat s args
    rw [repeat_of_count h, String.length_toList, if_neg (Nat.not_lt.mpr hfits)] at hanswer
    refine ⟨_, hanswer, ?_, String.toList_ofList⟩
    rw [String.length_ofList, length_flatten_replicate, String.length_toList, Nat.mul_comm]

/-- The whole numbers that the methods take of their arguments, as positions in a text of a length.
-/
def positions (args : List Value) (length : Nat) : List Int :=
  [whole (argument args 0) 0, whole (argument args 1) 0, whole (argument args 1) length]

theorem positions_fitWords {length : Nat} (h : length < 2 ^ 63) :
    ∀ i ∈ positions args length, FitsWord i ∧ FitsWord (position i length) := by
  have hzero : FitsWord 0 := ⟨by decide, by decide⟩
  have hlength : FitsWord length := ⟨by omega, by omega⟩
  have hfrom {i : Int} (hi : FitsWord i) : FitsWord i ∧ FitsWord (position i length) := by
    simp only [FitsWord, position] at *
    split_ifs <;> omega
  intro i hi
  simp only [positions, List.mem_cons, List.not_mem_nil, or_false] at hi
  rcases hi with rfl | rfl | rfl
  · exact hfrom (whole_fitsWord _ hzero)
  · exact hfrom (whole_fitsWord _ hzero)
  · exact hfrom (whole_fitsWord _ hlength)

/-- Methods of texts take any arguments. They cut and read within the text, count positions in
signed words, put two parts that meet together again, and pad and repeat to the length asked for. -/
theorem lengths_as_asked (s : String) (args : List Value) :
    (∃ part, Cut s (sliceBounds args s.length) part ∧
      Answers s "slice" args (.ok (.string part))) ∧
    (∃ part, Cut s (substringBounds args s.length) part ∧
      Answers s "substring" args (.ok (.string part))) ∧
    ReadsAt s "charAt" args (whole (argument args 0) 0) (.string "") ∧
    ReadsAt s "at" args (position (whole (argument args 0) 0) s.length) .undefined ∧
    (s.length < 2 ^ 63 → ∀ i ∈ positions args s.length,
      FitsWord i ∧ FitsWord (position i s.length)) ∧
    (∀ x : Float, ∃ before after, Answers s "slice" [.number 0, .number x] (.ok before) ∧
      Answers s "slice" [.number x] (.ok after) ∧
      BinaryOp.add.apply before after = .ok (.string s)) ∧
    PadsAsAsked s args ∧ RepeatsAsAsked s args := by
  exact ⟨slice_cuts s args, substring_cuts s args, charAt_reads s args, at_reads s args,
    positions_fitWords, slices_join s, padsAsAsked s args, repeatsAsAsked s args⟩

end StringMethod
end Templating
