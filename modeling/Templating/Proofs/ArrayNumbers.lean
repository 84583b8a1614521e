import Templating.Eval.Operator
import Templating.Proofs.NumberText

/-!
The number of an array and the number of its text. Arithmetic takes an array of one item for the
number of the item; comparison with a number takes it for its text, and that for a number. The two
agree unless an item, however deep in arrays of one item, is undefined or a truth value: undefined
leaves no text, which counts as 0, and the words for the truth values are no numerals.
-/
namespace Templating
open Text Decimal

theorem mem_dropWhile {α : Type} {p : α → Bool} {a : α} {as : List α} (hp : p a = false)
    (h : a ∈ as) : a ∈ as.dropWhile p := by
  have hsplit := List.takeWhile_append_dropWhile (p := p) (l := as)
  rw [← hsplit] at h
  rcases List.mem_append.mp h with htake | hdrop
  · rw [List.mem_takeWhile_imp htake] at hp
    cases hp
  · exact hdrop

theorem mem_trim {c : Char} {cs : List Char} (hc : isBlank c = false) (h : c ∈ cs) :
    c ∈ trim cs := by
  have hstart : c ∈ trimStart cs := mem_dropWhile hc h
  rw [trim, trimEnd, List.mem_reverse]
  exact mem_dropWhile hc (List.mem_reverse.mpr hstart)

theorem mem_splitSign {cs : List Char} (h : ',' ∈ cs) : ',' ∈ (splitSign cs).2 := by
  unfold splitSign
  split
  · simpa using h
  · simpa using h
  · exact h

theorem not_all_of_mem {p : Char → Bool} {cs : List Char} (hp : p ',' = false) (h : ',' ∈ cs) :
    cs.all p = false := by
  rw [List.all_eq_false]
  exact ⟨_, h, by simp [hp]⟩

theorem readExponent?_comma {cs : List Char} (h : ',' ∈ cs) : readExponent? cs = none := by
  cases cs with
  | nil => cases h
  | cons c cs =>
    simp only [readExponent?]
    split_ifs with hc hds
    · rfl
    · have hne : ',' ≠ c := by rintro rfl; revert hc; decide
      have hmem := mem_splitSign ((List.mem_cons.mp h).resolve_left hne)
      rw [not_all_of_mem (by decide) hmem] at hds
      simp at hds
    · rfl

theorem read?_comma {cs : List Char} (h : ',' ∈ cs) : Numeral.read? cs = none := by
  have hrest := mem_dropWhile (p := Char.isDigit) (by decide) (mem_splitSign h)
  simp only [Numeral.read?]
  split
  · rename_i fraction heq
    rw [heq] at hrest
    have hend := mem_dropWhile (p := Char.isDigit) (by decide)
      ((List.mem_cons.mp hrest).resolve_left (by decide))
    simp only [readExponent?_comma hend, Option.map_none, ite_self]
  · simp only [readExponent?_comma hrest, Option.map_none, ite_self]

theorem readHex?_comma {cs : List Char} (h : ',' ∈ cs) : readHex? cs = none := by
  have hall {ds : List Char} (hds : ',' ∈ ds) :
      ds.all (fun c => (digitValue? 16 c).isSome) = false :=
    not_all_of_mem (p := fun c => (digitValue? 16 c).isSome) (by decide) hds
  simp only [readHex?, readNat?]
  rw [if_pos]
  split
  · rw [hall ((List.mem_cons.mp h).resolve_left (by decide))]
    exact Bool.or_true _
  · rw [hall h]
    exact Bool.or_true _

theorem numberOfText_comma {cs : List Char} (h : ',' ∈ cs) : (numberOfText cs).isNaN = true := by
  have hmem : ',' ∈ trim cs := mem_trim (by decide) h
  have hnan : nan.isNaN = true := by decide
  simp only [numberOfText]
  rw [if_neg (by simpa using List.ne_nil_of_mem hmem)]
  split
  case h_1 digits heq =>
    rw [readHex?_comma (by simpa [heq] using hmem)]
    exact hnan
  case h_2 digits heq =>
    rw [readHex?_comma (by simpa [heq] using hmem)]
    exact hnan
  case h_3 =>
    have hword {w : List Char} (hw : ',' ∉ w) : trim cs ≠ w := fun heq => hw (heq ▸ hmem)
    rw [if_neg (not_or.mpr ⟨hword (by decide), hword (by decide)⟩), if_neg (hword (by decide)),
      readFloat?, read?_comma hmem]
    exact hnan

namespace Value

/-- What an array holds inside, being one item in an array of one item, and so on. -/
inductive Wraps : Value → Value → Prop
  | item (id : Nat) (v : Value) : Wraps (array id [v]) v
  | deeper (id : Nat) {a v : Value} (h : Wraps a v) : Wraps (array id [a]) v

/-- Values of which an array has another text than that of their number. -/
def isMisread : Value → Bool
  | undefined | bool _ => true
  | _ => false

def ReadsBack (v : Value) : Prop := sameNumber v.toNumber (numberOfText v.toText.toList) = true

theorem wraps_array_iff {id : Nat} {a v : Value} : Wraps (array id [a]) v ↔ v = a ∨ Wraps a v := by
  constructor
  · intro h
    cases h with
    | item => exact .inl rfl
    | deeper _ h => exact .inr h
  · rintro (rfl | h)
    · exact .item id v
    · exact .deeper id h

theorem not_wraps {a v : Value} (h : a.array? = none) : ¬ Wraps a v := by
  rintro (_ | _) <;> cases h

/-- An array of more than one item is no number, and neither is its text. -/
theorem readsBack_two (id : Nat) (v w : Value) (items : List Value) :
    ReadsBack (array id (v :: w :: items)) := by
  have hcomma : ',' ∈ (array id (v :: w :: items)).toText.toList := by
    change ',' ∈ ((if v.isNullish then "" else toText v) ++ "," ++ itemsText (w :: items)).toList
    simp
  have hnumber : nan.isNaN = true := by decide
  rw [ReadsBack, sameNumber, Bool.or_eq_true, Bool.and_eq_true]
  exact .inr ⟨hnumber, numberOfText_comma hcomma⟩

/-- An array of one item that is no array. -/
theorem readsBack_item (id : Nat) {v : Value} (h : v.array? = none) :
    ReadsBack (array id [v]) ↔ v.isMisread = false := by
  cases v with
  | undefined =>
    have hno : ¬ sameNumber nan (numberOfText "".toList) = true := by decide
    exact iff_of_false hno (by decide)
  | null =>
    have hyes : sameNumber 0 (numberOfText "".toList) = true := by decide
    exact iff_of_true hyes rfl
  | bool b =>
    have hno : ∀ b : Bool, ¬ sameNumber (if b then 1 else 0)
        (numberOfText (if b then "true" else "false").toList) = true := by decide
    exact iff_of_false (hno b) nofun
  | number x => exact iff_of_true (numberOfText_plain x) rfl
  | string s => exact iff_of_true (sameNumber_self _) rfl
  | array => cases h
  | object =>
    have hyes : sameNumber nan (numberOfText "[object Object]".toList) = true := by decide
    exact iff_of_true hyes rfl
  | function =>
    have hyes : sameNumber nan (numberOfText "function".toList) = true := by decide
    exact iff_of_true hyes rfl

/-- The number of an array is that of its text unless a misread value is at its bottom. -/
theorem readsBack_array (id : Nat) (items : List Value) :
    ReadsBack (array id items) ↔ ∀ v, Wraps (array id items) v → v.isMisread = false :=
  match items with
  | [] =>
    have hyes : sameNumber 0 (numberOfText "".toList) = true := by decide
    iff_of_true hyes fun v h => nomatch h
  | [v] => by
    simp only [wraps_array_iff, forall_eq_or_imp]
    cases v with
    | array inner items =>
      have hsame : ReadsBack (array id [array inner items]) ↔ ReadsBack (array inner items) :=
        Iff.rfl
      rw [hsame, readsBack_array inner items]
      exact ⟨fun h => ⟨rfl, h⟩, And.right⟩
    | _ =>
      rw [readsBack_item id rfl]
      exact ⟨fun h => ⟨h, fun w hw => absurd hw (not_wraps rfl)⟩, And.left⟩
  | v :: w :: items => iff_of_true (readsBack_two id v w items) fun v h => nomatch h

/-- Whether `a == n` and `+a === n` are one question for every number `n`. -/
def ComparesAsNumber (a : Value) : Prop :=
  ∀ n : Float, BinaryOp.eq.apply a (number n) =
    BinaryOp.same.apply (UnaryOp.plus.apply a) (number n)

theorem comparesAsNumber_array_iff (id : Nat) (items : List Value) :
    ComparesAsNumber (array id items) ↔ ReadsBack (array id items) := by
  have hloose (n : Float) : BinaryOp.eq.apply (array id items) (number n) =
      .ok (.bool (numberOfText (array id items).toText.toList == n)) := rfl
  have hstrict (n : Float) : BinaryOp.same.apply (UnaryOp.plus.apply (array id items)) (number n) =
      .ok (.bool ((array id items).toNumber == n)) := rfl
  simp only [ComparesAsNumber, hloose, hstrict, ReadsBack, sameNumber_iff, Except.ok.injEq,
    bool.injEq]
  exact forall_congr' fun n => eq_comm

/-- The number of an array is that of its text, and comparing it with numbers is comparing its
number, just when no undefined and no truth value is at its bottom. -/
theorem array_number_iff (id : Nat) (items : List Value) :
    (ReadsBack (array id items) ↔ ∀ v, Wraps (array id items) v → v.isMisread = false) ∧
      (ComparesAsNumber (array id items) ↔
        ∀ v, Wraps (array id items) v → v.isMisread = false) :=
  ⟨readsBack_array id items,
    (comparesAsNumber_array_iff id items).trans (readsBack_array id items)⟩

/-- An array with an undefined item equals 0, but its number is NaN. -/
theorem array_of_undefined_number :
    ¬ ReadsBack (array 0 [undefined]) ∧
      BinaryOp.eq.apply (array 0 [undefined]) (number 0) = .ok (bool true) ∧
      BinaryOp.same.apply (UnaryOp.plus.apply (array 0 [undefined])) (number 0) =
        .ok (bool false) := by
  have hread : ¬ sameNumber (array 0 [undefined]).toNumber
      (numberOfText (array 0 [undefined]).toText.toList) = true := by decide
  have hloose : (array 0 [undefined]).looseEq (number 0) = true := by decide
  have hstrict : (UnaryOp.plus.apply (array 0 [undefined])).strictEq (number 0) = false := by
    decide
  refine ⟨hread, ?_, ?_⟩
  · rw [BinaryOp.apply, hloose]
  · rw [BinaryOp.apply, hstrict]

end Value
end Templating
