import Templating.Eval.Operator
import Templating.Proofs.Doubles

/-!
Comparisons of values. Loose equality converts one side at a time until the two can be compared, and
its rules come to one result for any two values, the same whichever side they are on. Strictly equal
values are loosely equal, and null and undefined equal each other alone. The order of two values
turns round when they change sides, so that each operator of order mirrors another.
-/
namespace Templating

namespace Decimal
open Float.Model

theorem compareSigns_swap (s t : UnpackedFloat.Sign) : compare s t = (compare t s).swap := by
  cases s <;> cases t <;> rfl

theorem compareMagnitudes_swap (e f : Int) (m n : Nat) :
    (compare e f).then (compare m n) = ((compare f e).then (compare n m)).swap := by
  rw [Ordering.swap_then, Std.OrientedOrd.eq_swap (a := e), Std.OrientedOrd.eq_swap (a := m)]

theorem compareUnpacked_swap (x y : UnpackedFloat) :
    x.compare y = (y.compare x).map Ordering.swap := by
  cases x with
  | notANumber =>
    cases y with
    | notANumber | zero _ => rfl
    | infinity t | finite t _ _ => cases t <;> rfl
  | infinity s =>
    cases y with
    | notANumber | zero _ => cases s <;> rfl
    | infinity t =>
      simp only [UnpackedFloat.compare, Option.map_some]
      rw [compareSigns_swap]
    | finite t _ _ => cases s <;> cases t <;> rfl
  | zero s =>
    cases y with
    | notANumber | zero _ => rfl
    | infinity t | finite t _ _ => cases t <;> rfl
  | finite s m e =>
    cases y with
    | notANumber | zero _ => cases s <;> rfl
    | infinity t => cases s <;> cases t <;> rfl
    | finite t n f =>
      cases s <;> cases t
      case positive.negative | negative.positive => rfl
      all_goals
        simp only [UnpackedFloat.compare, Option.map_some]
        rw [compareMagnitudes_swap]

/-- The order of two doubles; there is none when one of them is NaN. -/
def order? (x y : Float) : Option Ordering := x.toModel.unpack.compare y.toModel.unpack

theorem order?_swap (x y : Float) : order? x y = (order? y x).map Ordering.swap :=
  compareUnpacked_swap _ _

theorem lt_iff_order? {x y : Float} : x < y ↔ order? x y = some .lt := by
  change decide (x.toModel < y.toModel) = true ↔ _
  rw [decide_eq_true_eq]
  change (UnpackedFloat.compare _ _ == some Ordering.lt) = true ↔ _
  rw [beq_iff_eq]
  rfl

theorem beq_iff_order? {x y : Float} : (x == y) = true ↔ order? x y = some .eq := by
  change (UnpackedFloat.compare _ _ == some Ordering.eq) = true ↔ _
  rw [beq_iff_eq]
  rfl

end Decimal

open Decimal

namespace Value

variable {a b v w : Value} {r : Bool}

theorem compare?_of_not_strings (h : a.string? = none ∨ b.string? = none) :
    a.compare? b = order? a.toNumber b.toNumber := by
  have hnumbers : a.compare? b =
      if a.toNumber < b.toNumber then some .lt
      else if a.toNumber == b.toNumber then some .eq
      else if a.toNumber > b.toNumber then some .gt else none := by
    unfold compare?
    split
    · simp [string?] at h
    · rfl
  have hgt : a.toNumber > b.toNumber ↔ order? a.toNumber b.toNumber = some .gt := by
    rw [gt_iff_lt, lt_iff_order?, order?_swap]
    cases order? a.toNumber b.toNumber with
    | none => simp
    | some o => cases o <;> simp
  rw [hnumbers]
  simp only [lt_iff_order?, beq_iff_order?, hgt]
  cases order? a.toNumber b.toNumber with
  | none => rfl
  | some o => cases o <;> rfl

theorem compare?_swap (a b : Value) : a.compare? b = (b.compare? a).map Ordering.swap := by
  by_cases h : a.string? = none ∨ b.string? = none
  · rw [compare?_of_not_strings h, compare?_of_not_strings h.symm, order?_swap]
  · obtain ⟨ha, hb⟩ := not_or.mp h
    obtain ⟨s, rfl⟩ : ∃ s, a = string s := by
      cases a with
      | string s => exact ⟨s, rfl⟩
      | _ => exact absurd rfl ha
    obtain ⟨t, rfl⟩ : ∃ t, b = string t := by
      cases b with
      | string t => exact ⟨t, rfl⟩
      | _ => exact absurd rfl hb
    exact congrArg some Std.OrientedOrd.eq_swap

theorem same_comm (f g : Function) : f.same g = g.same f := by
  cases f <;> cases g <;> simp [Function.same, Bool.beq_comm]

theorem strictEq_comm (a b : Value) : a.strictEq b = b.strictEq a := by
  cases a with
  | undefined | null => cases b <;> rfl
  | bool p =>
    cases b with
    | bool q => exact Bool.beq_comm
    | _ => rfl
  | number x =>
    cases b with
    | number y => exact BEq.comm
    | _ => rfl
  | string s =>
    cases b with
    | string t => exact BEq.comm
    | _ => rfl
  | array i _ =>
    cases b with
    | array j _ => exact BEq.comm
    | _ => rfl
  | object i _ =>
    cases b with
    | object j _ => exact BEq.comm
    | _ => rfl
  | function f =>
    cases b with
    | function g => exact same_comm f g
    | _ => rfl

/-- Values that are told apart by identity. -/
def isReference : Value → Bool
  | array _ _ | object _ _ | function _ => true
  | _ => false

def isScalar : Value → Bool
  | number _ | string _ => true
  | _ => false

/-- The rules of loose equality. A rule that converts one of the values goes on with what that
becomes: a truth value its number, an array, an object or a function its text. -/
inductive Equates : Value → Value → Bool → Prop
  | nullish {a b : Value} (ha : a.isNullish = true) (hb : b.isNullish = true) : Equates a b true
  | nullishLeft {a b : Value} (ha : a.isNullish = true) (hb : b.isNullish = false) :
    Equates a b false
  | nullishRight {a b : Value} (ha : a.isNullish = false) (hb : b.isNullish = true) :
    Equates a b false
  | boolLeft {p : Bool} {b : Value} {r : Bool} (hb : b.isNullish = false)
    (h : Equates (number (if p then 1 else 0)) b r) : Equates (bool p) b r
  | boolRight {a : Value} {q r : Bool} (ha : a.isNullish = false) (hbool : a.bool? = none)
    (h : Equates a (number (if q then 1 else 0)) r) : Equates a (bool q) r
  | referenceLeft {a b : Value} {r : Bool} (ha : a.isReference = true) (hb : b.isScalar = true)
    (h : Equates (string a.toText) b r) : Equates a b r
  | referenceRight {a b : Value} {r : Bool} (ha : a.isScalar = true) (hb : b.isReference = true)
    (h : Equates a (string b.toText) r) : Equates a b r
  | numberText (x : Float) (t : String) :
    Equates (number x) (string t) (x == (string t).toNumber)
  | textNumber (s : String) (y : Float) :
    Equates (string s) (number y) ((string s).toNumber == y)
  | numbers (x y : Float) : Equates (number x) (number y) (x == y)
  | texts (s t : String) : Equates (string s) (string t) (s == t)
  | references {a b : Value} (ha : a.isReference = true) (hb : b.isReference = true) :
    Equates a b (a.strictEq b)

theorem looseEq_of_nullish (h : a.isNullish = true) : a.looseEq b = b.isNullish := by
  simp [looseEq, h]

theorem looseEq_nullish (h : b.isNullish = true) : a.looseEq b = a.isNullish := by
  simp [looseEq, h]

theorem bool_looseEq (p : Bool) (b : Value) :
    (bool p).looseEq b = (number (if p then 1 else 0)).looseEq b := by
  simp [looseEq, isNullish, unbool]

theorem looseEq_bool (a : Value) (q : Bool) :
    a.looseEq (bool q) = a.looseEq (number (if q then 1 else 0)) := by
  simp [looseEq, isNullish, unbool]

theorem reference_looseEq (ha : a.isReference = true) (hb : b.isScalar = true) :
    a.looseEq b = (string a.toText).looseEq b := by
  cases a with
  | array | object | function =>
    cases b with
    | number | string => rfl
    | _ => cases hb
  | _ => cases ha

theorem looseEq_reference (ha : a.isScalar = true) (hb : b.isReference = true) :
    a.looseEq b = a.looseEq (string b.toText) := by
  cases b with
  | array | object | function =>
    cases a with
    | number | string => rfl
    | _ => cases ha
  | _ => cases hb

theorem looseEq_of_references (ha : a.isReference = true) (hb : b.isReference = true) :
    a.looseEq b = a.strictEq b := by
  cases a with
  | array | object | function =>
    cases b with
    | array | object | function => rfl
    | _ => cases hb
  | _ => cases ha

/-- Rules come to no other result. -/
theorem Equates.looseEq_eq (h : Equates a b r) : a.looseEq b = r := by
  induction h with
  | nullish ha hb => rw [looseEq_of_nullish ha, hb]
  | nullishLeft ha hb => rw [looseEq_of_nullish ha, hb]
  | nullishRight ha hb => rw [looseEq_nullish hb, ha]
  | boolLeft _ _ ih => rw [bool_looseEq, ih]
  | boolRight _ _ _ ih => rw [looseEq_bool, ih]
  | referenceLeft ha hb _ ih => rw [reference_looseEq ha hb, ih]
  | referenceRight ha hb _ ih => rw [looseEq_reference ha hb, ih]
  | numberText | textNumber | numbers | texts => rfl
  | references ha hb => exact looseEq_of_references ha hb

/-- The same result is come to from the other side. -/
theorem Equates.looseEq_swap (h : Equates a b r) : b.looseEq a = r := by
  induction h with
  | nullish ha hb => rw [looseEq_nullish ha, hb]
  | nullishLeft ha hb => rw [looseEq_nullish ha, hb]
  | nullishRight ha hb => rw [looseEq_of_nullish hb, ha]
  | boolLeft _ _ ih => rw [looseEq_bool, ih]
  | boolRight _ _ _ ih => rw [bool_looseEq, ih]
  | referenceLeft ha hb _ ih => rw [looseEq_reference hb ha, ih]
  | referenceRight ha hb _ ih => rw [reference_looseEq hb ha, ih]
  | numberText | textNumber | numbers | texts => exact BEq.comm
  | references ha hb => rw [looseEq_of_references hb ha, strictEq_comm]

theorem equates_scalars (ha : a.isScalar = true) (hb : b.isScalar = true) :
    Equates a b (a.looseEq b) := by
  cases a with
  | number x =>
    cases b with
    | number y => exact .numbers x y
    | string t => exact .numberText x t
    | _ => cases hb
  | string s =>
    cases b with
    | number y => exact .textNumber s y
    | string t => exact .texts s t
    | _ => cases hb
  | _ => cases ha

/-- A scalar or a reference, which no rule takes for a number first. -/
def isSettled (v : Value) : Bool := v.isScalar || v.isReference

theorem equates_settled (ha : a.isSettled = true) (hb : b.isSettled = true) :
    Equates a b (a.looseEq b) := by
  rcases Bool.or_eq_true_iff.mp ha with ha | ha
  · rcases Bool.or_eq_true_iff.mp hb with hb | hb
    · exact equates_scalars ha hb
    · rw [looseEq_reference ha hb]
      exact .referenceRight ha hb (equates_scalars ha rfl)
  · rcases Bool.or_eq_true_iff.mp hb with hb | hb
    · rw [reference_looseEq ha hb]
      exact .referenceLeft ha hb (equates_scalars rfl hb)
    · rw [looseEq_of_references ha hb]
      exact .references ha hb

theorem cases_of_not_nullish (h : v.isNullish = false) :
    (∃ p, v = bool p) ∨ v.isSettled = true ∧ v.bool? = none := by
  cases v with
  | undefined | null => cases h
  | bool p => exact .inl ⟨p, rfl⟩
  | _ => exact .inr ⟨rfl, rfl⟩

theorem equates_of_settled (ha : a.isSettled = true) (hnullish : a.isNullish = false)
    (hbool : a.bool? = none) (hb : b.isNullish = false) : Equates a b (a.looseEq b) := by
  rcases cases_of_not_nullish hb with ⟨q, rfl⟩ | ⟨hb, -⟩
  · rw [looseEq_bool]
    exact .boolRight hnullish hbool (equates_settled ha rfl)
  · exact equates_settled ha hb

/-- The rules come to a result, whatever the values are. -/
theorem equates_looseEq (a b : Value) : Equates a b (a.looseEq b) := by
  cases ha : a.isNullish with
  | true =>
    rw [looseEq_of_nullish ha]
    cases hb : b.isNullish with
    | true => exact .nullish ha hb
    | false => exact .nullishLeft ha hb
  | false =>
    cases hb : b.isNullish with
    | true =>
      rw [looseEq_nullish hb, ha]
      exact .nullishRight ha hb
    | false =>
      rcases cases_of_not_nullish ha with ⟨p, rfl⟩ | ⟨hsettled, hbool⟩
      · rw [bool_looseEq]
        exact .boolLeft hb (equates_of_settled rfl rfl rfl hb)
      · exact equates_of_settled hsettled ha hbool hb

theorem equates_iff : Equates a b r ↔ a.looseEq b = r :=
  ⟨Equates.looseEq_eq, fun h => h ▸ equates_looseEq a b⟩

theorem looseEq_comm (a b : Value) : a.looseEq b = b.looseEq a := (equates_looseEq b a).looseEq_swap

theorem looseEq_of_strictEq (h : a.strictEq b = true) : a.looseEq b = true := by
  cases a with
  | undefined | null =>
    cases b with
    | undefined | null => rfl
    | _ => cases h
  | bool p =>
    cases b with
    | bool q =>
      obtain rfl : p = q := beq_iff_eq.mp h
      cases p <;> decide
    | _ => cases h
  | number _ =>
    cases b with
    | number _ => exact h
    | _ => cases h
  | string _ =>
    cases b with
    | string _ => exact h
    | _ => cases h
  | array | object | function =>
    cases b with
    | array | object | function => exact h
    | _ => cases h

theorem less_mirror (a b : Value) : (a.compare? b == some .lt) = (b.compare? a == some .gt) := by
  rw [compare?_swap]
  cases b.compare? a with
  | none => rfl
  | some o => cases o <;> rfl

theorem equal_mirror (a b : Value) : (a.compare? b == some .eq) = (b.compare? a == some .eq) := by
  rw [compare?_swap]
  cases b.compare? a with
  | none => rfl
  | some o => cases o <;> rfl

/-- Two values compare alike from either side. -/
theorem comparisons_mirror (a b : Value) :
    (∀ r, Equates a b r ↔ BinaryOp.eq.apply a b = .ok (bool r)) ∧
      BinaryOp.eq.apply a b = BinaryOp.eq.apply b a ∧
      BinaryOp.same.apply a b = BinaryOp.same.apply b a ∧
      (BinaryOp.same.apply a b = .ok (bool true) → BinaryOp.eq.apply a b = .ok (bool true)) ∧
      BinaryOp.eq.apply null b = .ok (bool b.isNullish) ∧
      BinaryOp.eq.apply undefined b = .ok (bool b.isNullish) ∧
      BinaryOp.less.apply a b = BinaryOp.greater.apply b a ∧
      BinaryOp.atMost.apply a b = BinaryOp.atLeast.apply b a := by
  refine ⟨fun r => ?_, ?_, ?_, fun h => ?_, ?_, ?_, ?_, ?_⟩
  · simp [BinaryOp.apply, equates_iff]
  · simp only [BinaryOp.apply, looseEq_comm]
  · simp only [BinaryOp.apply, strictEq_comm]
  · simp only [BinaryOp.apply, Except.ok.injEq, bool.injEq] at h ⊢
    exact looseEq_of_strictEq h
  · simp only [BinaryOp.apply, looseEq_of_nullish (a := null) rfl]
  · simp only [BinaryOp.apply, looseEq_of_nullish (a := undefined) rfl]
  · simp only [BinaryOp.apply, less_mirror]
  · simp only [BinaryOp.apply, less_mirror, equal_mirror]

example : (bool true).looseEq (array 4 [null, undefined]) = false ∧
    (array 4 [string "1"]).looseEq (bool true) = true := by decide

end Value
end Templating
