import Mathlib.Data.List.Basic
import Templating.Eval

/-!
The functions in values. Operators, properties and spreads make values only of functions that are in
the values they are given, and fail in their own ways.
-/
namespace Templating

/-- A function is in a value. The names that a closure holds are not looked at. -/
inductive Value.Holds (f : Function) : Value → Prop where
  | function : Holds f (.function f)
  | item {id : Nat} {items : List Value} {v : Value} (hv : v ∈ items) (h : Holds f v) :
    Holds f (.array id items)
  | member {id : Nat} {members : Members} {m : String × Value} (hm : m ∈ members)
    (h : Holds f m.2) : Holds f (.object id members)

variable {P : Function → Prop}

def Value.Each (P : Function → Prop) (v : Value) : Prop := ∀ f, v.Holds f → P f

def Members.Each (P : Function → Prop) (members : Members) : Prop := ∀ m ∈ members, m.2.Each P

namespace Value

theorem each_undefined : Each P undefined := nofun

theorem each_null : Each P null := nofun

theorem each_bool (b : Bool) : Each P (.bool b) := nofun

theorem each_number (x : Float) : Each P (.number x) := nofun

theorem each_string (s : String) : Each P (.string s) := nofun

theorem each_function {f : Function} (h : P f) : Each P (.function f) := by
  rintro _ ⟨⟩
  exact h

theorem each_array {id : Nat} {items : List Value} (h : ∀ v ∈ items, v.Each P) :
    Each P (.array id items) := by
  rintro f (_ | ⟨hv, hf⟩)
  exact h _ hv f hf

theorem each_object {id : Nat} {members : Members} (h : members.Each P) :
    Each P (.object id members) := by
  rintro f (_ | _ | ⟨hm, hf⟩)
  exact h _ hm f hf

theorem Each.function {f : Function} (h : Each P (.function f)) : P f := h f .function

theorem Each.items {id : Nat} {items : List Value} (h : Each P (.array id items)) :
    ∀ v ∈ items, v.Each P := fun _ hv f hf => h f (.item hv hf)

theorem Each.objectMembers {id : Nat} {members : Members} (h : Each P (.object id members)) :
    members.Each P := fun _ hm f hf => h f (.member hm hf)

theorem Each.mono {Q : Function → Prop} {v : Value} (h : v.Each P) (himp : ∀ f, P f → Q f) :
    v.Each Q := fun f hf => himp f (h f hf)

theorem each_chars (s : String) : ∀ v ∈ chars s, v.Each P := by
  intro v hv
  obtain ⟨c, -, rfl⟩ := List.mem_map.mp hv
  exact each_string _

theorem each_getD {v? : Option Value} (h : ∀ v, v? = some v → v.Each P) :
    (v?.getD undefined).Each P := by
  cases v? with
  | none => exact each_undefined
  | some v => exact h v rfl

end Value

namespace Members

theorem Each.mono {Q : Function → Prop} {members : Members} (h : members.Each P)
    (himp : ∀ f, P f → Q f) : members.Each Q := fun m hm => (h m hm).mono himp

theorem each_nil : Each P [] := nofun

theorem each_cons {m : String × Value} {members : Members} (hm : m.2.Each P)
    (h : members.Each P) : Each P (m :: members) := List.forall_mem_cons.mpr ⟨hm, h⟩

theorem Each.lookup {members : Members} (h : members.Each P) {key : String} {v : Value}
    (hv : members.lookup key = some v) : v.Each P := by
  induction members with
  | nil => cases hv
  | cons m members ih =>
    rw [List.lookup_cons] at hv
    split at hv
    · cases hv
      exact h m List.mem_cons_self
    · exact ih (fun m hm => h m (List.mem_cons_of_mem _ hm)) hv

theorem Each.set {members : Members} (h : members.Each P) (key : String) {v : Value}
    (hv : v.Each P) : (members.set key v).Each P := by
  induction members with
  | nil => exact each_cons hv each_nil
  | cons m members ih =>
    obtain ⟨hm, hrest⟩ := List.forall_mem_cons.mp h
    rw [Members.set]
    split
    · exact each_cons hv hrest
    · exact each_cons hm (ih hrest)

theorem Each.setAll {members more : Members} (h : members.Each P) (hmore : more.Each P) :
    (members.setAll more).Each P := by
  induction more generalizing members with
  | nil => exact h
  | cons m more ih =>
    obtain ⟨hm, hrest⟩ := List.forall_mem_cons.mp hmore
    exact ih (h.set m.1 hm) hrest

end Members

namespace Value

variable {v : Value}

theorem Each.members (h : v.Each P) : v.members.Each P := by
  cases v with
  | object id ms => exact h.objectMembers
  | _ => exact Members.each_nil

theorem each_indexValue (i : Option Nat) : Each P (ArrayMethod.indexValue i) := by
  cases i with
  | none => exact each_number _
  | some i => exact each_number _

theorem Each.spliced (h : v.Each P) : ∀ u ∈ ArrayMethod.spliced v, u.Each P := by
  cases v with
  | array id items => exact h.items
  | _ => exact List.forall_mem_singleton.mpr h

theorem each_positioned {items : List Value} (h : ∀ u ∈ items, u.Each P) :
    Members.Each P (positioned items) := by
  intro m hm
  obtain ⟨i, hi, rfl⟩ := List.mem_mapIdx.mp hm
  exact h _ (List.getElem_mem hi)

theorem Each.entries (h : v.Each P) : Members.Each P v.entries := by
  cases v with
  | object id ms => exact h.objectMembers
  | array id items => exact each_positioned h.items
  | string s => exact each_positioned (each_chars s)
  | _ => exact Members.each_nil

theorem Each.spreadMembers (h : v.Each P) : Members.Each P v.spreadMembers := by
  cases v with
  | object id ms => exact h.objectMembers
  | array id items => exact each_positioned h.items
  | _ => exact Members.each_nil

theorem each_itemAt? {items : List Value} (h : ∀ u ∈ items, u.Each P) {key : String} {u : Value}
    (hu : itemAt? items key = some u) : u.Each P := by
  obtain ⟨i, -, hi⟩ := Option.bind_eq_some_iff.mp hu
  exact h u (List.mem_of_getElem? hi)

end Value

def EvalError.isCallDepth : EvalError → Bool
  | callDepth _ => true
  | _ => false

/-- A result as required, or a failure that is not of a call. -/
def Yields {α : Type} (Q : α → Prop) : Except EvalError α → Prop
  | .ok a => Q a
  | .error e => e.isCallDepth = false

namespace Value

variable {v : Value}

theorem Each.property (h : v.Each P) (key : String) : Yields (Each P) (v.property key) := by
  cases v with
  | undefined => rfl
  | null => rfl
  | object id ms => exact each_getD fun u hu => h.objectMembers.lookup hu
  | array id items =>
    simp only [Value.property]
    split
    · exact each_number _
    · exact each_getD fun u hu => each_itemAt? h.items hu
  | string s =>
    simp only [Value.property]
    split
    · exact each_number _
    · exact each_getD fun u hu => each_itemAt? (each_chars s) hu
  | _ => exact each_undefined

theorem Each.spreadItems (h : v.Each P) :
    Yields (fun items => ∀ u ∈ items, u.Each P) v.spreadItems := by
  cases v with
  | array id items => exact h.items
  | string s => exact each_chars s
  | _ => rfl

theorem Each.sequence (h : v.Each P) :
    Yields (fun items => ∀ u ∈ items, u.Each P) v.sequence := by
  cases v with
  | undefined => rfl
  | null => rfl
  | array id items => exact h.items
  | string s => exact each_chars s
  | object id ms =>
    simp only [Value.sequence]
    split_ifs
    · rfl
    · intro u hu
      obtain ⟨i, -, rfl⟩ := List.mem_map.mp hu
      exact each_getD fun u hu => h.objectMembers.lookup hu
  | _ => exact fun _ hu => by cases hu

theorem yields_hasKey (key : Value) : Yields (fun _ => True) (key.hasKey v) := by
  unfold hasKey
  dsimp only
  split <;> trivial

end Value

theorem UnaryOp.each_apply (op : UnaryOp) (v : Value) : (op.apply v).Each P := by
  cases op with
  | not => exact Value.each_bool _
  | minus => exact Value.each_number _
  | plus => exact Value.each_number _
  | typeOf => exact Value.each_string _

theorem BinaryOp.yields_apply (op : BinaryOp) {a b : Value} (ha : a.Each P) (hb : b.Each P) :
    Yields (Value.Each P) (op.apply a b) := by
  cases op with
  | add =>
    simp only [BinaryOp.apply]
    split
    · exact Value.each_string _
    · exact Value.each_number _
  | sub | mul | div | mod | pow => exact Value.each_number _
  | eq | notEq | same | notSame | less | atMost | greater | atLeast => exact Value.each_bool _
  | and | or | coalesce =>
    simp only [BinaryOp.apply]
    split
    · assumption
    · assumption
  | isKey =>
    have hkey : Yields (fun _ => True) (a.hasKey b) := Value.yields_hasKey a
    simp only [BinaryOp.apply]
    cases hresult : a.hasKey b with
    | ok holds => exact Value.each_bool _
    | error e =>
      rw [hresult] at hkey
      exact hkey

theorem each_global? (hP : ∀ f, P (.builtin f)) {name : String} {v : Value}
    (hv : global? name = some v) : v.Each P := by
  have hbuiltin (f : Builtin) : (builtinFunction f).Each P := Value.each_function (hP f)
  unfold global? at hv
  split at hv <;> cases hv
  all_goals
    first
    | exact hbuiltin _
    | exact Value.each_number _
    | (refine Value.each_object ?_
       simp [mathMembers, Members.Each, hbuiltin, Value.each_number])

/-- A name that nothing binds stands for a global of that name, or for nothing. -/
theorem Env.each_value {env : Env} (henv : Members.Each P env) (hP : ∀ f, P (.builtin f))
    (name : String) : (env.value name).Each P := by
  refine Value.each_getD fun v hv => ?_
  rcases Option.or_eq_some_iff.mp hv with hbound | ⟨-, hglobal⟩
  · exact henv.lookup hbound
  · exact each_global? hP hglobal

theorem mem_of_mem_between {α : Type} {items : List α} {start stop : Nat} {a : α}
    (h : a ∈ between items start stop) : a ∈ items :=
  List.mem_of_mem_take (List.mem_of_mem_drop h)

theorem mem_of_itemFrom?_eq_some {α : Type} {items : List α} {index : Int} {a : α}
    (h : itemFrom? items index = some a) : a ∈ items := by
  simp only [itemFrom?] at h
  split_ifs at h
  all_goals exact List.mem_of_getElem? h

theorem each_argument {args : List Value} (h : ∀ a ∈ args, a.Each P) (i : Nat) :
    (argument args i).Each P :=
  Value.each_getD fun _ hv => h _ (List.mem_of_getElem? hv)

theorem each_bindParams {env : Env} (henv : Members.Each P env) {args : List Value}
    (h : ∀ a ∈ args, a.Each P) (params : List String) :
    Members.Each P (bindParams env params args) := by
  intro m hm
  rcases List.mem_append.mp hm with hm | hm
  · obtain ⟨p, -, rfl⟩ := List.mem_map.mp (List.mem_reverse.mp hm)
    exact each_argument h p.2
  · exact henv m hm

theorem yields_callback {args : List Value} (h : ∀ a ∈ args, a.Each P) (method : String) :
    Yields P (callback args method) := by
  unfold callback
  split
  · exact (h _ List.mem_cons_self).function
  · rfl
  · rfl

end Templating
