import Templating.Proofs.ItemKeys
import Templating.Proofs.MemberKeys
import Templating.Render.Activation

/-!
What loops visit of a value. The keys that are listed of an array, a text or an object are distinct,
and reading a listed key gives what is listed with it. Arrays and texts are visited in the order of
their positions, by the texts of these or by their numbers, up to the length that is read of them.
-/
namespace Templating.Value
open Decimal

theorem map_key_positioned (values : List Value) :
    (positioned values).map (·.1) = (List.range values.length).map toString := by
  apply List.ext_getElem
  · simp [positioned]
  · intro i hi hi'
    simp [positioned]

theorem nodup_positions (n : Nat) : ((List.range n).map (toString : Nat → String)).Nodup :=
  List.Nodup.map (fun _ _ h => Nat.repr_inj.mp h) List.nodup_range

/-- The key of a position reads the item there. -/
theorem itemAt?_toString {values : List Value} {i : Nat} {v : Value} (hword : i < 2 ^ 64)
    (hitem : values[i]? = some v) : itemAt? values (toString i) = some v :=
  itemAt?_eq_some_iff.mpr ⟨i, hword, .refl _, hitem⟩

theorem mem_positioned {values : List Value} {m : String × Value} :
    m ∈ positioned values ↔ ∃ i : Nat, toString i = m.1 ∧ values[i]? = some m.2 := by
  obtain ⟨key, v⟩ := m
  simp [positioned, List.getElem?_eq_some_iff]

theorem length_chars (s : String) : (chars s).length = s.length := by
  rw [chars, List.length_map, String.length_toList]

/-- Both kinds of loop visit the values in their order, one by the texts of their positions and one
by the numbers, and there are as many as the length says. -/
structure VisitedAs (x : Value) (values : List Value) : Prop where
  keys : x.listedKeys = (List.range values.length).map toString
  length : x.property "length" = .ok (nat values.length)
  entries : Run.visits .entries x = .ok (values.mapIdx fun i v => (string (toString i), v))
  items : Run.visits .items x = .ok (values.mapIdx fun i v => (nat i, v))

theorem visits_positioned (values : List Value) :
    (positioned values).map (fun (key, v) => (string key, v)) =
      values.mapIdx fun i v => (string (toString i), v) := by
  apply List.ext_getElem
  · simp [positioned]
  · intro i hi hi'
    simp [positioned]

theorem visitedAs_array (id : Nat) (items : List Value) : VisitedAs (array id items) items where
  keys := map_key_positioned items
  length := rfl
  entries := congrArg Except.ok (visits_positioned items)
  items := rfl

theorem visitedAs_string (s : String) : VisitedAs (string s) (chars s) where
  keys := map_key_positioned (chars s)
  length := congrArg (fun n => Except.ok (nat n)) (length_chars s).symm
  entries := congrArg Except.ok (visits_positioned (chars s))
  items := rfl

/-- Arrays, texts and objects as they can be: a length is a word of 64 bits, and the members of an
object are set one after the other. -/
inductive Composite : Value → Prop
  | array (id : Nat) {items : List Value} (fits : items.length ≤ 2 ^ 64) :
    Composite (array id items)
  | string {s : String} (fits : s.length ≤ 2 ^ 64) : Composite (string s)
  | object (id : Nat) (pairs : Members) : Composite (object id (Members.setAll [] pairs))

/-- What is asked of an object is that no key is there twice. -/
theorem composite_object_iff {id : Nat} {members : Members} :
    (object id members).Composite ↔ members.Distinct := by
  rw [Members.distinct_iff]
  constructor
  · intro h
    cases h with
    | object _ pairs => exact ⟨pairs, rfl⟩
  · rintro ⟨pairs, rfl⟩
    exact .object id pairs

theorem Composite.distinct {x : Value} (h : x.Composite) : x.listedKeys.Nodup := by
  cases h with
  | array id _ =>
    rw [(visitedAs_array id _).keys]
    exact nodup_positions _
  | string _ =>
    rw [(visitedAs_string _).keys]
    exact nodup_positions _
  | object id pairs => exact Members.distinct_nil.setAll pairs

theorem property_of_mem_positioned {x : Value} {values : List Value}
    (hread : ∀ key, key ≠ "length" → x.property key = .ok ((itemAt? values key).getD undefined))
    (fits : values.length ≤ 2 ^ 64) {m : String × Value} (hm : m ∈ positioned values) :
    x.property m.1 = .ok m.2 := by
  obtain ⟨i, hkey, hitem⟩ := mem_positioned.mp hm
  have hlt : i < values.length := (List.getElem?_eq_some_iff.mp hitem).1
  have hword : i < 2 ^ 64 := hlt.trans_le fits
  rw [← hkey, hread _ ((Spells.refl _).ne_length hword), itemAt?_toString hword hitem,
    Option.getD_some]

/-- A key that is listed reads the value listed with it. -/
theorem Composite.reads {x : Value} (h : x.Composite) {m : String × Value} (hm : m ∈ x.entries) :
    x.property m.1 = .ok m.2 := by
  cases h with
  | array id fits =>
    exact property_of_mem_positioned (fun key hkey => by rw [property, if_neg hkey]) fits hm
  | @string s fits =>
    have hlength : (chars s).length ≤ 2 ^ 64 := length_chars s ▸ fits
    exact property_of_mem_positioned (fun key hkey => by rw [property, if_neg hkey]) hlength hm
  | object id pairs =>
    have hfound := (Members.distinct_nil.setAll pairs).lookup hm
    rw [property, hfound, Option.getD_some]

/-- Loops, keys, reading and the length of a value agree. -/
theorem traversals_agree {x : Value} (h : x.Composite) :
    x.listedKeys.Nodup ∧ (∀ m ∈ x.entries, x.property m.1 = .ok m.2) ∧
      (x.object? = none → ∃ values, x.VisitedAs values) := by
  refine ⟨h.distinct, fun m hm => h.reads hm, fun hobject => ?_⟩
  cases h with
  | array id _ => exact ⟨_, visitedAs_array id _⟩
  | string _ => exact ⟨_, visitedAs_string _⟩
  | object id pairs => cases hobject

/-- A text whose characters take one, two and three bytes. -/
theorem visits_of_accents :
    (string "né€").Composite ∧ (string "né€").listedKeys.Nodup ∧
      (∀ m ∈ (string "né€").entries, (string "né€").property m.1 = .ok m.2) ∧
      ∃ values, (string "né€").VisitedAs values := by
  have hfits : (string "né€").Composite := .string (by decide)
  obtain ⟨hkeys, hreads, hvisits⟩ := traversals_agree hfits
  exact ⟨hfits, hkeys, hreads, hvisits rfl⟩

end Templating.Value
