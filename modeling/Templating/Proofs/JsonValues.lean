import Templating.Proofs.MemberKeys
import Templating.Proofs.NumberText
import Templating.Value.Equality
import Templating.Value.Json

/-!
Values that have gone through JSON. What comes back is the value without what JSON cannot hold:
members that are undefined or functions are gone, whatever else is undefined, a function or no
finite number is null, and all the rest is as it was, members in their order. Its JSON is that of
the value.
-/
namespace Templating

namespace Decimal

theorem Binary.natAbs_truncate (b : Binary) : b.truncate.natAbs = b.numerator / b.denominator := by
  have hcast : (b.numerator / b.denominator : Int) = (b.numerator / b.denominator : Nat) :=
    (Int.natCast_ediv _ _).symm
  rw [Binary.truncate, hcast]
  split
  · exact Int.natAbs_neg _
  · rfl

/-- An integral double is the double of its integer, but for the sign of a zero. -/
theorem ofInt_truncate {x : Float} {b : Binary} (h : Binary.ofFloat? x = some b)
    (integral : b.isIntegral = true) : ofInt b.truncate = if b.mantissa = 0 then 0 else x := by
  obtain ⟨hcanonical, hbits⟩ := ofFloat?_eq_some h
  have hdvd : b.denominator ∣ b.numerator := Nat.dvd_of_mod_eq_zero (beq_iff_eq.mp integral)
  split_ifs with hzero
  · rw [Binary.truncate_eq_zero hzero]
    decide
  · have hpos : 0 < b.mantissa := Nat.pos_of_ne_zero hzero
    have hwhole : 0 < b.numerator / b.denominator :=
      Nat.div_pos (Nat.le_of_dvd (Binary.numerator_pos hpos) hdvd) b.denominator_pos
    have hsign : decide (b.truncate < 0) = b.negative := by
      cases hnegative : b.negative with
      | false => simp [Binary.truncate, hnegative]; omega
      | true => simp [Binary.truncate, hnegative]; omega
    have htakes : b.Takes ((b.numerator / b.denominator : Nat) / (1 : Nat)) := by
      rw [Nat.cast_div_charZero hdvd, Nat.cast_one, div_one]
      exact Binary.takes_self hpos
    rw [ofInt, hsign, b.natAbs_truncate, nearest_of_takes hcanonical hpos one_pos htakes,
      ofBits_eq_of_toNat hbits]

end Decimal

open Decimal

namespace Value

mutual

/-- The value without what JSON cannot hold. -/
def kept : Value → Value
  | undefined => null
  | null => null
  | bool b => bool b
  | number x => if x.isFinite then number x else null
  | string s => string s
  | array id items => array id (itemsKept items)
  | object id members => object id (membersKept members)
  | function _ => null

def itemsKept : List Value → List Value
  | [] => []
  | item :: items => kept item :: itemsKept items

def membersKept : List (String × Value) → List (String × Value)
  | [] => []
  | (key, value) :: members =>
    if value.isOmitted then membersKept members else (key, kept value) :: membersKept members

end

theorem itemsKept_eq_map (items : List Value) : itemsKept items = items.map kept := by
  induction items with
  | nil => rfl
  | cons item items ih => simp [itemsKept, ih]

theorem membersKept_eq_map (members : Members) :
    membersKept members =
      (members.filter fun m => !m.2.isOmitted).map fun m => (m.1, kept m.2) := by
  induction members with
  | nil => rfl
  | cons m members ih =>
    obtain ⟨key, value⟩ := m
    cases h : value.isOmitted with
    | false => simp [membersKept, h, ih]
    | true => simp [membersKept, h, ih]

mutual

/-- Data of the same content, members in the same order. Arrays and objects may be others, and of
two equal zeros the signs may differ. -/
inductive Alike : Value → Value → Prop
  | null : Alike null null
  | bool (b : Bool) : Alike (bool b) (bool b)
  | number {x y : Float} (h : (x == y) = true) : Alike (number x) (number y)
  | string (s : String) : Alike (string s) (string s)
  | array {id other : Nat} {items others : List Value} (h : ItemsAlike items others) :
    Alike (array id items) (array other others)
  | object {id other : Nat} {members others : List (String × Value)}
    (h : MembersAlike members others) : Alike (object id members) (object other others)

inductive ItemsAlike : List Value → List Value → Prop
  | nil : ItemsAlike [] []
  | cons {v w : Value} {vs ws : List Value} (head : Alike v w) (tail : ItemsAlike vs ws) :
    ItemsAlike (v :: vs) (w :: ws)

inductive MembersAlike : List (String × Value) → List (String × Value) → Prop
  | nil : MembersAlike [] []
  | cons {key : String} {v w : Value} {ms ns : List (String × Value)} (head : Alike v w)
    (tail : MembersAlike ms ns) : MembersAlike ((key, v) :: ms) ((key, w) :: ns)

end

/-- Values built only from null, truth values, finite numbers, texts, arrays and objects. No object
has a key twice. -/
inductive IsData : Value → Prop
  | null : IsData null
  | bool (b : Bool) : IsData (bool b)
  | number {x : Float} (finite : x.isFinite = true) : IsData (number x)
  | string (s : String) : IsData (string s)
  | array (id : Nat) {items : List Value} (h : ∀ v ∈ items, IsData v) : IsData (array id items)
  | object (id : Nat) {members : Members} (distinct : members.Distinct)
    (h : ∀ m ∈ members, IsData m.2) : IsData (object id members)

theorem IsData.isOmitted_eq_false {v : Value} (h : v.IsData) : v.isOmitted = false := by
  cases h with
  | null | bool | number | string | array | object => rfl

theorem IsData.kept_eq {v : Value} (h : v.IsData) : v.kept = v := by
  induction h with
  | null | bool | string => rfl
  | number finite => simp [kept, finite]
  | array id _ ih => rw [kept, itemsKept_eq_map, List.map_congr_left ih, List.map_id']
  | @object id members _ hdata ih =>
    have hall : members.filter (fun m => !m.2.isOmitted) = members :=
      List.filter_eq_self.mpr fun m hm => by simp [(hdata m hm).isOmitted_eq_false]
    have hsame : ∀ m ∈ members, (m.1, kept m.2) = m := fun m hm => by rw [ih m hm]
    rw [kept, membersKept_eq_map, hall, List.map_congr_left hsame, List.map_id']

/-- The value made of the JSON of `v`, with numbers from `next` on for its arrays and objects. -/
def throughJson (v : Value) (next : Nat) : Value := ((ofJson v.toJson).run next).1

theorem jsonNumber_of_mantissa {x : Float} {b : Binary} (hb : Binary.ofFloat? x = some b)
    (hzero : b.mantissa = 0) : jsonNumber x = .integer 0 := by
  have hnumerator : b.numerator = 0 := by simp [Binary.numerator, hzero]
  simp [jsonNumber, hb, Binary.isIntegral, Binary.truncate, hnumerator]

/-- A finite number comes back equal, and as one of the same JSON. -/
theorem throughJson_number (x : Float) (next : Nat) :
    x.isFinite = false ∧ throughJson (number x) next = null ∧ jsonNumber x = .null ∨
      x.isFinite = true ∧ ∃ y, throughJson (number x) next = number y ∧ (x == y) = true ∧
        jsonNumber y = jsonNumber x := by
  have hself : x.isFinite = true → (x == x) = true := fun hfinite => by
    rw [Float.beq_self_iff]
    rintro rfl
    exact absurd hfinite (by decide)
  rw [isFinite_eq_isSome] at hself ⊢
  cases hb : Binary.ofFloat? x with
  | none =>
    have hjson : jsonNumber x = .null := by simp only [jsonNumber, hb]
    have hback : throughJson (number x) next = ((ofJson (jsonNumber x)).run next).1 := rfl
    rw [hjson] at hback
    exact .inl ⟨rfl, hback, hjson⟩
  | some b =>
    refine .inr ⟨rfl, ?_⟩
    have hequal := hself (by rw [hb]; rfl)
    have hback : throughJson (number x) next = ((ofJson (jsonNumber x)).run next).1 := rfl
    by_cases hinteger :
        b.isIntegral && decide (b.numerator / b.denominator < 9000000000000000)
    · have hjson : jsonNumber x = .integer b.truncate := by
        simp only [jsonNumber, hb, if_pos hinteger]
      rw [hjson] at hback
      refine ⟨ofInt b.truncate, hback, ?_⟩
      rw [ofInt_truncate hb (Bool.and_eq_true_iff.mp hinteger).1]
      -- a zero of either sign comes back as the positive one
      split_ifs with hzero
      · have hplus : Binary.ofFloat? 0 = some ⟨false, 0, minExponent⟩ := by decide
        rw [jsonNumber_of_mantissa hb hzero, jsonNumber_of_mantissa hplus rfl]
        rcases eq_zero_of_mantissa hb hzero with rfl | rfl
        · exact ⟨by decide, rfl⟩
        · exact ⟨by decide, rfl⟩
      · exact ⟨hequal, rfl⟩
    · have hjson : jsonNumber x = .number x := by
        simp only [jsonNumber, hb, if_neg hinteger]
      rw [hjson] at hback
      exact ⟨x, hback, hequal, rfl⟩

mutual

/-- What comes back is what JSON keeps. -/
theorem kept_alike : ∀ (v : Value) (next : Nat), Alike v.kept (v.throughJson next)
  | undefined, _ => .null
  | null, _ => .null
  | bool b, _ => .bool b
  | number x, next => by
    rw [kept]
    rcases throughJson_number x next with ⟨hfinite, hback, -⟩ | ⟨hfinite, y, hback, hequal, -⟩
    · rw [hback, hfinite]
      exact .null
    · rw [hback, hfinite]
      exact .number hequal
  | string s, _ => .string s
  | array _ items, next => .array (itemsKept_alike items next)
  | object _ members, next => .object (membersKept_alike members next)
  | function _, _ => .null

theorem itemsKept_alike : ∀ (items : List Value) (next : Nat),
    ItemsAlike (itemsKept items) ((ofItems (itemsJson items)).run next).1
  | [], _ => .nil
  | item :: items, next => .cons (kept_alike item next) (itemsKept_alike items _)

theorem membersKept_alike : ∀ (members : List (String × Value)) (next : Nat),
    MembersAlike (membersKept members) ((ofMembers (membersJson members)).run next).1
  | [], _ => .nil
  | (key, value) :: members, next => by
    rw [membersKept, membersJson]
    split_ifs
    · exact membersKept_alike members next
    · exact .cons (kept_alike value next) (membersKept_alike members _)

end

theorem Alike.isOmitted_eq_false {v w : Value} (h : Alike v w) : w.isOmitted = false := by
  cases h with
  | null | bool | number | string | array | object => rfl

mutual

/-- The JSON of what comes back is that of the value. -/
theorem toJson_throughJson : ∀ (v : Value) (next : Nat), (v.throughJson next).toJson = v.toJson
  | undefined, _ | null, _ | bool _, _ | string _, _ | function _, _ => rfl
  | number x, next => by
    rcases throughJson_number x next with ⟨-, hback, hjson⟩ | ⟨-, y, hback, -, hjson⟩
    · rw [hback, toJson, toJson, hjson]
    · rw [hback, toJson, toJson, hjson]
  | array _ items, next => congrArg Json.array (itemsJson_ofItems items next)
  | object _ members, next => congrArg Json.object (membersJson_ofMembers members next)

theorem itemsJson_ofItems : ∀ (items : List Value) (next : Nat),
    itemsJson ((ofItems (itemsJson items)).run next).1 = itemsJson items
  | [], _ => rfl
  | item :: items, next =>
    congrArg₂ List.cons (toJson_throughJson item next) (itemsJson_ofItems items _)

theorem membersJson_ofMembers : ∀ (members : List (String × Value)) (next : Nat),
    membersJson ((ofMembers (membersJson members)).run next).1 = membersJson members
  | [], _ => rfl
  | (key, value) :: members, next => by
    rw [membersJson]
    split_ifs
    · exact membersJson_ofMembers members next
    · have hkept := (kept_alike value next).isOmitted_eq_false
      change membersJson ((key, value.throughJson next) ::
        ((ofMembers (membersJson members)).run ((ofJson value.toJson).run next).2).1) = _
      rw [membersJson, hkept, if_neg Bool.false_ne_true, toJson_throughJson value next,
        membersJson_ofMembers members _]

end

theorem ItemsAlike.itemsEq {items others : List Value} (h : ItemsAlike items others)
    (hitems : ∀ v ∈ items, ∀ w, Alike v w → v.contentEq w = true) :
    Value.itemsEq items others = true := by
  induction items generalizing others with
  | nil =>
    cases h
    rfl
  | cons item items ih =>
    cases h with
    | cons head tail =>
      have hfirst := hitems item List.mem_cons_self _ head
      have hrest := ih tail fun v hv => hitems v (List.mem_cons_of_mem _ hv)
      simp [Value.itemsEq, hfirst, hrest]

theorem MembersAlike.map_key {members others : Members} (h : MembersAlike members others) :
    others.map (·.1) = members.map (·.1) := by
  induction members generalizing others with
  | nil =>
    cases h
    rfl
  | cons m members ih =>
    cases h with
    | cons head tail => simp [ih tail]

theorem MembersAlike.exists_mem {members others : Members} (h : MembersAlike members others)
    {m : String × Value} (hm : m ∈ members) : ∃ w, (m.1, w) ∈ others ∧ Alike m.2 w := by
  induction members generalizing others with
  | nil => cases hm
  | cons first members ih =>
    cases h with
    | cons head tail =>
      rcases List.mem_cons.mp hm with rfl | hm
      · exact ⟨_, List.mem_cons_self, head⟩
      · obtain ⟨w, hw, halike⟩ := ih tail hm
        exact ⟨w, List.mem_cons_of_mem _ hw, halike⟩

theorem MembersAlike.distinct {members others : Members} (h : MembersAlike members others)
    (distinct : members.Distinct) : others.Distinct := by
  rw [Members.Distinct, h.map_key]
  exact distinct

theorem membersEq_of_forall {members others : Members}
    (h : ∀ m ∈ members, ∃ w, others.lookup m.1 = some w ∧ m.2.contentEq w = true) :
    membersEq members others = true := by
  induction members with
  | nil => rfl
  | cons m members ih =>
    obtain ⟨w, hw, hequal⟩ := h m List.mem_cons_self
    have hrest := ih fun n hn => h n (List.mem_cons_of_mem _ hn)
    simp [membersEq, hw, hequal, hrest]

/-- Alike data are equal. -/
theorem IsData.contentEq {v w : Value} (hv : v.IsData) (h : Alike v w) : v.contentEq w = true := by
  induction hv generalizing w with
  | null =>
    cases h
    rfl
  | bool b =>
    cases h
    simp [Value.contentEq]
  | number _ =>
    cases h with
    | number hequal => exact hequal
  | string s =>
    cases h
    simp [Value.contentEq]
  | array id _ ih =>
    cases h with
    | array hitems => exact hitems.itemsEq fun v hv w => ih v hv
  | @object id members distinct _ ih =>
    cases h with
    | @object _ _ _ others hmembers =>
      have hlength : members.length = others.length := by
        simpa using congrArg List.length hmembers.map_key.symm
      have hfound : ∀ m ∈ members, ∃ w, others.lookup m.1 = some w ∧ m.2.contentEq w = true := by
        intro m hm
        obtain ⟨w, hw, halike⟩ := hmembers.exists_mem hm
        exact ⟨w, (hmembers.distinct distinct).lookup hw, ih m hm halike⟩
      simp [Value.contentEq, hlength, membersEq_of_forall hfound]

/-- Through JSON comes what JSON keeps of a value, so that data comes back equal; and the JSON of
what comes back is the same. -/
theorem throughJson_keeps (v : Value) (next : Nat) :
    Alike v.kept (v.throughJson next) ∧
      (v.IsData → Alike v (v.throughJson next) ∧ v.contentEq (v.throughJson next) = true) ∧
      (v.throughJson next).toJson = v.toJson := by
  refine ⟨kept_alike v next, fun hdata => ?_, toJson_throughJson v next⟩
  have halike := kept_alike v next
  rw [hdata.kept_eq] at halike
  exact ⟨halike, hdata.contentEq halike⟩

example :
    (object 0 [("f", function (.builtin .floor)), ("n", number nan), ("u", undefined)]).kept =
      object 0 [("n", null)] := rfl

def measurements : Value := object 4 [("width", number 1.5), ("at", array 5 [null, number (-0)])]

theorem measurements_through_json :
    measurements.IsData ∧ Alike measurements (measurements.throughJson 6) ∧
      measurements.contentEq (measurements.throughJson 6) = true ∧
      (measurements.throughJson 6).toJson = measurements.toJson := by
  have hitems : ∀ v ∈ [null, number (-0)], v.IsData := by
    intro v hv
    rcases List.mem_pair.mp hv with rfl | rfl
    · exact .null
    · exact .number (by decide)
  have hmembers : ∀ m ∈ [("width", number 1.5), ("at", array 5 [null, number (-0)])],
      m.2.IsData := by
    intro m hm
    rcases List.mem_pair.mp hm with rfl | rfl
    · exact .number (by decide)
    · exact .array 5 hitems
  have hdata : measurements.IsData := .object 4 (by decide) hmembers
  obtain ⟨-, hback, hjson⟩ := throughJson_keeps measurements 6
  exact ⟨hdata, (hback hdata).1, (hback hdata).2, hjson⟩

end Value
end Templating
