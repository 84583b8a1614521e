import Mathlib.Data.List.Nodup
import Templating.Value

/-!
Keys of members. Members that are set one after the other have distinct keys, and all members of
distinct keys come about like that; of such members each is found under its key.
-/
namespace Templating.Members

def Distinct (members : Members) : Prop := (members.map (·.1)).Nodup

instance (members : Members) : Decidable members.Distinct :=
  inferInstanceAs (Decidable (members.map (·.1)).Nodup)

variable {members more : Members} {key : String} {m : String × Value}

theorem distinct_nil : Distinct [] := List.nodup_nil

theorem distinct_cons :
    Distinct (m :: members) ↔ m.1 ∉ members.map (·.1) ∧ members.Distinct := List.nodup_cons

/-- Keys stay where they are. -/
theorem keys_set (members : Members) (key : String) (value : Value) :
    members.map (·.1) <+: (members.set key value).map (·.1) := by
  induction members with
  | nil => exact List.nil_prefix
  | cons m members ih =>
    obtain ⟨k, v⟩ := m
    rw [Members.set]
    split_ifs with hk
    · simp [hk]
    · exact (List.prefix_cons_inj _).mpr ih

theorem mem_keys_set {other : String} {value : Value} :
    other ∈ (members.set key value).map (·.1) ↔ other = key ∨ other ∈ members.map (·.1) := by
  induction members with
  | nil => simp [Members.set]
  | cons m members ih =>
    obtain ⟨k, v⟩ := m
    rw [Members.set]
    split_ifs with hk
    · simp [hk]
    · simp only [List.map_cons, List.mem_cons, ih]
      tauto

theorem Distinct.set (h : members.Distinct) (key : String) (value : Value) :
    (members.set key value).Distinct := by
  induction members with
  | nil => exact List.nodup_singleton key
  | cons m members ih =>
    obtain ⟨k, v⟩ := m
    obtain ⟨hfresh, hrest⟩ := distinct_cons.mp h
    rw [Members.set]
    split_ifs with hk
    · subst hk
      exact distinct_cons.mpr ⟨hfresh, hrest⟩
    · refine distinct_cons.mpr ⟨fun hmem => ?_, ih hrest⟩
      rcases mem_keys_set.mp hmem with heq | hmem
      · exact hk heq
      · exact hfresh hmem

theorem Distinct.setAll (h : members.Distinct) (more : Members) :
    (members.setAll more).Distinct := by
  induction more generalizing members with
  | nil => exact h
  | cons m more ih => exact ih (h.set m.1 m.2)

theorem set_of_not_mem (h : key ∉ members.map (·.1)) (value : Value) :
    members.set key value = members ++ [(key, value)] := by
  induction members with
  | nil => rfl
  | cons m members ih =>
    obtain ⟨k, v⟩ := m
    have hk : k ≠ key := fun heq => h (by simp [heq])
    have hrest : key ∉ members.map (·.1) := fun hmem => h (List.mem_cons_of_mem _ hmem)
    rw [Members.set, if_neg hk, ih hrest, List.cons_append]

theorem setAll_of_distinct (h : Distinct (members ++ more)) :
    members.setAll more = members ++ more := by
  induction more generalizing members with
  | nil => exact (List.append_nil members).symm
  | cons m more ih =>
    have hassoc : members ++ m :: more = (members ++ [m]) ++ more := by simp
    have hfresh : m.1 ∉ members.map (·.1) := by
      rw [Distinct, List.map_append, List.nodup_append] at h
      exact fun hmem => h.2.2 m.1 hmem m.1 (by simp) rfl
    rw [hassoc] at h ⊢
    rw [← ih h, ← set_of_not_mem hfresh m.2]
    rfl

/-- Members have distinct keys when they are set one after the other, and only then. -/
theorem distinct_iff : members.Distinct ↔ ∃ pairs, members = setAll [] pairs := by
  constructor
  · intro h
    have hall : Distinct ([] ++ members) := h
    exact ⟨members, (setAll_of_distinct hall).symm⟩
  · rintro ⟨pairs, rfl⟩
    exact distinct_nil.setAll pairs

theorem Distinct.lookup (h : members.Distinct) (hm : m ∈ members) :
    members.lookup m.1 = some m.2 := by
  induction members with
  | nil => cases hm
  | cons first members ih =>
    obtain ⟨hfresh, hrest⟩ := distinct_cons.mp h
    rcases List.mem_cons.mp hm with rfl | hm
    · rw [List.lookup_cons, beq_self_eq_true]
    · have hne : m.1 ≠ first.1 := fun heq => hfresh (heq ▸ List.mem_map.mpr ⟨m, hm, rfl⟩)
      rw [List.lookup_cons, beq_false_of_ne hne]
      exact ih hrest hm

end Templating.Members
