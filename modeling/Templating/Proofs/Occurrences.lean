import Mathlib.Order.Bounds.Basic
import Templating.Eval.Argument
import Templating.Text.Occurrence

/-!
Where one text begins in another: the first and the last index that are looked for are the least and
the greatest such place.
-/
namespace Templating.Text

variable {p cs : List Char} {i k : Nat}

/-- The text `p` stands in `cs` from place `k` on. The empty text also stands at the end. -/
structure BeginsAt (p cs : List Char) (k : Nat) : Prop where
  within : k ≤ cs.length
  begins : p <+: cs.drop k

theorem beginsAt_zero : BeginsAt p cs 0 ↔ p <+: cs :=
  ⟨fun h => h.begins, fun h => ⟨Nat.zero_le _, h⟩⟩

theorem beginsAt_succ {c : Char} : BeginsAt p (c :: cs) (k + 1) ↔ BeginsAt p cs k :=
  ⟨fun h => ⟨Nat.le_of_succ_le_succ h.within, h.begins⟩,
    fun h => ⟨Nat.succ_le_succ h.within, h.begins⟩⟩

theorem beginsAt_nil : BeginsAt p [] k ↔ p = [] ∧ k = 0 := by
  constructor
  · intro h
    have hp : p <+: [] := by simpa using h.begins
    exact ⟨List.prefix_nil.mp hp, Nat.le_zero.mp h.within⟩
  · rintro ⟨rfl, rfl⟩
    exact ⟨le_refl _, List.prefix_refl _⟩

theorem BeginsAt.length_le (h : BeginsAt p cs k) : k + p.length ≤ cs.length := by
  have hlength := h.begins.length_le
  have hwithin := h.within
  rw [List.length_drop] at hlength
  omega

theorem beginsAt_drop {start : Nat} (hstart : start ≤ cs.length) :
    BeginsAt p (cs.drop start) k ↔ BeginsAt p cs (start + k) := by
  constructor
  · intro h
    have hwithin := h.within
    rw [List.length_drop] at hwithin
    exact ⟨by omega, by simpa [List.drop_drop] using h.begins⟩
  · intro h
    have hwithin := h.within
    exact ⟨by rw [List.length_drop]; omega, by simpa [List.drop_drop] using h.begins⟩

theorem between_add (cs : List Char) (k length : Nat) :
    between cs k (k + length) = (cs.drop k).take length := by
  rw [between, List.take_drop]

/-- The text stands where the part of its length is the text. -/
theorem beginsAt_iff_between :
    BeginsAt p cs k ↔ k ≤ cs.length ∧ between cs k (k + p.length) = p := by
  rw [between_add]
  constructor
  · intro h
    exact ⟨h.within, (List.prefix_iff_eq_take.mp h.begins).symm⟩
  · rintro ⟨hwithin, hpart⟩
    exact ⟨hwithin, List.prefix_iff_eq_take.mpr hpart.symm⟩

theorem BeginsAt.splits (h : BeginsAt p cs k) :
    cs = cs.take k ++ p ++ cs.drop (k + p.length) := by
  obtain ⟨rest, hrest⟩ := h.begins
  have hafter : cs.drop (k + p.length) = rest := by
    rw [← List.drop_drop, ← hrest, List.drop_left]
  rw [hafter, List.append_assoc, hrest, List.take_append_drop]

theorem isLeast_succ {c : Char} (hzero : ¬BeginsAt p (c :: cs) 0)
    (h : IsLeast {k | BeginsAt p cs k} i) : IsLeast {k | BeginsAt p (c :: cs) k} (i + 1) := by
  refine ⟨beginsAt_succ.mpr h.1, fun k hk => ?_⟩
  cases k with
  | zero => exact absurd hk hzero
  | succ k => exact Nat.succ_le_succ (h.2 (beginsAt_succ.mp hk))

theorem firstIndex?_isLeast (h : firstIndex? p cs = some i) :
    IsLeast {k | BeginsAt p cs k} i := by
  induction cs generalizing i with
  | nil =>
    simp only [firstIndex?, List.isEmpty_iff, Option.ite_none_right_eq_some, Option.some.injEq] at h
    obtain ⟨rfl, rfl⟩ := h
    exact ⟨beginsAt_nil.mpr ⟨rfl, rfl⟩, fun k _ => Nat.zero_le k⟩
  | cons c cs ih =>
    rw [firstIndex?] at h
    split_ifs at h with hp
    · cases h
      exact ⟨beginsAt_zero.mpr (List.isPrefixOf_iff_prefix.mp hp), fun k _ => Nat.zero_le k⟩
    · obtain ⟨j, hj, rfl⟩ := Option.map_eq_some_iff.mp h
      exact isLeast_succ (fun h => hp (List.isPrefixOf_iff_prefix.mpr (beginsAt_zero.mp h))) (ih hj)

theorem firstIndex?_eq_none_iff : firstIndex? p cs = none ↔ ∀ k, ¬BeginsAt p cs k := by
  induction cs with
  | nil =>
    simp only [firstIndex?, beginsAt_nil]
    split_ifs with hp
    · simp [List.isEmpty_iff.mp hp]
    · simp [List.isEmpty_iff] at hp ⊢
      exact hp
  | cons c cs ih =>
    rw [firstIndex?]
    split_ifs with hp
    · refine iff_of_false (by simp) fun h => h 0 ?_
      exact beginsAt_zero.mpr (List.isPrefixOf_iff_prefix.mp hp)
    · have hzero : ¬BeginsAt p (c :: cs) 0 := fun h =>
        hp (List.isPrefixOf_iff_prefix.mpr (beginsAt_zero.mp h))
      rw [Option.map_eq_none_iff, ih]
      refine ⟨fun h k => ?_, fun h k hk => h (k + 1) (beginsAt_succ.mpr hk)⟩
      cases k with
      | zero => exact hzero
      | succ k => exact fun hk => h k (beginsAt_succ.mp hk)

theorem firstIndex?_eq_some_iff : firstIndex? p cs = some i ↔ IsLeast {k | BeginsAt p cs k} i := by
  refine ⟨firstIndex?_isLeast, fun h => ?_⟩
  cases hfirst : firstIndex? p cs with
  | none => exact absurd h.1 (firstIndex?_eq_none_iff.mp hfirst i)
  | some j => rw [(firstIndex?_isLeast hfirst).unique h]

theorem occurs_iff : occurs p cs = true ↔ ∃ k, BeginsAt p cs k := by
  rw [occurs_eq_isSome_firstIndex?, Option.isSome_iff_ne_none, ne_eq, firstIndex?_eq_none_iff,
    not_forall_not]

theorem lastIndex?_eq_none_iff : lastIndex? p cs = none ↔ ∀ k, ¬BeginsAt p cs k := by
  induction cs with
  | nil =>
    change firstIndex? p [] = none ↔ _
    exact firstIndex?_eq_none_iff
  | cons c cs ih =>
    rw [lastIndex?]
    cases hlast : lastIndex? p cs with
    | some i =>
      refine iff_of_false (by simp) fun h => ?_
      have hnone : ∀ k, ¬BeginsAt p cs k := fun k hk => h (k + 1) (beginsAt_succ.mpr hk)
      rw [ih.mpr hnone] at hlast
      cases hlast
    | none =>
      have hnone := ih.mp hlast
      simp only [ite_eq_right_iff, reduceCtorEq, imp_false, List.isPrefixOf_iff_prefix,
        ← beginsAt_zero]
      refine ⟨fun h k => ?_, fun h => h 0⟩
      cases k with
      | zero => exact h
      | succ k => exact fun hk => hnone k (beginsAt_succ.mp hk)

theorem isSome_lastIndex?_iff : (lastIndex? p cs).isSome = true ↔ ∃ k, BeginsAt p cs k := by
  rw [Option.isSome_iff_ne_none, ne_eq, lastIndex?_eq_none_iff, not_forall_not]

theorem lastIndex?_isGreatest (h : lastIndex? p cs = some i) :
    IsGreatest {k | BeginsAt p cs k} i := by
  induction cs generalizing i with
  | nil =>
    have hfirst : firstIndex? p [] = some i := h
    obtain ⟨hbegins, -⟩ := firstIndex?_isLeast hfirst
    refine ⟨hbegins, fun k hk => ?_⟩
    rw [(beginsAt_nil.mp hk).2]
    exact Nat.zero_le i
  | cons c cs ih =>
    rw [lastIndex?] at h
    cases hlast : lastIndex? p cs with
    | some j =>
      rw [hlast] at h
      cases h
      obtain ⟨hbegins, hgreatest⟩ := ih hlast
      refine ⟨beginsAt_succ.mpr hbegins, fun k hk => ?_⟩
      cases k with
      | zero => exact Nat.zero_le _
      | succ k => exact Nat.succ_le_succ (hgreatest (beginsAt_succ.mp hk))
    | none =>
      simp only [hlast, Option.ite_none_right_eq_some, Option.some.injEq,
        List.isPrefixOf_iff_prefix] at h
      obtain ⟨hp, rfl⟩ := h
      refine ⟨beginsAt_zero.mpr hp, fun k hk => ?_⟩
      cases k with
      | zero => exact le_refl 0
      | succ k => exact absurd (beginsAt_succ.mp hk) (lastIndex?_eq_none_iff.mp hlast k)

theorem pieces_singleton (x : Char) (cs : List Char) : pieces [x] cs = cs.splitOn x := by
  change piecesFrom [x] 0 cs = cs.splitOn x
  induction cs with
  | nil => rfl
  | cons c cs ih =>
    rw [piecesFrom, List.splitOn_cons_eq_if_modifyHead, ← ih]
    by_cases hc : c = x
    · simp [hc]
    · obtain ⟨s, ss, h⟩ := List.exists_cons_of_ne_nil (List.splitOn_ne_nil x cs)
      simp [ih, h, consFirst, hc, Ne.symm hc]

theorem not_mem_of_mem_pieces {x : Char} {s : List Char} (h : s ∈ pieces [x] cs) : x ∉ s := by
  rw [pieces_singleton] at h
  induction cs generalizing s with
  | nil => simp_all
  | cons c cs ih =>
    obtain ⟨t, ts, hsplit⟩ := List.exists_cons_of_ne_nil (List.splitOn_ne_nil x cs)
    rw [List.splitOn_cons_eq_if_modifyHead] at h
    split_ifs at h with hc
    · rcases List.mem_cons.mp h with rfl | h
      · exact List.not_mem_nil
      · exact ih h
    · rw [hsplit, List.modifyHead_cons] at h
      rcases List.mem_cons.mp h with rfl | h
      · have ht : x ∉ t := ih (hsplit ▸ List.mem_cons_self)
        have hx : x ≠ c := fun heq => hc (heq ▸ BEq.rfl)
        exact List.not_mem_cons_of_ne_of_not_mem hx ht
      · exact ih (hsplit ▸ List.mem_cons_of_mem t h)

/-- The pieces are the only parts without the character between which it stands. -/
theorem pieces_singleton_eq_iff {x : Char} {parts : List (List Char)} : pieces [x] cs = parts ↔
    parts ≠ [] ∧ (∀ s ∈ parts, x ∉ s) ∧ cs = [x].intercalate parts := by
  constructor
  · rintro rfl
    refine ⟨?_, fun s => not_mem_of_mem_pieces, ?_⟩
    · rw [pieces_singleton]
      exact List.splitOn_ne_nil x cs
    · rw [pieces_singleton, List.intercalate_splitOn]
  · rintro ⟨hne, hfree, rfl⟩
    rw [pieces_singleton, List.splitOn_intercalate x hfree hne]

end Templating.Text
