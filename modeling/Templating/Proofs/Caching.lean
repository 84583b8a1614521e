import Mathlib.Data.List.Basic
import Templating.Render.State

/-!
What the operations of a cache leave in it, and what they return when compiling does not look at the
cache itself.
-/
namespace Templating

namespace Cache

variable {α κ ε : Type} [DecidableEq α]

theorem mem_setUnit {key : α} {unit : CachedUnit} {units : List (α × CachedUnit)}
    {entry : α × CachedUnit} (h : entry ∈ setUnit key unit units) :
    entry = (key, unit) ∨ entry ∈ units := by
  induction units with
  | nil => exact .inl (List.mem_singleton.mp h)
  | cons head rest ih =>
    unfold setUnit at h
    split at h
    · rcases List.mem_cons.mp h with rfl | h
      · exact .inl rfl
      · exact .inr (List.mem_cons_of_mem _ h)
    · rcases List.mem_cons.mp h with rfl | h
      · exact .inr (List.mem_cons_self ..)
      · exact (ih h).imp_right (List.mem_cons_of_mem _)

theorem mem_of_lookup {key : α} {unit : CachedUnit} {units : List (α × CachedUnit)}
    (h : units.lookup key = some unit) : (key, unit) ∈ units := by
  obtain ⟨before, after, rfl, -⟩ := List.lookup_eq_some_iff.mp h
  exact List.mem_append_right _ (List.mem_cons_self ..)

theorem mem_evict {key : α} {units : List (α × CachedUnit)} {entry : α × CachedUnit}
    (h : entry ∈ evict key units) : entry ∈ units := by
  unfold evict at h
  split at h
  · exact List.mem_of_mem_drop h
  · exact h

/-- The lookup after the units of a key have been given up. -/
theorem lookup_filter_ne (key other : α) (units : List (α × CachedUnit)) :
    (units.filter (·.1 != key)).lookup other =
      if other = key then none else units.lookup other := by
  induction units with
  | nil => simp
  | cons head rest ih =>
    obtain ⟨k, u⟩ := head
    by_cases hk : k = key
    · subst hk
      rw [List.filter_cons_of_neg (by simp), ih]
      by_cases h : other = k
      · simp [h]
      · simp [List.lookup_cons, beq_false_of_ne h, h]
    · rw [List.filter_cons_of_pos (by simpa using hk)]
      by_cases h : other = k
      · subst h
        simp [hk]
      · simp [List.lookup_cons, beq_false_of_ne h, ih]

theorem lookup_of_reusable {c : Cache κ} {path : String} {unit : CachedUnit}
    (h : c.reusable? path = some unit) : c.units.lookup path = some unit := by
  unfold reusable? at h
  split at h
  · cases h
  · exact h

theorem development_of_reusable {c : Cache κ} {path : String} {unit : CachedUnit}
    (h : c.reusable? path = some unit) : c.development = false := by
  unfold reusable? at h
  split at h
  · cases h
  · rename_i hdevelopment
    exact eq_false_of_ne_true hdevelopment

def settlePath (path : String) (template : Template) (c : Cache κ) : CachedUnit × Cache κ :=
  let unit : CachedUnit := ⟨c.serial, template⟩
  let numbered := { c with serial := c.serial + 1 }
  match c.reusable? path with
  | some existing => (existing, numbered)
  | none => (unit, { numbered with units := setUnit path unit c.units })

def settleInline [DecidableEq κ] (key : κ) (source path : String) (template : Template)
    (c : Cache κ) : CachedUnit × Cache κ :=
  let unit : CachedUnit := ⟨c.serial, template⟩
  let numbered := { c with serial := c.serial + 1 }
  match c.reusableInline? key source path with
  | some existing => (existing, numbered)
  | none =>
    if c.development then (unit, numbered)
    else (unit, { numbered with inlineUnits := setUnit key unit (evict key c.inlineUnits) })

def conclude (settle : Template → Cache κ → CachedUnit × Cache κ) :
    Except ε Template × Cache κ → Except ε CachedUnit × Cache κ
  | (.error e, c) => (.error e, c)
  | (.ok template, c) => (.ok (settle template c).1, (settle template c).2)

section Runs

variable {n : Type → Type} [Monad n] {β γ : Type} {c : Cache κ}

theorem run_bind_run (x : ExceptT ε (StateT (Cache κ) n) γ)
    (next : γ → ExceptT ε (StateT (Cache κ) n) β) :
    (x >>= next).run.run c = x.run.run c >>= fun r =>
      match r with
      | (.error e, c) => pure (.error e, c)
      | (.ok a, c) => (next a).run.run c := by
  rw [ExceptT.run_bind, StateT.run_bind]
  refine bind_congr fun r => ?_
  obtain ⟨e | a, c⟩ := r
  · rfl
  · rfl

variable [LawfulMonad n]

theorem run_get_bind (next : Cache κ → ExceptT ε (StateT (Cache κ) n) β) :
    (get >>= next).run.run c = (next c).run.run c := by
  change (ExceptT.lift get >>= next).run.run c = _
  simp

theorem run_modify_bind (f : Cache κ → Cache κ)
    (next : Unit → ExceptT ε (StateT (Cache κ) n) β) :
    (modify f >>= next).run.run c = (next ()).run.run (f c) := by
  change (ExceptT.lift (modify f) >>= next).run.run c = _
  simp

theorem run_number_bind (template : Template)
    (next : CachedUnit → ExceptT ε (StateT (Cache κ) n) β) :
    (number template >>= next).run.run c =
      (next ⟨c.serial, template⟩).run.run { c with serial := c.serial + 1 } := by
  change (ExceptT.lift (modifyGet _) >>= next).run.run c = _
  simp

theorem run_getOrCompile (path : String) (compile : ExceptT ε (StateT (Cache κ) n) Template)
    (c : Cache κ) :
    (getOrCompile path compile).run.run c =
      match c.reusable? path with
      | some unit => pure (.ok unit, c)
      | none => conclude (settlePath path) <$> compile.run.run c := by
  unfold getOrCompile
  rw [run_get_bind]
  cases c.reusable? path with
  | some unit => simp
  | none =>
    dsimp only
    rw [map_eq_pure_bind, run_bind_run]
    refine bind_congr fun r => ?_
    obtain ⟨e | template, c⟩ := r
    · rfl
    · have hnumbered :
          Cache.reusable? { c with serial := c.serial + 1 } path = c.reusable? path := rfl
      simp only [run_number_bind, run_get_bind, hnumbered, conclude, settlePath]
      cases c.reusable? path with
      | some existing => rfl
      | none =>
        dsimp only
        rw [run_modify_bind]
        rfl

theorem run_getOrCompileInline [DecidableEq κ] (key : κ) (source path : String)
    (compile : ExceptT ε (StateT (Cache κ) n) Template) (c : Cache κ) :
    (getOrCompileInline key source path compile).run.run c =
      match c.reusableInline? key source path with
      | some unit => pure (.ok unit, c)
      | none => conclude (settleInline key source path) <$> compile.run.run c := by
  unfold getOrCompileInline
  rw [run_get_bind]
  cases c.reusableInline? key source path with
  | some unit => simp
  | none =>
    dsimp only
    rw [map_eq_pure_bind, run_bind_run]
    refine bind_congr fun r => ?_
    obtain ⟨e | template, c⟩ := r
    · rfl
    · have hnumbered : Cache.reusableInline? { c with serial := c.serial + 1 } key source path =
          c.reusableInline? key source path := rfl
      simp only [run_number_bind, run_get_bind, hnumbered, conclude, settleInline]
      cases hdevelopment : c.development with
      | true =>
        have hmissed : c.reusableInline? key source path = none := if_pos hdevelopment
        rw [hmissed]
        rfl
      | false =>
        cases c.reusableInline? key source path with
        | some existing => rfl
        | none =>
          simp only [Bool.false_eq_true, if_false]
          rw [run_modify_bind]
          rfl

/-- What has been compiled, if anything, without a look at the cache. -/
theorem conclude_liftM (settle : Template → Cache κ → CachedUnit × Cache κ)
    (result : Except ε Template) :
    conclude settle <$> (liftM result : ExceptT ε (StateT (Cache κ) n) Template).run.run c =
      pure (conclude settle (result, c)) := by
  have hrun : (liftM result : ExceptT ε (StateT (Cache κ) n) Template).run.run c =
      pure (result, c) := by
    cases result <;> rfl
  rw [hrun, map_pure]

end Runs

theorem settlePath_of_missed {path : String} {c : Cache κ} (template : Template)
    (h : c.reusable? path = none) :
    settlePath path template c =
      (⟨c.serial, template⟩, { c with
        serial := c.serial + 1
        units := setUnit path ⟨c.serial, template⟩ c.units }) := by
  simp only [settlePath, h]

theorem settleInline_of_missed [DecidableEq κ] {key : κ} {source path : String} {c : Cache κ}
    (template : Template) (h : c.reusableInline? key source path = none) :
    settleInline key source path template c =
      (⟨c.serial, template⟩,
        if c.development then { c with serial := c.serial + 1 }
        else
          { c with
            serial := c.serial + 1
            inlineUnits := setUnit key ⟨c.serial, template⟩ (evict key c.inlineUnits) }) := by
  simp only [settleInline, h]
  split
  · rfl
  · rfl

end Cache

end Templating
