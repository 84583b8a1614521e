import Templating.Template.Statement

/-!
Compiled templates kept for later use: those of paths until they are invalidated, and those of
inline sources up to a fixed number, of which the oldest goes first. Inline sources are found by a
key that several of them may share, so a hit is checked against source and path. In development
nothing is reused.
-/
namespace Templating

/-- A compiled template with the number of its compilation, which tells apart equal ones. -/
structure CachedUnit where
  serial : Nat
  template : Template
  deriving Inhabited

/-- Inline units are kept in the order in which their keys were first used. -/
structure Cache (κ : Type) where
  development : Bool
  serial : Nat := 0
  units : List (String × CachedUnit) := []
  inlineUnits : List (κ × CachedUnit) := []

/-- Inline units kept before the oldest is given up. -/
def maxInlineUnits : Nat := 256

/-- Actions on a cache; what a failing one has done to it stays done. -/
abbrev CacheM (κ ε : Type) := ExceptT ε (StateM (Cache κ))

namespace Cache

variable {κ : Type} [DecidableEq κ]

def empty (development : Bool) : Cache κ := { development }

def size (c : Cache κ) : Nat := c.units.length + c.inlineUnits.length

def setUnit {α : Type} [DecidableEq α] (key : α) (unit : CachedUnit) :
    List (α × CachedUnit) → List (α × CachedUnit)
  | [] => [(key, unit)]
  | (k, u) :: rest => if k = key then (key, unit) :: rest else (k, u) :: setUnit key unit rest

theorem lookup_setUnit {α : Type} [DecidableEq α] (key other : α) (unit : CachedUnit)
    (units : List (α × CachedUnit)) :
    (setUnit key unit units).lookup other =
      if other = key then some unit else units.lookup other := by
  induction units with
  | nil =>
    by_cases h : other = key
    · simp [setUnit, h]
    · simp [setUnit, List.lookup_cons, beq_false_of_ne h, h]
  | cons entry rest ih =>
    obtain ⟨k, u⟩ := entry
    simp only [setUnit]
    split
    · rename_i hk
      subst hk
      by_cases h : other = k
      · simp [h]
      · simp [List.lookup_cons, beq_false_of_ne h, h]
    · rename_i hk
      by_cases h : other = k
      · subst h
        simp [hk]
      · simp [List.lookup_cons, beq_false_of_ne h, ih]

def reusable? (c : Cache κ) (path : String) : Option CachedUnit :=
  if c.development then none else c.units.lookup path

def CachedUnit.isFor (unit : CachedUnit) (source path : String) : Bool :=
  unit.template.source == source && unit.template.path == path

def reusableInline? (c : Cache κ) (key : κ) (source path : String) : Option CachedUnit :=
  if c.development then none
  else (c.inlineUnits.lookup key).filter (CachedUnit.isFor · source path)

section Lookups

variable {m : Type → Type} [Monad m] [MonadState (Cache κ) m]

def number (template : Template) : m CachedUnit :=
  modifyGet fun c : Cache κ => (⟨c.serial, template⟩, { c with serial := c.serial + 1 })

/-- The unit of a path, compiled if need be. Should compiling itself have brought in a unit for the
path, that one stays. -/
def getOrCompile (path : String) (compile : m Template) : m CachedUnit := do
  match (← get).reusable? path with
  | some unit => return unit
  | none =>
    let unit ← number (← compile)
    match (← get).reusable? path with
    | some existing => return existing
    | none =>
      modify fun c => { c with units := setUnit path unit c.units }
      return unit

def evict (key : κ) (units : List (κ × CachedUnit)) : List (κ × CachedUnit) :=
  if maxInlineUnits ≤ units.length ∧ (units.lookup key).isNone then units.drop 1 else units

def getOrCompileInline (key : κ) (source path : String) (compile : m Template) : m CachedUnit := do
  match (← get).reusableInline? key source path with
  | some unit => return unit
  | none =>
    let unit ← number (← compile)
    let c ← get
    if c.development then return unit
    match c.reusableInline? key source path with
    | some existing => return existing
    | none =>
      modify fun c => { c with inlineUnits := setUnit key unit (evict key c.inlineUnits) }
      return unit

end Lookups

/-- Gives up the unit of a path, and says whether there was one. -/
def invalidate (path : String) : StateM (Cache κ) Bool :=
  modifyGet fun c =>
    ((c.units.lookup path).isSome, { c with units := c.units.filter (·.1 != path) })

def clear : StateM (Cache κ) Unit := modify fun c => { c with units := [], inlineUnits := [] }

end Cache
end Templating
