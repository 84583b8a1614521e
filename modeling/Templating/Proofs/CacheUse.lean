import Templating.Proofs.Caching

/-!
What the clients of a cache do with it. A client asks for units, gives them up, and goes on with the
answers; to compile what is not found it may use the cache again. A run of a client keeps a log, of
which every moment follows from those before it.
-/
namespace Templating

inductive Lookup where
  | path (path : String)
  | inline (source path : String)
  deriving DecidableEq, Repr

/-- A client ends, as a compilation does, or uses the cache and goes on with the answer. -/
inductive CacheUse (ε : Type) where
  | finish (result : Except ε Template)
  | lookup (what : Lookup) (compile : CacheUse ε) (next : Except ε CachedUnit → CacheUse ε)
  | invalidate (path : String) (next : Bool → CacheUse ε)
  | clear (next : CacheUse ε)

/-- A lookup is asked for, and is answered or fails; in between, what is not found is compiled. -/
inductive CacheEvent where
  | asked (what : Lookup)
  | compiling (what : Lookup)
  | compiled (what : Lookup) (template : Template)
  | answered (what : Lookup) (unit : CachedUnit)
  | failed (what : Lookup)
  | invalidated (path : String)
  | cleared

structure CacheMoment (κ : Type) where
  event : CacheEvent
  cache : Cache κ

/-- The last moment comes first. -/
abbrev CacheLog (κ : Type) := List (CacheMoment κ)

variable {κ ε : Type} [DecidableEq κ] (key : String → String → κ)

section Perform

variable {n : Type → Type} [Monad n]

namespace Cache

def answer (what : Lookup) (compile : ExceptT ε (StateT (Cache κ) n) Template) :
    ExceptT ε (StateT (Cache κ) n) CachedUnit :=
  match what with
  | .path path => getOrCompile path compile
  | .inline source path => getOrCompileInline (key source path) source path compile

def find? (c : Cache κ) : Lookup → Option CachedUnit
  | .path path => c.reusable? path
  | .inline source path => c.reusableInline? (key source path) source path

def settle (c : Cache κ) (what : Lookup) (template : Template) : CachedUnit × Cache κ :=
  match what with
  | .path path => settlePath path template c
  | .inline source path => settleInline (key source path) source path template c

end Cache

def CacheEvent.ofOutcome (what : Lookup) : Except ε CachedUnit → CacheEvent
  | .ok unit => .answered what unit
  | .error _ => .failed what

def CacheUse.noted (note : CacheEvent → StateT (Cache κ) n Unit) (what : Lookup)
    (compile : ExceptT ε (StateT (Cache κ) n) Template) :
    ExceptT ε (StateT (Cache κ) n) Template := do
  note (.compiling what)
  let template ← compile
  note (.compiled what template)
  return template

def CacheUse.perform (note : CacheEvent → StateT (Cache κ) n Unit) :
    CacheUse ε → ExceptT ε (StateT (Cache κ) n) Template
  | finish result => ExceptT.mk (pure result)
  | lookup what compile next => do
    note (.asked what)
    let compile := noted note what (compile.perform note)
    let outcome ← ExceptT.lift (Cache.answer key what compile).run
    note (.ofOutcome what outcome)
    (next outcome).perform note
  | invalidate path next => do
    let found ← ExceptT.lift (modifyGet (Cache.invalidate path).run)
    note (.invalidated path)
    (next found).perform note
  | clear next => do
    ExceptT.lift (modifyGet Cache.clear.run)
    note .cleared
    next.perform note

end Perform

namespace CacheUse

def run (use : CacheUse ε) : CacheM κ ε Template := use.perform key fun _ => pure ()

def note (event : CacheEvent) : StateT (Cache κ) (StateM (CacheLog κ)) Unit := do
  let c ← get
  modifyThe (CacheLog κ) (⟨event, c⟩ :: ·)

/-- The outcome of a client, the cache in the end, and the log with what happens added. -/
def logged (use : CacheUse ε) (c : Cache κ) (log : CacheLog κ) :
    (Except ε Template × Cache κ) × CacheLog κ :=
  ((use.perform key note).run.run c).run log

/-- The log of a client that begins with an empty cache. -/
def log (development : Bool) (use : CacheUse ε) : CacheLog κ :=
  (use.logged key (.empty development) []).2

end CacheUse

theorem Cache.run_answer {n : Type → Type} [Monad n] [LawfulMonad n] (what : Lookup)
    (compile : ExceptT ε (StateT (Cache κ) n) Template) (c : Cache κ) :
    (answer key what compile).run.run c =
      match c.find? key what with
      | some unit => pure (.ok unit, c)
      | none => conclude (fun template c => c.settle key what template) <$> compile.run.run c := by
  cases what with
  | path path => exact run_getOrCompile path compile c
  | inline source path => exact run_getOrCompileInline (key source path) source path compile c

namespace CacheUse

variable (c : Cache κ) (log : CacheLog κ)

theorem logged_lookup (what : Lookup) (compile : CacheUse ε)
    (next : Except ε CachedUnit → CacheUse ε) :
    (lookup what compile next).logged key c log =
      match ((Cache.answer key what (noted note what (compile.perform key note))).run.run c).run
        (⟨.asked what, c⟩ :: log) with
      | ((outcome, c), log) =>
        (next outcome).logged key c (⟨.ofOutcome what outcome, c⟩ :: log) := rfl

omit [DecidableEq κ] in
theorem run_noted (what : Lookup)
    (compile : ExceptT ε (StateT (Cache κ) (StateM (CacheLog κ))) Template) :
    ((noted note what compile).run.run c).run log =
      match (compile.run.run c).run (⟨.compiling what, c⟩ :: log) with
      | ((.error e, c), log) => ((.error e, c), log)
      | ((.ok template, c), log) => ((.ok template, c), ⟨.compiled what template, c⟩ :: log) := by
  let rest (template : Template) : ExceptT ε (StateT (Cache κ) (StateM (CacheLog κ))) Template := do
    (note (.compiled what template) : StateT (Cache κ) (StateM (CacheLog κ)) Unit)
    return template
  have hrun : ((noted note what compile).run.run c).run log =
      ((compile >>= rest).run.run c).run (⟨.compiling what, c⟩ :: log) := rfl
  rw [hrun, Cache.run_bind_run, StateT.run_bind]
  rcases (compile.run.run c).run (⟨.compiling what, c⟩ :: log) with ⟨⟨_ | _, _⟩, _⟩
  · rfl
  · rfl

theorem logged_found {what : Lookup} {unit : CachedUnit} (compile : CacheUse ε)
    (next : Except ε CachedUnit → CacheUse ε) (h : c.find? key what = some unit) :
    (lookup what compile next).logged key c log =
      (next (.ok unit)).logged key c (⟨.answered what unit, c⟩ :: ⟨.asked what, c⟩ :: log) := by
  rw [logged_lookup, Cache.run_answer, h]
  rfl

theorem logged_missed {what : Lookup} (compile : CacheUse ε)
    (next : Except ε CachedUnit → CacheUse ε) (h : c.find? key what = none) :
    (lookup what compile next).logged key c log =
      match compile.logged key c (⟨.compiling what, c⟩ :: ⟨.asked what, c⟩ :: log) with
      | ((.error e, c), log) => (next (.error e)).logged key c (⟨.failed what, c⟩ :: log)
      | ((.ok template, c), log) =>
        (next (.ok (c.settle key what template).1)).logged key (c.settle key what template).2
          (⟨.answered what (c.settle key what template).1, (c.settle key what template).2⟩ ::
            ⟨.compiled what template, c⟩ :: log) := by
  rw [logged_lookup, Cache.run_answer, h]
  have hcompile := run_noted c (⟨.asked what, c⟩ :: log) what (compile.perform key note)
  simp only [StateT.run_map, hcompile, logged]
  rcases StateT.run ((compile.perform key note).run.run c) _ with ⟨⟨_ | _, _⟩, _⟩
  · rfl
  · rfl

theorem run_lookup (what : Lookup) (compile : CacheUse ε)
    (next : Except ε CachedUnit → CacheUse ε) :
    ((lookup what compile next).run key).run.run c =
      match c.find? key what with
      | some unit => ((next (.ok unit)).run key).run.run c
      | none =>
        match (compile.run key).run.run c with
        | (.error e, c) => ((next (.error e)).run key).run.run c
        | (.ok template, c) =>
          ((next (.ok (c.settle key what template).1)).run key).run.run
            (c.settle key what template).2 := by
  have hrun : ((lookup what compile next).run key).run.run c =
      match (Cache.answer key what (noted (fun _ => pure ()) what (compile.run key))).run.run c with
      | (outcome, c) => ((next outcome).run key).run.run c := rfl
  rw [hrun, Cache.run_answer]
  cases c.find? key what with
  | some unit => rfl
  | none =>
    have hnoted : (noted (fun _ => pure ()) what (compile.run key)).run.run c =
        (compile.run key).run.run c := by
      simp [noted]
    simp only [hnoted]
    rcases (compile.run key).run.run c with ⟨_ | _, _⟩
    · rfl
    · rfl

theorem logged_erases (use : CacheUse ε) (c : Cache κ) (log : CacheLog κ) :
    (use.logged key c log).1 = (use.run key).run.run c := by
  induction use generalizing c log with
  | finish result => rfl
  | lookup what compile next hcompile hnext =>
    rw [run_lookup]
    cases h : c.find? key what with
    | some unit =>
      rw [logged_found key c log compile next h]
      exact hnext _ c _
    | none =>
      rw [logged_missed key c log compile next h]
      have hc := hcompile c (⟨.compiling what, c⟩ :: ⟨.asked what, c⟩ :: log)
      rcases hlogged : compile.logged key c _ with ⟨⟨_ | template, c'⟩, log'⟩
      · rw [hlogged] at hc
        rw [← hc]
        exact hnext _ c' _
      · rw [hlogged] at hc
        rw [← hc]
        exact hnext _ _ _
  | invalidate path next hnext => exact hnext _ _ _
  | clear next hnext => exact hnext _ _

end CacheUse

namespace CacheLog

variable (development : Bool)

def cache : CacheLog κ → Cache κ
  | [] => .empty development
  | moment :: _ => moment.cache

/-- No lookup has just been asked for. -/
def Idle : CacheLog κ → Prop
  | ⟨.asked _, _⟩ :: _ => False
  | _ => True

inductive Follows : CacheLog κ → CacheMoment κ → Prop where
  | asked {log} (what : Lookup) : log.Idle → Follows log ⟨.asked what, log.cache development⟩
  | found {log c what unit} : Cache.find? key c what = some unit →
      Follows (⟨.asked what, c⟩ :: log) ⟨.answered what unit, c⟩
  | compiling {log c what} : Cache.find? key c what = none →
      Follows (⟨.asked what, c⟩ :: log) ⟨.compiling what, c⟩
  | compiled {log} (what : Lookup) (template : Template) : log.Idle →
      Follows log ⟨.compiled what template, log.cache development⟩
  | settled {log c what template} :
      Follows (⟨.compiled what template, c⟩ :: log)
        ⟨.answered what (c.settle key what template).1, (c.settle key what template).2⟩
  | failed {log} (what : Lookup) : log.Idle → Follows log ⟨.failed what, log.cache development⟩
  | invalidated {log} (path : String) : log.Idle →
      Follows log ⟨.invalidated path, ((Cache.invalidate path).run (log.cache development)).2⟩
  | cleared {log} : log.Idle →
      Follows log ⟨.cleared, (Cache.clear.run (log.cache development)).2⟩

inductive Possible : CacheLog κ → Prop where
  | nil : Possible []
  | cons {log moment} : Possible log → Follows key development log moment →
      Possible (moment :: log)

/-- Between two uses of the cache, which is as given. -/
structure Rests (c : Cache κ) (log : CacheLog κ) : Prop where
  possible : Possible key development log
  idle : log.Idle
  cache_eq : log.cache development = c

namespace Rests

variable {key} {development : Bool} {c : Cache κ} {log : CacheLog κ}

theorem asked (h : Rests key development c log) (what : Lookup) :
    Possible key development (⟨.asked what, c⟩ :: log) := by
  obtain ⟨hpossible, hidle, rfl⟩ := h
  exact hpossible.cons (.asked what hidle)

theorem found (h : Rests key development c log) {what : Lookup} {unit : CachedUnit}
    (hfound : c.find? key what = some unit) :
    Rests key development c (⟨.answered what unit, c⟩ :: ⟨.asked what, c⟩ :: log) :=
  ⟨(h.asked what).cons (.found hfound), trivial, rfl⟩

theorem missed (h : Rests key development c log) {what : Lookup}
    (hmissed : c.find? key what = none) :
    Rests key development c (⟨.compiling what, c⟩ :: ⟨.asked what, c⟩ :: log) :=
  ⟨(h.asked what).cons (.compiling hmissed), trivial, rfl⟩

theorem failed (h : Rests key development c log) (what : Lookup) :
    Rests key development c (⟨.failed what, c⟩ :: log) := by
  obtain ⟨hpossible, hidle, rfl⟩ := h
  exact ⟨hpossible.cons (.failed what hidle), trivial, rfl⟩

theorem settled (h : Rests key development c log) (what : Lookup) (template : Template) :
    Rests key development (c.settle key what template).2
      (⟨.answered what (c.settle key what template).1, (c.settle key what template).2⟩ ::
        ⟨.compiled what template, c⟩ :: log) := by
  obtain ⟨hpossible, hidle, rfl⟩ := h
  exact ⟨(hpossible.cons (.compiled what template hidle)).cons .settled, trivial, rfl⟩

theorem invalidated (h : Rests key development c log) (path : String) :
    Rests key development ((Cache.invalidate path).run c).2
      (⟨.invalidated path, ((Cache.invalidate path).run c).2⟩ :: log) := by
  obtain ⟨hpossible, hidle, rfl⟩ := h
  exact ⟨hpossible.cons (.invalidated path hidle), trivial, rfl⟩

theorem cleared (h : Rests key development c log) :
    Rests key development (Cache.clear.run c).2 (⟨.cleared, (Cache.clear.run c).2⟩ :: log) := by
  obtain ⟨hpossible, hidle, rfl⟩ := h
  exact ⟨hpossible.cons (.cleared hidle), trivial, rfl⟩

end Rests

end CacheLog

open CacheLog in
/-- A client leaves a log at rest, if it finds it so. -/
theorem CacheUse.logged_rests {development : Bool} (use : CacheUse ε) {c : Cache κ}
    {log : CacheLog κ} (h : Rests key development c log) :
    Rests key development (use.logged key c log).1.2 (use.logged key c log).2 := by
  induction use generalizing c log with
  | finish result => exact h
  | lookup what compile next hcompile hnext =>
    cases hfind : c.find? key what with
    | some unit =>
      rw [logged_found key c log compile next hfind]
      exact hnext _ (h.found hfind)
    | none =>
      rw [logged_missed key c log compile next hfind]
      have hrests := hcompile (h.missed hfind)
      rcases hlogged : compile.logged key c _ with ⟨⟨_ | template, c'⟩, log'⟩
      · rw [hlogged] at hrests
        exact hnext _ (hrests.failed what)
      · rw [hlogged] at hrests
        exact hnext _ (hrests.settled what template)
  | invalidate path next hnext => exact hnext _ (h.invalidated path)
  | clear next hnext => exact hnext h.cleared

end Templating
