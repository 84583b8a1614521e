import Templating.Proofs.Caching
import Templating.Proofs.RenderSimulation
import Templating.Proofs.StructuredRun

/-!
Sessions of one engine. The cache is never seen in their answers: an engine that keeps no template,
but remembers the text from which a path was last compiled, gives the same ones.
-/
namespace Templating

/-- What may become of the text of a path. -/
inductive Event where
  | compiled (path text : String)
  | invalidated (path : String)
  | cleared

/-- The last event comes first. -/
abbrev History := List Event

/-- The text from which a path was last compiled, unless it has been given up since. -/
def frozenText (path : String) : History → Option String
  | [] => none
  | .compiled p text :: history => if p = path then some text else frozenText path history
  | .invalidated p :: history => if p = path then none else frozenText path history
  | .cleared :: _ => none

namespace Engine

/-- The engine with the texts that are frozen in the place of those of its source. None are frozen
in development. -/
def frozenAt (e : Engine) (history : History) : Engine :=
  if e.config.development then e
  else
    { e with
      source.text := fun path => (frozenText path history).or (e.source.text path) }

def compileRequest (e : Engine) : Request → Except Failure Template
  | .path path referencing => e.compileAt (e.resolve path referencing) referencing
  | .inline source => e.compileInline source

/-- Compiles what is asked for from the frozen texts. Only paths that could be compiled are
remembered. -/
def frozen (e : Engine) : Loader History := fun request => do
  let template ← (e.frozenAt (← get)).compileRequest request
  match request with
  | .path .. => modify (.compiled template.path template.source :: ·)
  | .inline _ => pure ()
  return template

end Engine

/-- How an engine comes by templates, and how they are given up. -/
structure Keeping (σ : Type) where
  load : Engine → Loader σ
  invalidate : String → StateM σ Bool
  clear : StateM σ Unit

def Keeping.cached {κ : Type} [DecidableEq κ] (key : String → String → κ) :
    Keeping (Cache κ) where
  load e := e.cached key
  invalidate := Cache.invalidate
  clear := Cache.clear

def Keeping.frozen : Keeping History where
  load := Engine.frozen
  invalidate path := modifyGet fun history =>
    ((frozenText path history).isSome, .invalidated path :: history)
  clear := modify (.cleared :: ·)

/-- What is done with an engine. `change` puts other templates in the place of its source. -/
inductive Operation where
  | render (path : String) (data : Value)
  | renderText (source : String) (data : Value)
  | compiled (path referencing : String)
  | invalidate (path : String)
  | clear
  | change (source : TemplateSource)

inductive Answer where
  | text (result : Except Failure String)
  | template (result : Except Failure Template)
  | found (found : Bool)
  | done

structure Session (σ : Type) where
  engine : Engine
  state : EngineState σ

namespace Session

variable {σ τ : Type}

def perform (k : Keeping σ) (s : Session σ) : Operation → Answer × Session σ
  | .render path data =>
    let (result, state) :=
      s.engine.renderRequest (k.load s.engine) (s.engine.pathRequest path) data s.state
    (.text result, { s with state })
  | .renderText source data =>
    let (result, state) := s.engine.renderRequest (k.load s.engine) (.inline source) data s.state
    (.text result, { s with state })
  | .compiled path referencing =>
    let (result, cache) := (k.load s.engine (.path path referencing)).run.run s.state.cache
    (.template result, { s with state := { s.state with cache } })
  | .invalidate path =>
    let (found, cache) := (k.invalidate path).run s.state.cache
    (.found found, { s with state := { s.state with cache } })
  | .clear =>
    let ((), cache) := k.clear.run s.state.cache
    (.done, { s with state := { s.state with cache } })
  | .change source => (.done, { s with engine := { s.engine with source } })

def answers (k : Keeping σ) (s : Session σ) : List Operation → List Answer
  | [] => []
  | operation :: operations =>
    (s.perform k operation).1 :: answers k (s.perform k operation).2 operations

end Session

/-- Every unit is what its text compiles to, and that text is the one frozen for its path. -/
structure Cache.Records {κ : Type} (e : Engine) (c : Cache κ) (history : History) : Prop where
  development : c.development = e.config.development
  text : ∀ path, (c.units.lookup path).map (·.template.source) = frozenText path history
  unit : ∀ path u, c.units.lookup path = some u →
    Template.compile e.grammar path u.template.source = .ok u.template
  inlineUnit : ∀ entry ∈ c.inlineUnits,
    Template.compile e.grammar entry.2.template.path entry.2.template.source =
      .ok entry.2.template

namespace Cache.Records

variable {κ : Type} {e : Engine} {c : Cache κ} {history : History}

theorem empty (e : Engine) : Records e (Cache.empty (κ := κ) e.config.development) [] where
  development := rfl
  text _ := rfl
  unit _ _ h := by cases h
  inlineUnit _ h := by cases h

theorem change (h : Records e c history) (source : TemplateSource) :
    Records { e with source } c history :=
  ⟨h.development, h.text, h.unit, h.inlineUnit⟩

theorem clear (h : Records e c history) :
    Records (κ := κ) e { c with units := [], inlineUnits := [] } (.cleared :: history) where
  development := h.development
  text _ := rfl
  unit _ _ h := by cases h
  inlineUnit _ h := by cases h

theorem invalidate (h : Records e c history) (path : String) :
    Records e { c with units := c.units.filter (·.1 != path) } (.invalidated path :: history) where
  development := h.development
  text other := by
    rw [lookup_filter_ne, frozenText]
    by_cases hother : path = other
    · simp [hother]
    · rw [if_neg (Ne.symm hother), if_neg hother]
      exact h.text other
  unit other u hu := by
    rw [lookup_filter_ne] at hu
    split at hu
    · cases hu
    · exact h.unit other u hu
  inlineUnit := h.inlineUnit

/-- A path found in the cache is remembered as compiled once more. -/
theorem found (h : Records e c history) {path : String} {u : CachedUnit}
    (hu : c.units.lookup path = some u) :
    Records e c (.compiled path u.template.source :: history) where
  development := h.development
  text other := by
    rw [frozenText]
    split
    · rename_i hother
      simp [← hother, hu]
    · exact h.text other
  unit := h.unit
  inlineUnit := h.inlineUnit

theorem compiled (h : Records e c history) {path : String} {template : Template}
    (hcompile : Template.compile e.grammar path template.source = .ok template) :
    Records e
      { c with
        serial := c.serial + 1
        units := setUnit path ⟨c.serial, template⟩ c.units }
      (.compiled path template.source :: history) where
  development := h.development
  text other := by
    rw [lookup_setUnit, frozenText]
    by_cases hother : path = other
    · simp [hother]
    · rw [if_neg (Ne.symm hother), if_neg hother]
      exact h.text other
  unit other u hu := by
    rw [lookup_setUnit] at hu
    split at hu
    · rename_i hother
      obtain rfl := Option.some.inj hu
      rw [hother]
      exact hcompile
    · exact h.unit other u hu
  inlineUnit := h.inlineUnit

theorem compiledInline [DecidableEq κ] (h : Records e c history) {template : Template} (key : κ)
    (hcompile : Template.compile e.grammar template.path template.source = .ok template) :
    Records e
      { c with
        serial := c.serial + 1
        inlineUnits := setUnit key ⟨c.serial, template⟩ (evict key c.inlineUnits) }
      history where
  development := h.development
  text := h.text
  unit := h.unit
  inlineUnit entry hentry := by
    rcases mem_setUnit hentry with rfl | hentry
    · exact hcompile
    · exact h.inlineUnit entry (mem_evict hentry)

theorem number (h : Records e c history) : Records e { c with serial := c.serial + 1 } history :=
  ⟨h.development, h.text, h.unit, h.inlineUnit⟩

end Cache.Records

namespace Engine

variable (e : Engine)

theorem compileAt_eq_ok {e : Engine} {path referencing : String} {template : Template}
    (h : e.compileAt path referencing = .ok template) :
    template.path = path ∧ Template.compile e.grammar path template.source = .ok template := by
  unfold compileAt at h
  cases htext : e.source.text path with
  | none => simp [htext] at h
  | some text =>
    simp only [htext] at h
    cases hcompile : Template.compile e.grammar path text with
    | error error => simp [hcompile] at h
    | ok compiled =>
      simp only [hcompile, Except.ok.injEq] at h
      subst h
      obtain ⟨statements, linked, -, -, rfl⟩ := compile_eq_ok hcompile
      exact ⟨rfl, hcompile⟩

theorem compileInline_eq_ok {e : Engine} {source : String} {template : Template}
    (h : e.compileInline source = .ok template) :
    template.path = e.inlinePath ∧
      Template.compile e.grammar template.path template.source = .ok template := by
  unfold compileInline at h
  cases hcompile : Template.compile e.grammar e.inlinePath source with
  | error error => simp [hcompile] at h
  | ok compiled =>
    simp only [hcompile, Except.ok.injEq] at h
    subst h
    obtain ⟨statements, linked, -, -, rfl⟩ := compile_eq_ok hcompile
    exact ⟨rfl, hcompile⟩

theorem frozenAt_resolve (history : History) : (e.frozenAt history).resolve = e.resolve := by
  unfold frozenAt
  split
  · rfl
  · rfl

theorem frozenAt_compileInline (history : History) :
    (e.frozenAt history).compileInline = e.compileInline := by
  unfold frozenAt
  split
  · rfl
  · rfl

section Frozen

variable {κ : Type} {e : Engine} {c : Cache κ} {history : History} {path : String}

theorem frozenAt_compileAt_of_reusable (h : Cache.Records e c history) {u : CachedUnit}
    (hu : c.reusable? path = some u) (referencing : String) :
    (e.frozenAt history).compileAt path referencing = .ok u.template := by
  have hlookup := Cache.lookup_of_reusable hu
  have hdevelopment : e.config.development = false := by
    rw [← h.development]
    exact Cache.development_of_reusable hu
  have htext : frozenText path history = some u.template.source := by
    rw [← h.text path, hlookup]
    rfl
  simp [compileAt, frozenAt, hdevelopment, htext, h.unit path u hlookup]

theorem frozenAt_compileAt_of_not_reusable (h : Cache.Records e c history)
    (hu : c.reusable? path = none) (referencing : String) :
    (e.frozenAt history).compileAt path referencing = e.compileAt path referencing := by
  unfold Cache.reusable? at hu
  rw [h.development] at hu
  unfold frozenAt
  split
  · rfl
  · rename_i hdevelopment
    rw [if_neg hdevelopment] at hu
    have htext : frozenText path history = none := by
      rw [← h.text path, hu]
      rfl
    simp [compileAt, htext]

theorem compileInline_of_reusable [DecidableEq κ] (h : Cache.Records e c history) {k : κ}
    {source : String} {u : CachedUnit} (hu : c.reusableInline? k source e.inlinePath = some u) :
    e.compileInline source = .ok u.template := by
  unfold Cache.reusableInline? at hu
  split at hu
  · cases hu
  · obtain ⟨hlookup, hfor⟩ := Option.filter_eq_some_iff.mp hu
    have hcompile := h.inlineUnit _ (Cache.mem_of_lookup hlookup)
    simp only [Cache.CachedUnit.isFor, Bool.and_eq_true, beq_iff_eq] at hfor
    rw [hfor.1, hfor.2] at hcompile
    simp [compileInline, hcompile]

end Frozen

variable {κ : Type} [DecidableEq κ] (key : String → String → κ)

/-- Of the unit that is found or compiled only the template is used. -/
theorem run_cached (request : Request) (c : Cache κ) :
    (e.cached key request).run.run c =
      (((e.loadRequest key request).run.run c).1.map (·.template),
        ((e.loadRequest key request).run.run c).2) := by
  unfold cached
  rcases hrun : (e.loadRequest key request).run.run c with ⟨failure | unit, c'⟩
  · exact run_bind_error hrun
  · exact run_bind_ok hrun

theorem run_frozen (request : Request) (history : History) :
    (e.frozen request).run.run history =
      match (e.frozenAt history).compileRequest request with
      | .error failure => (.error failure, history)
      | .ok template =>
        (.ok template,
          match request with
          | .path .. => .compiled template.path template.source :: history
          | .inline _ => history) := by
  change ((liftM ((e.frozenAt history).compileRequest request) >>= _ :
    ExceptT Failure (StateM History) Template).run.run history) = _
  cases (e.frozenAt history).compileRequest request with
  | error failure => rfl
  | ok template =>
    cases request with
    | path path referencing => rfl
    | inline source => rfl

/-- The cache answers every request as the frozen texts do. -/
theorem cached_simulates_frozen :
    Loader.Simulates (Cache.Records e) (e.cached key) e.frozen := by
  intro request c history h
  rw [run_cached, run_frozen]
  cases request with
  | path path referencing =>
    simp only [loadRequest, load, compileRequest, frozenAt_resolve]
    generalize e.resolve path referencing = path
    rw [Cache.run_getOrCompile]
    cases hu : c.reusable? path with
    -- what is held was compiled from the text that is frozen for the path
    | some u =>
      have hcompile := frozenAt_compileAt_of_reusable h hu referencing
      rw [hcompile]
      dsimp only
      rw [(compileAt_eq_ok hcompile).1]
      exact ⟨rfl, h.found (Cache.lookup_of_reusable hu)⟩
    -- what is missed is compiled from the text of the source, which is frozen from then on
    | none =>
      rw [frozenAt_compileAt_of_not_reusable h hu]
      dsimp only
      rw [Cache.conclude_liftM]
      cases hcompile : e.compileAt path referencing with
      | error failure => exact ⟨rfl, h⟩
      | ok template =>
        obtain ⟨rfl, hok⟩ := compileAt_eq_ok hcompile
        rw [Cache.conclude, Cache.settlePath_of_missed template hu]
        exact ⟨rfl, h.compiled hok⟩
  | inline source =>
    simp only [loadRequest, loadInline, compileRequest, frozenAt_compileInline]
    rw [Cache.run_getOrCompileInline]
    cases hu : c.reusableInline? (key source e.inlinePath) source e.inlinePath with
    | some u =>
      rw [compileInline_of_reusable h hu]
      exact ⟨rfl, h⟩
    | none =>
      dsimp only
      rw [Cache.conclude_liftM]
      cases hcompile : e.compileInline source with
      | error failure => exact ⟨rfl, h⟩
      | ok template =>
        rw [Cache.conclude, Cache.settleInline_of_missed template hu]
        refine ⟨rfl, ?_⟩
        dsimp only
        split
        · exact h.number
        · exact h.compiledInline _ (compileInline_eq_ok hcompile).2

end Engine

namespace Session

/-- With the cache, operations are those of the engine itself. -/
theorem perform_cached (s : Session (Cache InlineKey)) (operation : Operation) :
    s.perform (.cached Prod.mk) operation =
      match operation with
      | .render path data =>
        let (result, state) := s.engine.render path data s.state
        (.text result, { s with state })
      | .renderText source data =>
        let (result, state) := s.engine.renderText source data s.state
        (.text result, { s with state })
      | .compiled path referencing =>
        let (result, state) := s.engine.compiled path referencing s.state
        (.template (result.map (·.template)), { s with state })
      | .invalidate path =>
        let (found, cache) := (Cache.invalidate path).run s.state.cache
        (.found found, { s with state := { s.state with cache } })
      | .clear =>
        let ((), cache) := Cache.clear.run s.state.cache
        (.done, { s with state := { s.state with cache } })
      | .change source => (.done, { s with engine := { s.engine with source } }) := by
  cases operation with
  | compiled path referencing =>
    simp only [perform, Keeping.cached, Engine.run_cached]
    rfl
  | _ => rfl

/-- A session with the cache beside one with frozen texts. -/
structure Follows {κ : Type} (s : Session (Cache κ)) (t : Session History) : Prop where
  engine : s.engine = t.engine
  identity : s.state.identity = t.state.identity
  cache : Cache.Records s.engine s.state.cache t.state.cache

variable {κ : Type} [DecidableEq κ] (key : String → String → κ)

theorem perform_follows {s : Session (Cache κ)} {t : Session History} (h : s.Follows t)
    (operation : Operation) :
    (s.perform (.cached key) operation).1 = (t.perform .frozen operation).1 ∧
    (s.perform (.cached key) operation).2.Follows (t.perform .frozen operation).2 := by
  obtain ⟨e, c, identity⟩ := s
  obtain ⟨_, history, _⟩ := t
  obtain ⟨rfl, rfl, hcache⟩ := h
  have hload := e.cached_simulates_frozen key
  cases operation with
  | render path data =>
    obtain ⟨hresult, hidentity, hcache⟩ :=
      e.renderRequest_simulates hload (e.pathRequest path) data rfl hcache
    exact ⟨congrArg Answer.text hresult, rfl, hidentity, hcache⟩
  | renderText source data =>
    obtain ⟨hresult, hidentity, hcache⟩ :=
      e.renderRequest_simulates hload (.inline source) data rfl hcache
    exact ⟨congrArg Answer.text hresult, rfl, hidentity, hcache⟩
  | compiled path referencing =>
    obtain ⟨hresult, hcache⟩ := hload (.path path referencing) hcache
    exact ⟨congrArg Answer.template hresult, rfl, rfl, hcache⟩
  | invalidate path =>
    have hfound : (c.units.lookup path).isSome = (frozenText path history).isSome := by
      rw [← hcache.text path, Option.isSome_map]
    exact ⟨congrArg Answer.found hfound, rfl, rfl, hcache.invalidate path⟩
  | clear => exact ⟨rfl, rfl, rfl, hcache.clear⟩
  | change source => exact ⟨rfl, rfl, rfl, hcache.change source⟩

theorem answers_follow {s : Session (Cache κ)} {t : Session History} (h : s.Follows t)
    (operations : List Operation) :
    s.answers (.cached key) operations = t.answers .frozen operations := by
  induction operations generalizing s t with
  | nil => rfl
  | cons operation operations ih =>
    obtain ⟨hanswer, hnext⟩ := perform_follows key h operation
    rw [answers, answers, hanswer, ih hnext]

end Session

/-- Whatever is done with an engine, it answers as one without a cache whose texts are frozen from
when they could be compiled until they are given up. The keys of inline sources may be shared. -/
theorem Engine.answers_as_frozen (e : Engine) {κ : Type} [DecidableEq κ]
    (key : String → String → κ) (identity : Nat) (operations : List Operation) :
    Session.answers (.cached key) ⟨e, .empty e.config.development, identity⟩ operations =
      Session.answers .frozen ⟨e, [], identity⟩ operations :=
  Session.answers_follow key ⟨rfl, rfl, .empty e⟩ operations

end Templating
