import Templating.Proofs.CacheLog
import Templating.Proofs.ChronicleRender

/-!
Where a render fails. The failure that comes to the top was raised in the innermost of the layers
that were left with it.
-/
namespace Templating

theorem Path.resolve_ne (path referencing : String) (root : Option String) :
    resolve path referencing root ≠ "" := by
  have hcons (c : Char) (cs : List Char) : String.ofList (c :: cs) ≠ "" := by
    intro h
    simpa using congrArg String.toList h
  unfold resolve
  split
  · exact hcons _ _
  · exact hcons _ _
  · exact hcons _ _

theorem Engine.inlinePath_ne (e : Engine) : e.inlinePath ≠ "" := by
  unfold inlinePath
  split
  · intro h
    simpa using congrArg String.toList h
  · decide

theorem Engine.compileRequest_named {e : Engine} {request : Request} {template : Template}
    (h : e.compileRequest request = .ok template) : template.path ≠ "" := by
  cases request with
  | path path referencing =>
    rw [(compileAt_eq_ok h).1]
    exact Path.resolve_ne _ _ _
  | inline source =>
    rw [(compileInline_eq_ok h).1]
    exact e.inlinePath_ne

section Named

variable {κ : Type}

/-- All templates that are kept have paths. -/
structure Cache.Named (c : Cache κ) : Prop where
  units : ∀ entry ∈ c.units, entry.2.template.path ≠ ""
  inlineUnits : ∀ entry ∈ c.inlineUnits, entry.2.template.path ≠ ""

namespace Cache.Named

theorem empty (development : Bool) : Named (Cache.empty (κ := κ) development) := ⟨nofun, nofun⟩

variable [DecidableEq κ] {key : String → String → κ} {c : Cache κ}

theorem find (h : c.Named) {what : Lookup} {unit : CachedUnit}
    (hfound : c.find? key what = some unit) : unit.template.path ≠ "" := by
  cases what with
  | path path => exact h.units _ (mem_of_lookup (lookup_of_reusable hfound))
  | inline source path =>
    have hreused : c.reusableInline? (key source path) source path = some unit := hfound
    unfold reusableInline? at hreused
    split at hreused
    · cases hreused
    · exact h.inlineUnits _ (mem_of_lookup (Option.filter_eq_some_iff.mp hreused).1)

theorem settle (h : c.Named) {what : Lookup} (hmissed : c.find? key what = none)
    {template : Template} (hpath : template.path ≠ "") :
    (c.settle key what template).1.template.path ≠ "" ∧ (c.settle key what template).2.Named := by
  cases what with
  | path path =>
    rw [settle_path c template hmissed]
    refine ⟨hpath, fun entry hentry => ?_, h.inlineUnits⟩
    rcases mem_setUnit hentry with rfl | hentry
    · exact hpath
    · exact h.units entry hentry
  | inline source path =>
    rw [settle_inline c template hmissed]
    refine ⟨hpath, ?_⟩
    split
    · exact ⟨h.units, h.inlineUnits⟩
    · refine ⟨h.units, fun entry hentry => ?_⟩
      rcases mem_setUnit hentry with rfl | hentry
      · exact hpath
      · exact h.inlineUnits entry (mem_evict hentry)

end Cache.Named

namespace Engine

variable (e : Engine) [DecidableEq κ] (key : String → String → κ)

def lookup : Request → Lookup
  | .path path referencing => .path (e.resolve path referencing)
  | .inline source => .inline source e.inlinePath

theorem run_loadRequest (request : Request) (c : Cache κ) :
    (e.loadRequest key request).run.run c =
      match c.find? key (e.lookup request) with
      | some unit => (.ok unit, c)
      | none => Cache.conclude (fun template c => c.settle key (e.lookup request) template)
          (e.compileRequest request, c) := by
  have hanswer : e.loadRequest key request =
      Cache.answer key (e.lookup request) (liftM (e.compileRequest request)) := by
    cases request <;> rfl
  rw [hanswer, Cache.run_answer, Cache.conclude_liftM]
  rfl

/-- The templates that a cache gives have paths, and where it gives none, compiling fails. -/
theorem cached_named (request : Request) {c : Cache κ} (hc : c.Named) :
    ((e.cached key request).run.run c).2.Named ∧
      match ((e.cached key request).run.run c).1 with
      | .ok template => template.path ≠ ""
      | .error failure => e.compileRequest request = .error failure := by
  rw [run_cached, run_loadRequest]
  cases hfind : c.find? key (e.lookup request) with
  | some unit => exact ⟨hc, hc.find hfind⟩
  | none =>
    cases hcompile : e.compileRequest request with
    | error failure => exact ⟨hc, rfl⟩
    | ok template =>
      obtain ⟨hpath, hnamed⟩ := hc.settle hfind (compileRequest_named hcompile)
      exact ⟨hnamed, hpath⟩

theorem hold_of_cached (P : Prop) (htags : P → e.TagsPassOn) :
    Premises.Hold ⟨Cache.Named, P⟩ e (e.cached key) where
  tags := htags
  kept request c hc := (e.cached_named key request hc).1
  named _ request c template hc htemplate := by
    have hresult := (e.cached_named key request hc).2
    rwa [htemplate] at hresult
  failing _ request c failure hc hfailure := by
    have hresult := (e.cached_named key request hc).2
    rwa [hfailure] at hresult

/-- A render with its chronicle is the program's, and a failure that comes to the top is the one
that was raised in the innermost layer: from there on every template and every tag was left with
just this failure. An error of an evaluation names the template, the line and the directive of the
statement that had been reached, a template that cannot be found its resolved path and the template
that asked for it, and an error of a tag's own the tag and the statement that called it. -/
theorem failure_unwinds (htags : e.TagsPassOn) {request : Request}
    (hrequest : ∀ path referencing, request = .path path referencing → referencing = "")
    (data : Value) (state : EngineState (Cache κ)) (hnamed : state.cache.Named) :
    let (outcome, record) := e.renderNoted (e.cached key) request data state
    outcome = (e.renderRequest (e.cached key) request data).run state ∧
      outcome.2.cache.Named ∧
      ∀ failure, outcome.1 = .error failure → Unwinds e failure [] record.scenes := by
  obtain ⟨hprogram, hkept, -, hunwinds⟩ :=
    e.renderNoted_comes (e.hold_of_cached key True fun _ => htags)
      (Premises.asks_host fun _ => hrequest) data state hnamed
  exact ⟨hprogram, hkept, fun failure hfailure => hunwinds failure hfailure trivial⟩

end Engine

end Named

/-- A tag that renders the template at a path, and hands on a failure. -/
def relay : Tag where
  run call := .render call.first.toText call.data fun
    | .ok text => .finish (.ok text)
    | .error failure => .finish (.error (.handedOn failure))

def relaying : Engine :=
  EngineSetup.engine
    { source := .ofList
        [("/main", "\x7b\x7b relay '/inner' \x7d\x7d"),
          ("/inner", "\n\x7b\x7b include 'missing' \x7d\x7d")]
      host := fun _ _ => .ok .undefined
      tags := Registry.initial.insert "relay" relay }

theorem relaying_passes_on : relaying.TagsPassOn := by
  intro name tag htag call
  have hlookup : [("relay", relay), ("tag", Element.tag)].lookup name = some tag := htag
  obtain ⟨before, after, hsplit, -⟩ := List.lookup_eq_some_iff.mp hlookup
  have hmem : (name, tag) ∈ [("relay", relay), ("tag", Element.tag)] :=
    hsplit ▸ List.mem_append_right _ List.mem_cons_self
  simp only [List.mem_cons, Prod.mk.injEq, List.not_mem_nil, or_false] at hmem
  rcases hmem with ⟨-, rfl⟩ | ⟨-, rfl⟩
  · constructor
    · intro text failure hresult
      cases hresult
    · intro failure other hresult
      cases hresult
      exact List.mem_cons_self
  · intro failure hresult
    cases hresult

/-- The template that asked for the missing one is named, and neither the tag nor the template that
called it. -/
theorem relaying_failure_unwinds :
    relaying.TagsPassOn ∧ relaying.initialState.cache.Named ∧
    ((relaying.renderRequest (relaying.cached Prod.mk) (relaying.pathRequest "main") .undefined).run
      relaying.initialState).1 = .error (.notFound "/missing" "/inner") ∧
    Unwinds relaying (.notFound "/missing" "/inner") []
      (relaying.renderNoted (relaying.cached Prod.mk) (relaying.pathRequest "main") .undefined
        relaying.initialState).2.scenes := by
  have hfails : ((relaying.renderRequest (relaying.cached Prod.mk) (relaying.pathRequest "main")
      .undefined).run relaying.initialState).1 = .error (.notFound "/missing" "/inner") := by
    decide +kernel
  have hrequest : ∀ path referencing, relaying.pathRequest "main" = .path path referencing →
      referencing = "" := by
    rintro _ _ ⟨⟩
    rfl
  have hnamed : relaying.initialState.cache.Named := .empty _
  obtain ⟨hprogram, -, hunwinds⟩ := relaying.failure_unwinds Prod.mk relaying_passes_on hrequest
    .undefined relaying.initialState hnamed
  exact ⟨relaying_passes_on, hnamed, hfails,
    hunwinds _ ((congrArg Prod.fst hprogram).trans hfails)⟩

end Templating
