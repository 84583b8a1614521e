import Templating.Proofs.FailurePlaces
import Templating.Proofs.Paths

/-!
Paths under the root of an engine. There are three ways to name a template there: by the path that a
render of the host starts from, by a path after a tilde, and by a path in a source text that is
rendered on its own. They name the same template, however the root is written.
-/
namespace Templating

namespace Path

theorem normalize_congr {p q : String} (h : segments p.toList = segments q.toList) (r : String) :
    normalize (p ++ "/" ++ r) = normalize (q ++ "/" ++ r) := by
  rw [normalize, normalize, toList_append_slash, toList_append_slash, normalizeChars_congr h]

/-- Two slashes say as much as one. -/
theorem normalize_append_cons (p q : String) :
    normalize (p ++ "/" ++ ("/" ++ q)) = normalize (p ++ "/" ++ q) := by
  have hsame := normalizeChars_congr (segments_append_slash p.toList) q.toList
  have hchars : (p ++ "/" ++ ("/" ++ q)).toList = (p.toList ++ ['/']) ++ '/' :: q.toList := by
    simp
  rw [normalize, normalize, hchars, hsame, toList_append_slash]

/-- After a tilde and a slash a path counts from the root, wherever it is written. -/
theorem resolve_tilde (p referencing : String) (root : Option String) :
    resolve ("~/" ++ p) referencing root = normalize (root.getD "/" ++ "/" ++ p) := by
  have hpath : ("~/" ++ p).toList = '~' :: ("/" ++ p).toList := by simp
  rw [resolve, hpath]
  change normalize (root.getD "/" ++ "/" ++ String.ofList ("/" ++ p).toList) = _
  rw [String.ofList_toList, normalize_append_cons]

/-- Where no template is around, a path without a tilde is absolute. -/
theorem resolve_alone {p : String} (h : p.toList.head? ≠ some '~') (root : Option String) :
    resolve p "" root = normalize p := by
  by_cases hslash : p.toList.head? = some '/'
  · obtain ⟨rest, hp⟩ := List.head?_eq_some_iff.mp hslash
    rw [resolve, hp]
    rfl
  · have hempty : base "" = "" := rfl
    have hstart : normalize ("" ++ "/" ++ p) = normalize p := by
      have hchars : ("" ++ "/" ++ p).toList = [] ++ '/' :: p.toList := by simp
      rw [normalize, hchars, normalizeChars, segments_append, normalize, normalizeChars]
      rfl
    rw [resolve_of_isRelative ⟨hslash, h⟩, hempty, hstart]

/-- Slashes at the end of a path say nothing about the place that it is. -/
theorem resolve_in_directory {p : String} (h : IsRelative p) (place : List Char)
    (root : Option String) :
    resolve p (String.ofList ((place.reverse.dropWhile (· == '/')).reverse ++ ['/'])) root =
      normalize (String.ofList place ++ "/" ++ p) := by
  rw [resolve_of_isRelative h]
  apply normalize_congr
  rw [← segments_parentChars_eq, String.toList_ofList, String.toList_ofList,
    segments_parentChars List.not_mem_nil, segments_dropWhile, List.reverse_reverse]

end Path

namespace Engine

variable {κ : Type} [DecidableEq κ]

/-- The path of the root, which is the place of everything when none is set. -/
def rootPath (e : Engine) : String := e.config.root.getD "/"

theorem entryPath_eq {e : Engine} (hroot : e.rootPath.toList.head? ≠ some '~') {p : String}
    (hp : Path.IsRelative p) : e.entryPath p = Path.normalize (e.rootPath ++ "/" ++ p) := by
  unfold rootPath at hroot ⊢
  unfold entryPath
  cases hset : e.config.root with
  | none =>
    have hplace : Path.segments "/".toList = Path.segments "".toList := rfl
    have hstart := Path.normalize_congr hplace p
    have hbase : Path.base "" = "" := rfl
    dsimp only [Option.getD_none]
    rw [resolve, Path.resolve_of_isRelative hp, hbase, hstart]
  | some root =>
    have hplain : ¬(p.toList.head? = some '/' ∨ p.toList.head? = some '~') :=
      not_or.mpr hp
    have hhead : (root ++ "/" ++ p).toList.head? ≠ some '~' := by
      rw [hset, Option.getD_some] at hroot
      rw [Path.toList_append_slash, List.head?_append]
      cases hfirst : root.toList.head? with
      | none => simp
      | some c => simpa [hfirst] using hroot
    dsimp only [Option.getD_some]
    rw [if_neg hplain, resolve, Path.resolve_alone hhead]

theorem resolve_inlinePath (e : Engine) {p : String} (hp : Path.IsRelative p) :
    e.resolve p e.inlinePath = Path.normalize (e.rootPath ++ "/" ++ p) := by
  unfold resolve inlinePath rootPath
  cases e.config.root with
  | none => exact Path.resolve_in_directory hp ['/'] none
  | some root =>
    have hread := Path.resolve_in_directory hp root.toList (some root)
    rw [String.ofList_toList] at hread
    exact hread

/-- The template of a source text has the path of such texts, whether it is compiled or found among
those that are kept. -/
theorem path_of_cached_inline {e : Engine} {key : String → String → κ} {source : String}
    {c c' : Cache κ} {template : Template}
    (h : (e.cached key (.inline source)).run.run c = (.ok template, c')) :
    template.path = e.inlinePath := by
  rw [run_cached, run_loadRequest] at h
  cases hfind : c.find? key (e.lookup (.inline source)) with
  | some unit =>
    have hkept : c.reusableInline? (key source e.inlinePath) source e.inlinePath = some unit :=
      hfind
    rw [hfind] at h
    cases h
    unfold Cache.reusableInline? at hkept
    split at hkept
    · cases hkept
    · have hfor := (Option.filter_eq_some_iff.mp hkept).2
      simp only [Cache.CachedUnit.isFor, Bool.and_eq_true, beq_iff_eq] at hfor
      exact hfor.2
  | none =>
    rw [hfind] at h
    cases hcompile : e.compileRequest (.inline source) with
    | error failure =>
      rw [hcompile] at h
      cases h
    | ok compiled =>
      have hsettled := Cache.settle_inline c compiled hfind
      have hpath := (compileInline_eq_ok hcompile).1
      simp only [hcompile, Cache.conclude, lookup, hsettled] at h
      cases h
      exact hpath

/-- A relative path names one template under the root: the one that a render of the host starts
from, the one that is meant after a tilde in any template, and the one that is meant in a source
text that is rendered on its own. -/
theorem root_named_alike (e : Engine)
    (hroot : ∀ root, e.config.root = some root → root.toList.head? ≠ some '~') {p : String}
    (hp : Path.IsRelative p) :
    e.entryPath p = Path.normalize (e.rootPath ++ "/" ++ p) ∧
    e.requestPath (e.pathRequest p) = e.entryPath p ∧
    (∀ referencing, e.resolve ("~/" ++ p) referencing = e.entryPath p) ∧
    (∀ (key : String → String → κ) source c c' template,
      (e.cached key (.inline source)).run.run c = (.ok template, c') →
        e.resolve p template.path = e.entryPath p) := by
  have hplain : e.rootPath.toList.head? ≠ some '~' := by
    unfold rootPath
    cases hset : e.config.root with
    | none => decide
    | some root => exact hroot root hset
  have hentry := entryPath_eq hplain hp
  refine ⟨hentry, ?_, fun referencing => ?_, fun key source c c' template hload => ?_⟩
  · -- a path that has been resolved is not changed by being looked up
    rw [hentry]
    change e.resolve (e.entryPath p) "" = _
    rw [hentry]
    exact Path.resolve_normalize _ _ _
  · rw [hentry]
    exact Path.resolve_tilde p referencing _
  · rw [hentry, path_of_cached_inline hload]
    exact e.resolve_inlinePath hp

end Engine

def rooted : Engine :=
  EngineSetup.engine
    { source := .ofList [("/site/home", "home")]
      host := fun _ _ => .ok .undefined
      config := { root := some "site//" } }

theorem rooted_named_alike :
    (∀ root, rooted.config.root = some root → root.toList.head? ≠ some '~') ∧
    Path.IsRelative "./home" ∧
    rooted.entryPath "./home" = "/site/home" ∧
    rooted.requestPath (rooted.pathRequest "./home") = "/site/home" ∧
    rooted.resolve ("~/" ++ "./home") "/views/page" = "/site/home" ∧
    ∃ template c, (rooted.cached (κ := InlineKey) Prod.mk (.inline "x")).run.run (.empty false) =
      (.ok template, c) ∧ rooted.resolve "./home" template.path = "/site/home" := by
  have hroot : ∀ root, rooted.config.root = some root → root.toList.head? ≠ some '~' := by
    rintro _ ⟨⟩
    decide
  have hrelative : Path.IsRelative "./home" := ⟨by decide, by decide⟩
  have hentry : rooted.entryPath "./home" = "/site/home" := by decide
  obtain ⟨-, hrequest, htilde, hinline⟩ :=
    rooted.root_named_alike (κ := InlineKey) hroot hrelative
  rw [hentry] at hrequest htilde hinline
  have hloads : (((rooted.cached (κ := InlineKey) Prod.mk (.inline "x")).run.run
      (.empty false)).1.toOption).isSome = true := by decide +kernel
  rcases hload : (rooted.cached (κ := InlineKey) Prod.mk (.inline "x")).run.run (.empty false) with
    ⟨failure | template, c⟩
  · rw [hload] at hloads
    cases hloads
  · exact ⟨hroot, hrelative, hentry, hrequest, htilde _, template, c, rfl,
      hinline Prod.mk "x" _ c template hload⟩

end Templating
