import Mathlib.Data.String.Basic
import Templating.Engine

/-!
Engines as they can be put together: what is known of their tags and shortcuts, and which forms
their grammar has.
-/
namespace Templating

/-- The keys are in order, and no two are the same. -/
def Ordered {α : Type} (entries : List (String × α)) : Prop := entries.Pairwise (·.1 < ·.1)

theorem mem_insertSorted {α : Type} {key : String} {value : α} {entries : List (String × α)}
    {entry : String × α} (h : entry ∈ insertSorted key value entries) :
    entry = (key, value) ∨ entry ∈ entries := by
  induction entries with
  | nil => exact .inl (List.mem_singleton.mp h)
  | cons first rest ih =>
    obtain ⟨k, v⟩ := first
    simp only [insertSorted] at h
    split at h
    · exact List.mem_cons.mp h
    · split at h
      · exact (List.mem_cons.mp h).imp_right (List.mem_cons_of_mem _)
      · rcases List.mem_cons.mp h with rfl | h
        · exact .inr List.mem_cons_self
        · exact (ih h).imp_right (List.mem_cons_of_mem _)

namespace Ordered

variable {α : Type} {entries : List (String × α)}

theorem insertSorted (h : Ordered entries) (key : String) (value : α) :
    Ordered (insertSorted key value entries) := by
  induction entries with
  | nil => exact List.pairwise_singleton _ _
  | cons first rest ih =>
    obtain ⟨k, v⟩ := first
    obtain ⟨hfirst, hrest⟩ := List.pairwise_cons.mp h
    simp only [Templating.insertSorted]
    split
    · rename_i hlt
      refine List.pairwise_cons.mpr ⟨fun entry hentry => ?_, h⟩
      rcases List.mem_cons.mp hentry with rfl | hentry
      · exact hlt
      · exact hlt.trans (hfirst entry hentry)
    · split
      · rename_i heq
        subst heq
        exact List.pairwise_cons.mpr ⟨hfirst, hrest⟩
      · rename_i hnlt hne
        refine List.pairwise_cons.mpr ⟨fun entry hentry => ?_, ih hrest⟩
        rcases mem_insertSorted hentry with rfl | hentry
        · exact lt_of_le_of_ne (le_of_not_gt hnlt) (Ne.symm hne)
        · exact hfirst entry hentry

/-- Every entry is found by its key. -/
theorem lookup (h : Ordered entries) {key : String} {value : α} (hmem : (key, value) ∈ entries) :
    entries.lookup key = some value := by
  induction entries with
  | nil => cases hmem
  | cons first rest ih =>
    obtain ⟨hfirst, hrest⟩ := List.pairwise_cons.mp h
    rcases List.mem_cons.mp hmem with rfl | hmem
    · exact List.lookup_cons_self
    · have hne : (key == first.1) = false := beq_false_of_ne (hfirst _ hmem).ne'
      rw [List.lookup_cons, hne]
      exact ih hrest hmem

end Ordered

theorem mem_of_lookup_eq {α : Type} {entries : List (String × α)} {key : String} {value : α}
    (h : entries.lookup key = some value) : (key, value) ∈ entries := by
  obtain ⟨before, after, rfl, -⟩ := List.lookup_eq_some_iff.mp h
  exact List.mem_append_right _ List.mem_cons_self

theorem Form.insert_perm (form : Form) (forms : List Form) :
    (form.insert forms).Perm (form :: forms) := by
  induction forms with
  | nil => exact .refl _
  | cons other forms ih =>
    unfold Form.insert
    split
    · exact .refl _
    · exact (ih.cons other).trans (.swap _ _ _)

namespace Registry

variable (tags : Registry) (shortcuts : List (String × ShortcutTarget))

theorem foldl_tag (entries : List (String × Tag)) (g : Grammar) :
    entries.foldl (fun g (name, tag) => g.tag name tag.content) g =
      { g with tags := g.tags ++ entries.map fun (name, tag) => ⟨name, tag.content⟩ } := by
  induction entries generalizing g with
  | nil => simp
  | cons entry entries ih =>
    obtain ⟨name, tag⟩ := entry
    rw [List.foldl_cons, ih]
    simp [Grammar.tag]

/-- The tags in their order. -/
theorem tags_grammar :
    (tags.grammar shortcuts).tags = tags.map fun (name, tag) => ⟨name, tag.content⟩ := by
  have hkept (g : Grammar) : (shortcuts.foldl (fun g entry =>
      g.shortcut entry.1 (tags.acceptsContent entry.2.tag)) g).tags = g.tags := by
    induction shortcuts generalizing g with
    | nil => rfl
    | cons entry shortcuts ih => exact ih _
  rw [grammar, hkept, foldl_tag]
  rfl

/-- The shortcuts, in another order. -/
theorem shortcuts_grammar :
    (tags.grammar shortcuts).shortcuts.Perm
      (shortcuts.map fun (aliasName, target) => ⟨aliasName, tags.acceptsContent target.tag⟩) := by
  have hall (g : Grammar) : (shortcuts.foldl (fun g (aliasName, target) =>
      g.shortcut aliasName (tags.acceptsContent target.tag)) g).shortcuts.Perm
        (g.shortcuts ++ shortcuts.map fun (aliasName, target) =>
          ⟨aliasName, tags.acceptsContent target.tag⟩) := by
    induction shortcuts generalizing g with
    | nil => simp
    | cons entry shortcuts ih =>
      obtain ⟨aliasName, target⟩ := entry
      refine (ih _).trans ?_
      rw [List.map_cons]
      exact ((Form.insert_perm _ _).append_right _).trans List.perm_middle.symm
  refine (hall _).trans ?_
  rw [foldl_tag]
  exact .refl _

end Registry

/-- What the steps of putting an engine together lead to. A configuration comes with its shortcuts
in order. -/
inductive EngineSetup.Assembled : EngineSetup → Prop
  | start (source : TemplateSource) (host : HostFunctions) : Assembled { source, host }
  | withConfig {s : EngineSetup} (h : Assembled s) {config : Config}
    (hconfig : Ordered config.shortcuts) : Assembled { s with config }
  | withTag {s : EngineSetup} (h : Assembled s) (name : String) (tag : Tag) :
    Assembled (s.withTag name tag)
  | withShortcut {s : EngineSetup} (h : Assembled s) (aliasName : String)
    (target : ShortcutTarget) : Assembled (s.withShortcut aliasName target)

inductive Engine.Obtained : Engine → Prop
  | plain (source : TemplateSource) (host : HostFunctions) : Obtained (.plain source host)
  | built {s : EngineSetup} {e : Engine} (hs : s.Assembled) (h : s.build = .ok e) : Obtained e

/-- The grammar is that of the tags and shortcuts, these are in order, and all tags that shortcuts
stand for are there. -/
structure Engine.Consistent (e : Engine) : Prop where
  grammar : e.grammar = e.tags.grammar e.config.shortcuts
  tags : Ordered e.tags
  shortcuts : Ordered e.config.shortcuts
  targets : ∀ entry ∈ e.config.shortcuts, (e.tags.get? entry.2.tag).isSome = true

/-- What a list of checks that all succeed says of its members. -/
theorem forM_eq_ok {α ε : Type} {check : α → Except ε Unit} {xs : List α}
    (h : xs.forM check = .ok ()) : ∀ x ∈ xs, check x = .ok () := by
  induction xs with
  | nil => nofun
  | cons x xs ih =>
    change (check x >>= fun _ => xs.forM check) = .ok () at h
    cases hx : check x with
    | error e => simp [hx, bind, Except.bind] at h
    | ok u =>
      rw [hx] at h
      exact List.forall_mem_cons.mpr ⟨hx, ih h⟩

theorem Config.of_validateShortcut {aliasName : String} {target : ShortcutTarget}
    (h : validateShortcut aliasName target = .ok ()) :
    aliasName ≠ "" ∧ (∀ c ∈ aliasName.toList, Text.isBlank c = false) ∧ target.path ≠ "" := by
  unfold validateShortcut at h
  split at h
  · cases h
  · rename_i halias
    split at h
    · cases h
    · rename_i hpath
      simpa [String.isEmpty_iff, and_assoc] using And.intro halias hpath

theorem Registry.of_validate {tags : Registry} {shortcuts : List (String × ShortcutTarget)}
    (h : tags.validate shortcuts = .ok ()) :
    (∀ entry ∈ tags, isValidName entry.1 = true) ∧
      ∀ entry ∈ shortcuts, (tags.get? entry.2.tag).isSome = true := by
  unfold validate at h
  cases hnames : (tags.forM fun (name, _) =>
      if isValidName name then pure () else throw (.invalidTagName name) :
        Except ConfigFault Unit) with
  | error fault => simp [hnames, bind, Except.bind] at h
  | ok u =>
    simp only [hnames, bind, Except.bind] at h
    refine ⟨fun entry hentry => ?_, fun entry hentry => ?_⟩
    · have hcheck := forM_eq_ok hnames entry hentry
      by_contra hinvalid
      simp [hinvalid, throw, throwThe, MonadExceptOf.throw] at hcheck
    · have hcheck := forM_eq_ok h entry hentry
      by_contra hunknown
      simp [validateShortcut, hunknown] at hcheck

namespace EngineSetup

theorem Assembled.ordered {s : EngineSetup} (h : s.Assembled) :
    Ordered s.tags ∧ Ordered s.config.shortcuts := by
  induction h with
  | start source host => exact ⟨List.pairwise_singleton _ _, List.Pairwise.nil⟩
  | withConfig h hconfig ih => exact ⟨ih.1, hconfig⟩
  | withTag h name tag ih => exact ⟨ih.1.insertSorted name tag, ih.2⟩
  | withShortcut h aliasName target ih => exact ⟨ih.1, ih.2.insertSorted aliasName target⟩

structure Checked (s : EngineSetup) : Prop where
  depth : s.config.maxDepth ≠ 0
  aliases : ∀ entry ∈ s.config.shortcuts,
    entry.1 ≠ "" ∧ (∀ c ∈ entry.1.toList, Text.isBlank c = false) ∧ entry.2.path ≠ ""
  names : ∀ entry ∈ s.tags, Registry.isValidName entry.1 = true
  targets : ∀ entry ∈ s.config.shortcuts, (s.tags.get? entry.2.tag).isSome = true

theorem checked_of_validate {s : EngineSetup} (hconfig : s.config.validate = .ok ())
    (htags : s.tags.validate s.config.shortcuts = .ok ()) : s.Checked := by
  unfold Config.validate at hconfig
  split at hconfig
  · cases hconfig
  · rename_i hdepth
    have haliases : ∀ entry ∈ s.config.shortcuts,
        Config.validateShortcut entry.1 entry.2 = .ok () := forM_eq_ok hconfig
    obtain ⟨hnames, htargets⟩ := Registry.of_validate htags
    refine ⟨hdepth, fun entry hentry => ?_, hnames, htargets⟩
    exact Config.of_validateShortcut (haliases entry hentry)

theorem build_eq_ok {s : EngineSetup} {e : Engine} (h : s.build = .ok e) :
    e = s.engine ∧ s.Checked := by
  unfold build at h
  cases hconfig : s.config.validate with
  | error fault => simp [hconfig, bind, Except.bind] at h
  | ok u =>
    cases htags : s.tags.validate s.config.shortcuts with
    | error fault => simp [hconfig, htags, bind, Except.bind] at h
    | ok u' =>
      simp only [hconfig, htags, bind, Except.bind, pure, Except.pure, Except.ok.injEq] at h
      exact ⟨h.symm, checked_of_validate hconfig htags⟩

/-- So it is enough that the checks succeed. -/
theorem build_of_isSome {s : EngineSetup} (h : s.build.toOption.isSome = true) :
    s.build = .ok s.engine := by
  cases hbuild : s.build with
  | ok e => rw [(build_eq_ok hbuild).1]
  | error fault => simp [hbuild, Except.toOption] at h

end EngineSetup

theorem Engine.Obtained.consistent {e : Engine} (h : e.Obtained) : e.Consistent := by
  cases h with
  | plain source host => exact ⟨rfl, List.pairwise_singleton _ _, List.Pairwise.nil, nofun⟩
  | built hs h =>
    obtain ⟨rfl, hchecked⟩ := EngineSetup.build_eq_ok h
    exact ⟨rfl, hs.ordered.1, hs.ordered.2, hchecked.targets⟩

/-- Where templates come from makes no difference. -/
theorem Engine.Consistent.change {e : Engine} (h : e.Consistent) (source : TemplateSource) :
    Consistent { e with source } :=
  ⟨h.grammar, h.tags, h.shortcuts, h.targets⟩

end Templating
