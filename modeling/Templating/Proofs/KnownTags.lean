import Templating.Proofs.Assembly
import Templating.Proofs.LayoutLast
import Templating.Proofs.Sessions
import Templating.Proofs.Upholding

/-!
The tags and shortcuts that templates call. Only names that the grammar has are read as calls, and
all of them are there in an engine that could be built; so no render fails for the configuration.
-/
namespace Templating

def Grammar.Offers (g : Grammar) : Instruction → Prop
  | .tag name _ _ content =>
    ∃ form ∈ g.tags, form.name = name ∧ (content = true → form.content = true)
  | .closeTag name => ∃ form ∈ g.tags, form.name = name ∧ form.content = true
  | .shortcut aliasName _ content =>
    ∃ form ∈ g.shortcuts, form.name = aliasName ∧ (content = true → form.content = true)
  | .closeShortcut aliasName =>
    ∃ form ∈ g.shortcuts, form.name = aliasName ∧ form.content = true
  | _ => True

namespace Directive

variable {g : Grammar} {text : List Char} {result : Except DirectiveError Instruction}

theorem builtin?_offered (hresult : builtin? text = some result) : Yields g.Offers result := by
  unfold builtin? at hresult
  repeat' split at hresult
  all_goals cases hresult
  all_goals first
    | exact .ok trivial
    | exact .bind fun _ => .ok trivial
    | exact loopHeader_yields (fun _ _ _ => trivial) _ _

theorem tagForm?_offered {form : Form} (hform : form ∈ g.tags)
    (hresult : tagForm? text form = some result) : Yields g.Offers result := by
  unfold tagForm? at hresult
  split at hresult
  · cases hresult
    dsimp only
    split
    · exact .error _
    · rename_i hcontent
      have hcontent : form.content = true := by simpa using hcontent
      exact .bind fun _ => .ok ⟨form, hform, rfl, fun _ => hcontent⟩
  · split at hresult
    · cases hresult
      exact .bind fun _ => .ok ⟨form, hform, rfl, nofun⟩
    · split at hresult
      · rename_i hclose
        cases hresult
        exact .ok ⟨form, hform, rfl, hclose.1⟩
      · cases hresult

theorem shortcutForm?_offered {body : List Char} {form : Form} (hform : form ∈ g.shortcuts)
    (hresult : shortcutForm? text body form = some result) : Yields g.Offers result := by
  unfold shortcutForm? at hresult
  obtain ⟨after, -, hresult⟩ := Option.bind_eq_some_iff.mp hresult
  split at hresult
  · split at hresult
    · cases hresult
    · cases hresult
      dsimp only
      split
      · exact .error _
      · rename_i hcontent
        have hcontent : form.content = true := by simpa using hcontent
        exact .bind fun _ => .ok ⟨form, hform, rfl, fun _ => hcontent⟩
  · split at hresult
    · cases hresult
    · cases hresult
      exact .bind fun _ => .ok ⟨form, hform, rfl, nofun⟩

theorem shortcutForms?_offered (hresult : shortcutForms? text g.shortcuts = some result) :
    Yields g.Offers result := by
  unfold shortcutForms? at hresult
  split at hresult
  · obtain ⟨form, hform, hread⟩ := List.exists_of_findSome?_eq_some hresult
    exact shortcutForm?_offered hform hread
  · obtain ⟨aliasName, hclosed, rfl⟩ := Option.map_eq_some_iff.mp hresult
    unfold closedShortcut? at hclosed
    obtain ⟨name, -, hclosed⟩ := Option.bind_eq_some_iff.mp hclosed
    obtain ⟨form, hfind, hname⟩ := Option.bind_eq_some_iff.mp hclosed
    obtain rfl := Option.some.inj hname
    have hcontent := List.find?_some hfind
    rw [Bool.and_eq_true] at hcontent
    exact .ok ⟨form, List.mem_of_find?_eq_some hfind, rfl, hcontent.1⟩

/-- A directive calls only what the grammar has. -/
theorem read_offered (g : Grammar) (directive : String) : Yields g.Offers (read g directive) := by
  unfold read
  dsimp only
  split
  · exact .error _
  · cases hbuiltin : builtin? directive.toList with
    | some result => exact builtin?_offered hbuiltin
    | none =>
      cases htag : g.tags.findSome? (tagForm? directive.toList) with
      | some result =>
        obtain ⟨form, hform, hread⟩ := List.exists_of_findSome?_eq_some htag
        exact tagForm?_offered hform hread
      | none =>
        cases hshortcut : shortcutForms? directive.toList g.shortcuts with
        | some result => exact shortcutForms?_offered hshortcut
        | none => exact .bind fun _ => .ok trivial

end Directive

theorem Grammar.offers_aimed (g : Grammar) (t : Target) (instruction : Instruction) :
    g.Offers (instruction.aimed t) = g.Offers instruction := by
  cases instruction <;> rfl

/-- A target makes no difference to what a statement calls. -/
theorem Statement.offers_aimed {g : Grammar} {s : Statement} (h : g.Offers s.instruction)
    (targets : List Target) (i : Nat) : g.Offers (s.aimed targets i).instruction := by
  unfold aimed
  split
  · rwa [Grammar.offers_aimed]
  · exact h

/-- So do compiled templates. -/
theorem compiled_offered {g : Grammar} {path source : String} {template : Template}
    (h : Template.compile g path source = .ok template) :
    ∀ s ∈ template.statements, g.Offers s.instruction := by
  intro s hs
  obtain ⟨i, hi⟩ := List.getElem?_of_mem hs
  obtain ⟨segment, s', targets, -, hread, rfl⟩ := exists_segment h hi
  refine Statement.offers_aimed ?_ targets i
  cases segment with
  | text t line offset =>
    obtain rfl := Except.ok.inj hread
    trivial
  | directive d line offset =>
    unfold Segment.statement at hread
    dsimp only at hread
    split at hread
    · rename_i instruction hd
      obtain rfl := Except.ok.inj hread
      exact Directive.read_offered g d instruction hd
    · cases hread

namespace Engine

/-- The instruction calls nothing, or a tag or shortcut that there is, with content only where the
tag accepts it. -/
def Knows (e : Engine) : Instruction → Prop
  | .tag name _ _ content =>
    ∃ tag, e.tags.get? name = some tag ∧ (content = true → tag.content = true)
  | .closeTag name => ∃ tag, e.tags.get? name = some tag ∧ tag.content = true
  | .shortcut aliasName _ content =>
    ∃ target tag, e.config.shortcuts.lookup aliasName = some target ∧
      e.tags.get? target.tag = some tag ∧ (content = true → tag.content = true)
  | .closeShortcut aliasName =>
    ∃ target tag, e.config.shortcuts.lookup aliasName = some target ∧
      e.tags.get? target.tag = some tag ∧ tag.content = true
  | _ => True

namespace Consistent

variable {e : Engine} (h : e.Consistent)
include h

theorem tag_of_form {form : Form} (hform : form ∈ e.grammar.tags) :
    ∃ tag, e.tags.get? form.name = some tag ∧ tag.content = form.content := by
  rw [h.grammar, Registry.tags_grammar] at hform
  obtain ⟨⟨name, tag⟩, hmem, rfl⟩ := List.mem_map.mp hform
  exact ⟨tag, h.tags.lookup hmem, rfl⟩

theorem shortcut_of_form {form : Form} (hform : form ∈ e.grammar.shortcuts) :
    ∃ target tag, e.config.shortcuts.lookup form.name = some target ∧
      e.tags.get? target.tag = some tag ∧ tag.content = form.content := by
  rw [h.grammar, (Registry.shortcuts_grammar _ _).mem_iff] at hform
  obtain ⟨⟨aliasName, target⟩, hmem, rfl⟩ := List.mem_map.mp hform
  obtain ⟨tag, htag⟩ := Option.isSome_iff_exists.mp (h.targets _ hmem)
  refine ⟨target, tag, h.shortcuts.lookup hmem, htag, ?_⟩
  simp [Registry.acceptsContent, htag]

/-- Everything that the grammar has is there. -/
theorem knows {instruction : Instruction} (hoffers : e.grammar.Offers instruction) :
    e.Knows instruction := by
  cases instruction with
  | tag name first data content =>
    obtain ⟨form, hform, rfl, hcontent⟩ := hoffers
    obtain ⟨tag, htag, htag'⟩ := h.tag_of_form hform
    exact ⟨tag, htag, htag' ▸ hcontent⟩
  | closeTag name =>
    obtain ⟨form, hform, rfl, hcontent⟩ := hoffers
    obtain ⟨tag, htag, htag'⟩ := h.tag_of_form hform
    exact ⟨tag, htag, htag' ▸ hcontent⟩
  | shortcut aliasName data content =>
    obtain ⟨form, hform, rfl, hcontent⟩ := hoffers
    obtain ⟨target, tag, htarget, htag, htag'⟩ := h.shortcut_of_form hform
    exact ⟨target, tag, htarget, htag, htag' ▸ hcontent⟩
  | closeShortcut aliasName =>
    obtain ⟨form, hform, rfl, hcontent⟩ := hoffers
    obtain ⟨target, tag, htarget, htag, htag'⟩ := h.shortcut_of_form hform
    exact ⟨target, tag, htarget, htag, htag' ▸ hcontent⟩
  | _ => trivial

theorem knows_compiled {path source : String} {template : Template}
    (hcompile : Template.compile e.grammar path source = .ok template) :
    ∀ s ∈ template.statements, e.Knows s.instruction :=
  fun s hs => h.knows (compiled_offered hcompile s hs)

end Consistent

end Engine

def Failure.isConfiguration : Failure → Bool
  | configuration _ => true
  | _ => false

def Promise.configured (σ : Type) : Promise σ where
  leads _ _ := True
  fails failure := failure.isConfiguration = false
  refl _ := trivial
  trans _ _ := trivial
  numbered _ _ := trivial
  framed _ := trivial
  deeper _ := trivial
  evaluation _ _ _ _ := rfl
  tag _ _ _ _ := rfl
  tooDeep _ _ := rfl

namespace Engine

variable {σ : Type} {e : Engine}

/-- The tags raise no failures of the configuration: they hand one on only where a render has failed
so. -/
def TagsRegular (e : Engine) : Prop :=
  ∀ name tag, e.tags.get? name = some tag → ∀ call,
    (tag.run call).HandsOn (·.isConfiguration = false)

def LoadsKnown (e : Engine) (load : Loader σ) : Prop :=
  ∀ request c, (Promise.configured σ).Ends (∀ s ∈ ·.statements, e.Knows s.instruction)
    ((load request).run.run c).1

variable (htags : e.TagsRegular) {load : Loader σ} (hload : e.LoadsKnown load)
include htags

theorem surroundings_configured {render : Request → RenderM σ String}
    (hrender : ∀ request, RenderM.Upholds (.configured σ) (fun _ => True) (render request))
    {template : Template} (hknown : ∀ s ∈ template.statements, e.Knows s.instruction) :
    (e.surroundings render).Upholds (.configured σ) template := by
  have hcall {name : String} {tag : Tag} (htag : e.tags.get? name = some tag) (first : Value)
      (data : Members) (site : CallSite) :
      RenderM.Upholds (.configured σ) (fun _ => True) (e.renderTag render name first data site) :=
    renderTag_upholds (fun _ request s => ⟨trivial, (hrender request _).2⟩) htag
      (htags name tag htag)
  refine ⟨.evaluate e.host, fun path => hrender _, fun s hs name hname first data site => ?_,
    fun s hs name hname data site => ?_⟩
  · have hs' := hknown s hs
    generalize s.instruction = instruction at hname hs'
    cases hname with
    | call _ _ content =>
      obtain ⟨tag, htag, -⟩ := hs'
      exact hcall htag first data site
    | close =>
      obtain ⟨tag, htag, -⟩ := hs'
      exact hcall htag first data site
  · have hs' := hknown s hs
    obtain ⟨target, tag, htarget, htag⟩ : ∃ target tag,
        e.config.shortcuts.lookup name = some target ∧ e.tags.get? target.tag = some tag := by
      generalize s.instruction = instruction at hname hs'
      cases hname with
      | call _ content =>
        obtain ⟨target, tag, htarget, htag, -⟩ := hs'
        exact ⟨target, tag, htarget, htag⟩
      | close =>
        obtain ⟨target, tag, htarget, htag, -⟩ := hs'
        exact ⟨target, tag, htarget, htag⟩
    change RenderM.Upholds _ _ (e.renderShortcut render name data site)
    unfold renderShortcut
    rw [htarget]
    exact hcall htag _ data site

include hload

theorem activate_configured (room : Nat) (request : Request) :
    RenderM.Upholds (.configured σ) (fun _ => True) (e.activate load room request) := by
  induction room generalizing request with
  | zero => exact .throw rfl
  | succ room ih =>
    rw [activate_succ]
    intro state
    refine activation_upholdsAt _ (Q := (∀ s ∈ ·.statements, e.Knows s.instruction))
      ⟨trivial, hload request _⟩ fun template t _ hknown => ?_
    have hsurroundings := surroundings_configured htags ih hknown
    rw [← Run.textIn_step]
    refine Run.textIn_upholds hsurroundings (fun i s hs => ?_) _
    by_cases hblock : s.instruction = .closeBlock
    · unfold Run.step
      rw [hblock]
      exact Run.closeBlock_upholds fun _ _ _ => trivial
    · cases hlayout : s.instruction.isLayout with
      | false => exact Run.step_upholds hsurroundings (List.mem_of_getElem? hs) hblock hlayout
      | true =>
        unfold Run.step
        cases hi : s.instruction with
        | layout path => exact Run.layout_upholds hsurroundings (fun _ _ _ => trivial) s path
        | _ => simp [hi, Instruction.isLayout] at hlayout

end Engine

def Answer.Regular : Answer → Prop
  | text result => ∀ failure, result = .error failure → failure.isConfiguration = false
  | template result => ∀ failure, result = .error failure → failure.isConfiguration = false
  | _ => True

namespace Engine

variable {e : Engine}

theorem Consistent.compileRequest_known (h : e.Consistent) (request : Request) :
    (Promise.configured History).Ends (∀ s ∈ ·.statements, e.Knows s.instruction)
      (e.compileRequest request) := by
  cases hcompile : e.compileRequest request with
  | ok template =>
    cases request with
    | path path referencing => exact h.knows_compiled (compileAt_eq_ok hcompile).2
    | inline source => exact h.knows_compiled (compileInline_eq_ok hcompile).2
  | error failure =>
    change failure.isConfiguration = false
    cases request with
    | path path referencing =>
      change e.compileAt (e.resolve path referencing) referencing = _ at hcompile
      unfold compileAt at hcompile
      split at hcompile
      · cases hcompile
        rfl
      · split at hcompile
        · cases hcompile
        · cases hcompile
          rfl
    | inline source =>
      change e.compileInline source = _ at hcompile
      unfold compileInline at hcompile
      split at hcompile
      · cases hcompile
      · cases hcompile
        rfl

/-- What is frozen for a path is compiled under the same grammar. -/
theorem Consistent.loadsKnown (h : e.Consistent) : e.LoadsKnown e.frozen := by
  intro request history
  have hfrozen : (e.frozenAt history).Consistent ∧ (e.frozenAt history).Knows = e.Knows := by
    unfold frozenAt
    split
    · exact ⟨h, rfl⟩
    · exact ⟨h.change _, rfl⟩
  have hknown := hfrozen.1.compileRequest_known request
  rw [hfrozen.2] at hknown
  rw [run_frozen]
  cases hcompile : (e.frozenAt history).compileRequest request with
  | error failure => rwa [hcompile] at hknown
  | ok template => rwa [hcompile] at hknown

end Engine

namespace Session

variable {s : Session History} (h : s.engine.Consistent) (htags : s.engine.TagsRegular)
include h htags

theorem renderRequest_regular (request : Request) (data : Value) :
    Answer.Regular
      (.text ((s.engine.renderRequest s.engine.frozen request data).run s.state).1) := by
  intro failure hfailure
  have hends := (Engine.activate_configured htags h.loadsKnown s.engine.config.maxDepth request
    ⟨.ofData data.members 0, s.state⟩).2
  exact hends.fails_of_error failure hfailure

theorem perform_regular (operation : Operation) :
    (s.perform .frozen operation).1.Regular ∧
      (s.perform .frozen operation).2.engine.Consistent ∧
        (s.perform .frozen operation).2.engine.TagsRegular := by
  cases operation with
  | render path data => exact ⟨renderRequest_regular h htags _ data, h, htags⟩
  | renderText source data => exact ⟨renderRequest_regular h htags _ data, h, htags⟩
  | compiled path referencing =>
    exact ⟨(h.loadsKnown (.path path referencing) s.state.cache).fails_of_error, h, htags⟩
  | invalidate path => exact ⟨trivial, h, htags⟩
  | clear => exact ⟨trivial, h, htags⟩
  | change source => exact ⟨trivial, h.change source, htags⟩

theorem answers_regular (operations : List Operation) :
    ∀ answer ∈ s.answers .frozen operations, answer.Regular := by
  induction operations generalizing s with
  | nil => nofun
  | cons operation operations ih =>
    obtain ⟨hanswer, hconsistent, hregular⟩ := perform_regular h htags operation
    exact List.forall_mem_cons.mpr ⟨hanswer, ih hconsistent hregular⟩

end Session

/-- In an engine that could be built every call that a template can compile to is of a tag or a
shortcut that is there, and has content only where the tag accepts it. So nothing that is ever done
with the engine fails for its configuration, as long as tags do not raise such failures. -/
theorem Engine.never_misconfigured {e : Engine} (h : e.Obtained) (htags : e.TagsRegular) {κ : Type}
    [DecidableEq κ] (key : String → String → κ) (identity : Nat) (operations : List Operation) :
    (∀ path source template, Template.compile e.grammar path source = .ok template →
      ∀ s ∈ template.statements, e.Knows s.instruction) ∧
    ∀ answer ∈ Session.answers (.cached key) ⟨e, .empty e.config.development, identity⟩ operations,
      answer.Regular := by
  have hconsistent := h.consistent
  refine ⟨fun path source template => hconsistent.knows_compiled, ?_⟩
  rw [Session.answers_follow key (t := ⟨e, [], identity⟩) ⟨rfl, rfl, .empty e⟩]
  exact Session.answers_regular hconsistent htags operations

def framing : EngineSetup :=
  let setup : EngineSetup :=
    { source := .ofList [("/t", "\x7b\x7bframe:content 'a'\x7d\x7db\x7b\x7bendframe\x7d\x7d" ++
        "\x7b\x7b@line\x7d\x7d")]
      host := fun _ _ => .ok .undefined }
  (setup.withTag "frame" Element.tag).withShortcut "line" ⟨"frame", "hr"⟩

theorem framing_never_misconfigured : ∃ e, framing.build = .ok e ∧ e.Obtained ∧ e.TagsRegular ∧
    ((e.render "/t" .undefined).run e.initialState).1 = .ok "<a>b</a><hr>" ∧
    (∀ path source template, Template.compile e.grammar path source = .ok template →
      ∀ s ∈ template.statements, e.Knows s.instruction) ∧
    ∀ answer ∈ Session.answers (.cached Prod.mk) ⟨e, .empty e.config.development, firstIdentity⟩
      [.render "/t" .undefined, .renderText "\x7b\x7b@line\x7d\x7d" .undefined],
      answer.Regular := by
  have hbuild : framing.build = .ok framing.engine :=
    EngineSetup.build_of_isSome (by decide +kernel)
  have hobtained : framing.engine.Obtained :=
    .built (.withShortcut (.withTag (.start _ _) _ _) _ _) hbuild
  have htags : framing.engine.TagsRegular := by
    intro name tag htag call
    have hmem : (name, tag) ∈ [("frame", Element.tag), ("tag", Element.tag)] :=
      mem_of_lookup_eq htag
    simp only [List.mem_cons, Prod.mk.injEq, List.not_mem_nil, or_false] at hmem
    rcases hmem with ⟨-, rfl⟩ | ⟨-, rfl⟩
    all_goals
      intro failure hfailure
      cases hfailure
  exact ⟨framing.engine, hbuild, hobtained, htags, by decide +kernel,
    Engine.never_misconfigured hobtained htags Prod.mk firstIdentity _⟩

end Templating
