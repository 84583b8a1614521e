import Templating.Proofs.Assembly
import Templating.Proofs.Depth
import Templating.Proofs.FailurePlaces

/-!
Renders with more room. The limit on the depth of templates is looked at in one place only, so that
a higher one makes no difference to a render that stays below the lower one. Only a tag could tell
the two apart, by doing without a render that failed; tags that hand such a failure on cannot.
-/
namespace Templating

variable {σ α β : Type}

def Failure.IsTooDeep (failure : Failure) : Prop := ∃ path limit, failure = .tooDeep path limit

/-- What an action came to with little room, and what it comes to with more: the same value and the
same state, or the same failure, unless the room ran out. -/
inductive Deepens : Except Failure α × RenderState σ → Except Failure α × RenderState σ → Prop
  | done (value : α) (s : RenderState σ) : Deepens (.ok value, s) (.ok value, s)
  | failed (failure : Failure) (s t : RenderState σ) :
    Deepens (.error failure, s) (.error failure, t)
  | tooDeep (path : String) (limit : Nat) (s : RenderState σ)
    (result : Except Failure α × RenderState σ) :
    Deepens (.error (.tooDeep path limit), s) result

theorem Deepens.refl : ∀ result : Except Failure α × RenderState σ, Deepens result result
  | (.ok value, s) => .done value s
  | (.error failure, s) => .failed failure s s

/-- From every state the second action, which has more room, comes to what the first one comes to.
-/
def RenderM.Deepens (x y : RenderM σ α) : Prop :=
  ∀ s, Templating.Deepens (x.run.run s) (y.run.run s)

def RunM.Deepens (x y : RunM σ α) : Prop := ∀ a, RenderM.Deepens (x.run a) (y.run a)

namespace RenderM.Deepens

variable {x y : RenderM σ α}

protected theorem refl (x : RenderM σ α) : RenderM.Deepens x x := fun _ => .refl _

protected theorem bind {f g : α → RenderM σ β} (hxy : RenderM.Deepens x y)
    (hfg : ∀ v, RenderM.Deepens (f v) (g v)) : RenderM.Deepens (x >>= f) (y >>= g) := by
  intro s
  have h := hxy s
  rcases hx : x.run.run s with ⟨outcome, t⟩
  rcases hy : y.run.run s with ⟨outcome', t'⟩
  rw [hx, hy] at h
  cases h with
  | done value =>
    rw [run_bind_ok hx, run_bind_ok hy]
    exact hfg value t
  | failed failure =>
    rw [run_bind_error hx, run_bind_error hy]
    exact .failed failure _ _
  | tooDeep path limit =>
    rw [run_bind_error hx]
    exact .tooDeep path limit _ _

theorem bind_get {f g : RenderState σ → RenderM σ β} (h : ∀ s, RenderM.Deepens (f s) (g s)) :
    RenderM.Deepens (get >>= f) (get >>= g) := fun s => h s s

/-- The context may be changed for the time of the actions and put back from what it was. -/
theorem restoring (h : RenderM.Deepens x y) (enter : RenderState σ → RenderState σ)
    (leave : RenderState σ → RenderState σ → RenderState σ) (s : RenderState σ) :
    Templating.Deepens ((x.run.run (enter s)).1, leave s (x.run.run (enter s)).2)
      ((y.run.run (enter s)).1, leave s (y.run.run (enter s)).2) := by
  have hinner := h (enter s)
  generalize x.run.run (enter s) = p at hinner
  generalize y.run.run (enter s) = q at hinner
  cases hinner with
  | done value t => exact .done value _
  | failed failure t t' => exact .failed failure _ _
  | tooDeep path limit t => exact .tooDeep path limit _ _

theorem around (enter leave : Context → Context) (h : RenderM.Deepens x y) :
    RenderM.Deepens (RenderM.around enter leave x) (RenderM.around enter leave y) :=
  h.restoring (fun s => { s with context := enter s.context })
    fun _ t => { t with context := leave t.context }

theorem within (context : Context) (h : RenderM.Deepens x y) :
    RenderM.Deepens (RenderM.within context x) (RenderM.within context y) :=
  h.restoring (fun s => { s with context }) fun s t => { t with context := s.context }

end RenderM.Deepens

namespace RunM.Deepens

variable {x y : RunM σ α}

protected theorem refl (x : RunM σ α) : RunM.Deepens x x := fun _ => .refl _

protected theorem bind {f g : α → RunM σ β} (hxy : RunM.Deepens x y)
    (hfg : ∀ v, RunM.Deepens (f v) (g v)) : RunM.Deepens (x >>= f) (y >>= g) :=
  fun a => (hxy a).bind fun p => hfg p.1 p.2

theorem lift {x y : RenderM σ α} (h : RenderM.Deepens x y) :
    RunM.Deepens (liftM x : RunM σ α) (liftM y : RunM σ α) :=
  fun _ => h.bind fun _ => .refl _

theorem bind_get {f g : Activation → RunM σ β} (h : ∀ a, RunM.Deepens (f a) (g a)) :
    RunM.Deepens (get >>= f) (get >>= g) := fun a => h a a

end RunM.Deepens

structure Surroundings.Deepens (x y : Surroundings σ) : Prop where
  evaluate : x.evaluate = y.evaluate
  render : ∀ request, RenderM.Deepens (x.render request) (y.render request)
  tag : ∀ name first data site,
    RenderM.Deepens (x.tag name first data site) (y.tag name first data site)
  shortcut : ∀ name data site,
    RenderM.Deepens (x.shortcut name data site) (y.shortcut name data site)

namespace Run

variable {x y : Surroundings σ} (template : Template) (h : x.Deepens y)
include h

/-- Every statement has more room where tags and templates have. -/
theorem deepens : RunM.FullCongruence x y template RunM.Deepens where
  pure _ := .refl _
  throw _ _ := .refl _
  bind := RunM.Deepens.bind
  bind_bound _ _ _ hfg := RunM.Deepens.bind_get fun _ => hfg _
  eval s e := by
    unfold eval
    rw [h.evaluate]
    exact .refl _
  emit _ := .refl _
  bindName _ _ := .refl _
  insert path data := by
    unfold insert
    refine RunM.Deepens.bind (RunM.Deepens.lift ?_) fun _ => .refl _
    exact (h.render _).around _ _
  tag s name first data := by
    unfold tag
    refine (RunM.Deepens.refl (site template s)).bind fun site => ?_
    exact (RunM.Deepens.lift (h.tag name first data site)).bind fun _ => .refl _
  shortcut s name data := by
    unfold shortcut
    refine (RunM.Deepens.refl (site template s)).bind fun site => ?_
    exact (RunM.Deepens.lift (h.shortcut name data site)).bind fun _ => .refl _
  bind_get := RunM.Deepens.bind_get
  set _ := .refl _
  modify _ := .refl _
  setGlobal _ _ := .refl _
  render request := RunM.Deepens.lift (h.render request)

theorem text_deepens : RenderM.Deepens (text x template) (text y template) := by
  unfold text
  refine RenderM.Deepens.bind_get fun s => ?_
  exact ((deepens template h).exec 0 _ _).bind fun _ => .refl _

end Run

/-- The tag ends with this failure, whatever the renders come to that it still asks for. -/
def TagAction.EndsWith (failure : Failure) : TagAction → Prop
  | finish result => result = .error (.handedOn failure)
  | render _ _ next => ∀ outcome, (next outcome).EndsWith failure
  | renderText _ _ next => ∀ outcome, (next outcome).EndsWith failure

/-- When a render fails that the tag asks for, the tag ends with that failure. -/
def TagAction.Relays : TagAction → Prop
  | finish _ => True
  | render _ _ next => (∀ text, (next (.ok text)).Relays) ∧
    ∀ failure, (next (.error failure)).EndsWith failure
  | renderText _ _ next => (∀ text, (next (.ok text)).Relays) ∧
    ∀ failure, (next (.error failure)).EndsWith failure

def Engine.TagsRelay (e : Engine) : Prop :=
  ∀ name tag, e.tags.get? name = some tag → ∀ call, (tag.run call).Relays

def TagFailure.raise (site : CallSite) (name : String) :
    Except TagFailure String → RenderM σ String
  | .ok text => pure text
  | .error failure => throw (failure.at site name)

section Ends

variable {failure : Failure} {action : TagAction} (e : Engine)
  (render : Request → RenderM σ String) (depth : Nat)

theorem TagAction.EndsWith.run_perform (h : action.EndsWith failure) (s : RenderState σ) :
    ∃ t, (action.perform e render depth).run.run s = (.ok (.error (.handedOn failure)), t) := by
  induction action generalizing s with
  | finish result =>
    cases h
    exact ⟨s, rfl⟩
  | render path data next ih => exact ih _ (h _) _
  | renderText source data next ih => exact ih _ (h _) _

theorem TagAction.EndsWith.raises (h : action.EndsWith failure) (site : CallSite) (name : String)
    (s : RenderState σ) :
    ∃ t, (action.perform e render depth >>= TagFailure.raise site name).run.run s =
      (.error failure, t) := by
  obtain ⟨t, ht⟩ := h.run_perform e render depth s
  refine ⟨t, ?_⟩
  rw [run_bind_ok ht]
  rfl

end Ends

section Tags

variable {e : Engine} {render render' : Request → RenderM σ String} {depth : Nat}

/-- A render that a tag asks for, and what the tag does after it. -/
theorem TagAction.asked_deepens {site : CallSite} {name : String} {x y : RenderM σ String}
    {next : Except Failure String → TagAction} (hxy : RenderM.Deepens x y)
    (hok : ∀ text, RenderM.Deepens
      ((next (.ok text)).perform e render depth >>= TagFailure.raise site name)
      ((next (.ok text)).perform e render' depth >>= TagFailure.raise site name))
    (hends : ∀ failure, (next (.error failure)).EndsWith failure) :
    RenderM.Deepens
      ((RenderM.attempt x >>= fun outcome => (next outcome).perform e render depth) >>=
        TagFailure.raise site name)
      ((RenderM.attempt y >>= fun outcome => (next outcome).perform e render' depth) >>=
        TagFailure.raise site name) := by
  intro s
  have hrun (z : RenderM σ String) (render : Request → RenderM σ String) :
      ((RenderM.attempt z >>= fun outcome => (next outcome).perform e render depth) >>=
        TagFailure.raise site name).run.run s =
      ((next (z.run.run s).1).perform e render depth >>= TagFailure.raise site name).run.run
        (z.run.run s).2 := rfl
  rw [hrun, hrun]
  have hstep := hxy s
  generalize x.run.run s = p at hstep
  generalize y.run.run s = q at hstep
  cases hstep with
  | done text t => exact hok text t
  | failed failure t t' =>
    obtain ⟨u, hu⟩ := (hends failure).raises e render depth site name t
    obtain ⟨u', hu'⟩ := (hends failure).raises e render' depth site name t'
    dsimp only
    rw [hu, hu']
    exact .failed failure u u'
  | tooDeep path limit t =>
    -- what more room leads to does not matter, since the tag ends with this failure
    obtain ⟨u, hu⟩ := (hends (.tooDeep path limit)).raises e render depth site name t
    dsimp only
    rw [hu]
    exact .tooDeep path limit u _

variable (h : ∀ request, RenderM.Deepens (render request) (render' request))
include h

theorem TagAction.Relays.deepens {action : TagAction} (haction : action.Relays) (site : CallSite)
    (name : String) :
    RenderM.Deepens (action.perform e render depth >>= TagFailure.raise site name)
      (action.perform e render' depth >>= TagFailure.raise site name) := by
  induction action with
  | finish result => exact .refl _
  | render path data next ih =>
    exact asked_deepens ((h _).within _) (fun text => ih _ (haction.1 text)) haction.2
  | renderText source data next ih =>
    exact asked_deepens ((h _).within _) (fun text => ih _ (haction.1 text)) haction.2

namespace Engine

variable (htags : e.TagsRelay)
include htags

theorem renderTag_deepens (name : String) (first : Value) (data : Members) (site : CallSite) :
    RenderM.Deepens (e.renderTag render name first data site)
      (e.renderTag render' name first data site) := by
  unfold renderTag
  cases hfound : e.tags.get? name with
  | none => exact .refl _
  | some tag =>
    refine RenderM.Deepens.bind (.refl _) fun first => RenderM.Deepens.bind (.refl _) fun _ => ?_
    exact TagAction.Relays.deepens h (htags name tag hfound _) site name

theorem renderShortcut_deepens (name : String) (data : Members) (site : CallSite) :
    RenderM.Deepens (e.renderShortcut render name data site)
      (e.renderShortcut render' name data site) := by
  unfold renderShortcut
  cases e.config.shortcuts.lookup name with
  | none => exact .refl _
  | some target => exact renderTag_deepens h htags target.tag _ data site

theorem surroundings_deepens :
    Surroundings.Deepens (e.surroundings render) (e.surroundings render') where
  evaluate := rfl
  render := h
  tag := renderTag_deepens h htags
  shortcut := renderShortcut_deepens h htags

end Engine

end Tags

def Engine.limited (e : Engine) (maxDepth : Nat) : Engine :=
  { e with config := { e.config with maxDepth } }

theorem TagAction.perform_limited (e : Engine) (maxDepth : Nat)
    (render : Request → RenderM σ String) (depth : Nat) (action : TagAction) :
    action.perform (e.limited maxDepth) render depth = action.perform e render depth := by
  induction action with
  | finish result => rfl
  | render path data next ih => exact bind_congr fun outcome => ih outcome
  | renderText source data next ih => exact bind_congr fun outcome => ih outcome

namespace Engine

variable (e : Engine)

theorem surroundings_limited (maxDepth : Nat) (render : Request → RenderM σ String) :
    (e.limited maxDepth).surroundings render = e.surroundings render := by
  have htag : (e.limited maxDepth).renderTag render = e.renderTag render := by
    funext name first data site
    unfold renderTag
    simp only [TagAction.perform_limited]
    rfl
  have hshortcut : (e.limited maxDepth).renderShortcut render = e.renderShortcut render := by
    funext name data site
    unfold renderShortcut
    rw [htag]
    rfl
  unfold surroundings
  rw [htag, hshortcut]
  rfl

variable {e} {m m' : Nat} (htags : e.TagsRelay) (hm : m ≤ m')
include htags hm

omit htags in
/-- One template, and what it asks for with more room. -/
theorem activation_deepens (path : String) {loaded : RenderM σ Template}
    {run run' : Template → RenderM σ String}
    (hrun : ∀ template, RenderM.Deepens (run template) (run' template)) :
    RenderM.Deepens ((e.limited m).activation path loaded run)
      ((e.limited m').activation path loaded run') := by
  intro s
  by_cases hdeep : m ≤ s.context.depth
  · have hlimit := (e.limited m).activation_of_deep path loaded run hdeep
    rw [hlimit]
    exact .tooDeep _ _ _ _
  · have hlt : s.context.depth < m := Nat.lt_of_not_le hdeep
    have hroom := (e.limited m).activation_of_lt path loaded run hlt
    have hmore := (e.limited m').activation_of_lt path loaded run' (Nat.lt_of_lt_of_le hlt hm)
    rw [hroom, hmore]
    exact (RenderM.Deepens.refl loaded).bind (fun template => (hrun template).around _ _) s

theorem activate_deepens (load : Loader σ) {room room' : Nat} (hroom : room ≤ room')
    (request : Request) :
    RenderM.Deepens ((e.limited m).activate load room request)
      ((e.limited m').activate load room' request) := by
  induction room generalizing room' request with
  | zero => exact fun s => .tooDeep _ _ s _
  | succ room ih =>
    obtain ⟨more, rfl⟩ := Nat.exists_eq_add_of_le' (Nat.le_trans (Nat.le_add_left 1 room) hroom)
    have hmore : room ≤ more := Nat.le_of_succ_le_succ hroom
    rw [activate_succ, activate_succ]
    apply activation_deepens hm
    intro template
    rw [surroundings_limited, surroundings_limited]
    exact Run.text_deepens template (surroundings_deepens (ih hmore) htags)

/-- What a render gives stands, and so does a failure, but for that of the limit. -/
theorem renderRequest_deepens (load : Loader σ) (request : Request) (data : Value)
    (state : EngineState σ) :
    let answer := ((e.limited m).renderRequest load request data).run state
    let deeper := ((e.limited m').renderRequest load request data).run state
    (∀ text, answer.1 = .ok text → deeper = answer) ∧
    ∀ failure, answer.1 = .error failure → ¬failure.IsTooDeep → deeper.1 = .error failure := by
  have h := activate_deepens htags hm load hm request
    { context := .ofData data.members 0, engine := state }
  have hanswer (n : Nat) : ((e.limited n).renderRequest load request data).run state =
      ((((e.limited n).activate load n request).run.run
          { context := .ofData data.members 0, engine := state }).1,
        (((e.limited n).activate load n request).run.run
          { context := .ofData data.members 0, engine := state }).2.engine) := rfl
  dsimp only
  rw [hanswer, hanswer]
  generalize ((e.limited m).activate load m request).run.run _ = p at h
  generalize ((e.limited m').activate load m' request).run.run _ = q at h
  cases h with
  | done value s => exact ⟨fun _ _ => rfl, nofun⟩
  | failed failure s t =>
    refine ⟨nofun, ?_⟩
    rintro _ ⟨⟩ -
    rfl
  | tooDeep path limit s =>
    refine ⟨nofun, ?_⟩
    rintro _ ⟨⟩ hother
    exact absurd ⟨path, limit, rfl⟩ hother

/-- Under a higher limit a render that gave a text gives the same text, and one that failed for
another reason than the limit fails in the same way, when tags hand on the failures of renders. -/
theorem render_deeper (path source : String) (data : Value) (state : EngineState) :
    (∀ text state', ((e.limited m).render path data).run state = (.ok text, state') →
      ((e.limited m').render path data).run state = (.ok text, state')) ∧
    (∀ failure, (((e.limited m).render path data).run state).1 = .error failure →
      ¬failure.IsTooDeep → (((e.limited m').render path data).run state).1 = .error failure) ∧
    (∀ text state', ((e.limited m).renderText source data).run state = (.ok text, state') →
      ((e.limited m').renderText source data).run state = (.ok text, state')) ∧
    (∀ failure, (((e.limited m).renderText source data).run state).1 = .error failure →
      ¬failure.IsTooDeep →
        (((e.limited m').renderText source data).run state).1 = .error failure) := by
  have hpath := renderRequest_deepens htags hm (e.cached Prod.mk) (e.pathRequest path) data state
  have htext := renderRequest_deepens htags hm (e.cached Prod.mk) (.inline source) data state
  refine ⟨fun text state' h => ?_, hpath.2, fun text state' h => ?_, htext.2⟩
  · exact (hpath.1 text (congrArg Prod.fst h)).trans h
  · exact (htext.1 text (congrArg Prod.fst h)).trans h

end Engine

/-- An engine with templates that a tag renders, one that asks for a missing one, and one that asks
for itself. -/
def nested : Engine :=
  EngineSetup.engine
    { source := .ofList
        [("/page", "\x7b\x7b relay '/note' \x7d\x7d"), ("/note", "kept"),
          ("/lost", "\x7b\x7b include 'missing' \x7d\x7d"),
          ("/endless", "\x7b\x7b relay '/endless' \x7d\x7d")]
      host := fun _ _ => .ok .undefined
      tags := Registry.initial.insert "relay" relay }

theorem nested_relays : nested.TagsRelay := by
  intro name tag htag call
  have hlookup : [("relay", relay), ("tag", Element.tag)].lookup name = some tag := htag
  have hmem := mem_of_lookup_eq hlookup
  simp only [List.mem_cons, Prod.mk.injEq, List.not_mem_nil, or_false] at hmem
  rcases hmem with ⟨-, rfl⟩ | ⟨-, rfl⟩
  · exact ⟨fun _ => trivial, fun _ => rfl⟩
  · trivial

/-- Three levels are enough for a text and for a failure of another kind, and not for a template
that asks for itself. -/
theorem nested_deeper :
    nested.TagsRelay ∧ 3 ≤ 5 ∧
    (((nested.limited 3).render "page" .undefined).run nested.initialState).1 = .ok "kept" ∧
    (((nested.limited 5).render "page" .undefined).run nested.initialState).1 = .ok "kept" ∧
    (((nested.limited 3).renderText "\x7b\x7b relay '/lost' \x7d\x7d" .undefined).run
      nested.initialState).1 = .error (.notFound "/missing" "/lost") ∧
    (((nested.limited 5).renderText "\x7b\x7b relay '/lost' \x7d\x7d" .undefined).run
      nested.initialState).1 = .error (.notFound "/missing" "/lost") ∧
    (((nested.limited 3).render "endless" .undefined).run nested.initialState).1 =
      .error (.tooDeep "/endless" 3) := by
  have hlimit : 3 ≤ 5 := by omega
  have hdone : (((nested.limited 3).render "page" .undefined).run nested.initialState).1 =
      .ok "kept" := by decide +kernel
  have hfails : (((nested.limited 3).renderText "\x7b\x7b relay '/lost' \x7d\x7d" .undefined).run
      nested.initialState).1 = .error (.notFound "/missing" "/lost") := by decide +kernel
  have hendless : (((nested.limited 3).render "endless" .undefined).run nested.initialState).1 =
      .error (.tooDeep "/endless" 3) := by decide +kernel
  obtain ⟨htext, -, -, hfailure⟩ := Engine.render_deeper nested_relays hlimit "page"
    "\x7b\x7b relay '/lost' \x7d\x7d" .undefined nested.initialState
  have hdeeper := htext "kept" _ (Prod.ext hdone rfl)
  have hother : ¬Failure.IsTooDeep (.notFound "/missing" "/lost") := by
    rintro ⟨path, limit, h⟩
    cases h
  exact ⟨nested_relays, hlimit, hdone, congrArg Prod.fst hdeeper, hfails,
    hfailure _ hfails hother, hendless⟩

end Templating
