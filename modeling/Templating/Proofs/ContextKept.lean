import Mathlib.Data.List.Infix
import Templating.Proofs.MemberKeys
import Templating.Proofs.Publishing
import Templating.Proofs.Upholding

/-!
What a render does to its context. Frames and depth are as before, and globals change only by what
the ledger has: so every name that a template begins with has the value that was published last.
-/
namespace Templating

variable {σ α β : Type}

/-- The text last published under a name. -/
def lastPublished (name : String) (published : List Publication) : Option Value :=
  (published.find? (·.name == name)).map (.string ·.text)

theorem lastPublished_cons (name : String) (p : Publication) (earlier : List Publication) :
    lastPublished name (p :: earlier) =
      if name = p.name then some (.string p.text) else lastPublished name earlier := by
  unfold lastPublished
  by_cases h : name = p.name
  · simp [h]
  · rw [List.find?_cons_of_neg (by simpa using Ne.symm h), if_neg h]

theorem lastPublished_append (name : String) (later earlier : List Publication) :
    lastPublished name (later ++ earlier) =
      (lastPublished name later).or (lastPublished name earlier) := by
  unfold lastPublished
  rw [List.find?_append, Option.map_or]

/-- The publication comes from the end of a block of its name, in a template that has been run. -/
structure Publication.OfBlock (run : List Beginning) (p : Publication) : Prop where
  run : ∃ b ∈ run, b.template = p.template
  ending : ∃ s, p.template.statements[p.index]? = some s ∧ s.instruction = .closeBlock
  named : ∃ s ∈ p.template.statements, s.instruction = .block p.name

/-- Under other names than that of contents, only blocks are published. -/
def Publication.Made (run : List Beginning) (p : Publication) : Prop :=
  p.name = contentName ∨ p.OfBlock run

theorem Publication.Made.mono {run run' : List Beginning} {p : Publication} (h : p.Made run)
    (hrun : run <:+ run') : p.Made run' := by
  refine h.imp_right fun hblock => ⟨?_, hblock.ending, hblock.named⟩
  obtain ⟨b, hb, htemplate⟩ := hblock.run
  exact ⟨b, hrun.subset hb, htemplate⟩

/-- Every name that no frame binds means what was published last under it, and a layout has just
been given the text of its page. -/
structure Beginning.Means (earlier : List Beginning) (b : Beginning) : Prop where
  names : ∀ name, (∀ frame ∈ b.context.frames, frame.lookup name = none) →
    b.context.flatten.lookup name = lastPublished name b.published
  made : ∀ p ∈ b.published, p.Made earlier
  page : ∀ p, b.page = some p → p.name = contentName ∧ ∃ before, b.published = p :: before

def AllMean : List Beginning → Prop
  | [] => True
  | b :: earlier => b.Means earlier ∧ AllMean earlier

theorem AllMean.of_append {later earlier : List Beginning} {b : Beginning} :
    AllMean (later ++ b :: earlier) → b.Means earlier := by
  induction later with
  | nil => exact And.left
  | cons c later ih => exact fun h => ih h.2

structure RenderState.Current (s : RenderState (σ × Ledger)) : Prop where
  globals : ∀ name, s.context.globals.lookup name = lastPublished name s.ledger.published
  made : ∀ p ∈ s.ledger.published, p.Made s.ledger.beginnings
  beginnings : AllMean s.ledger.beginnings

/-- The later state has the frames and the depth of the earlier one, and its globals but for what
has been published since. -/
structure RenderState.Accounted (s t : RenderState (σ × Ledger)) : Prop where
  frames : t.context.frames = s.context.frames
  depth : t.context.depth = s.context.depth
  keys : s.context.globals.map (·.1) <+: t.context.globals.map (·.1)
  published : ∃ added, t.ledger.published = added ++ s.ledger.published ∧
    (∀ p ∈ added, p.Made t.ledger.beginnings) ∧
    ∀ name, t.context.globals.lookup name =
      (lastPublished name added).or (s.context.globals.lookup name)
  beginnings : s.ledger.beginnings <:+ t.ledger.beginnings
  current : s.Current → t.Current

namespace RenderState.Accounted

variable {s t u : RenderState (σ × Ledger)}

/-- Nothing has changed but the store or the numbers given out. -/
theorem of_eq (hcontext : t.context = s.context) (hledger : t.ledger = s.ledger) :
    s.Accounted t where
  frames := congrArg _ hcontext
  depth := congrArg _ hcontext
  keys := by rw [hcontext]
  published := ⟨[], by rw [hledger]; rfl, nofun, fun name => by rw [hcontext]; rfl⟩
  beginnings := by rw [hledger]
  current h := ⟨by rw [hcontext, hledger]; exact h.globals, by rw [hledger]; exact h.made,
    by rw [hledger]; exact h.beginnings⟩

theorem trans (h : s.Accounted t) (h' : t.Accounted u) : s.Accounted u where
  frames := h'.frames.trans h.frames
  depth := h'.depth.trans h.depth
  keys := h.keys.trans h'.keys
  published := by
    obtain ⟨added, hpublished, hmade, hglobals⟩ := h.published
    obtain ⟨added', hpublished', hmade', hglobals'⟩ := h'.published
    refine ⟨added' ++ added, ?_, fun p hp => ?_, fun name => ?_⟩
    · rw [hpublished', hpublished, List.append_assoc]
    · rcases List.mem_append.mp hp with hp | hp
      · exact hmade' p hp
      · exact (hmade p hp).mono h'.beginnings
    · rw [hglobals', hglobals, lastPublished_append, Option.or_assoc]
  beginnings := h.beginnings.trans h'.beginnings
  current hcurrent := h'.current (h.current hcurrent)

theorem publish {p : Publication} (hp : p.Made s.ledger.beginnings) :
    s.Accounted (s.publish p) where
  frames := rfl
  depth := rfl
  keys := Members.keys_set _ _ _
  published := by
    refine ⟨[p], rfl, List.forall_mem_singleton.mpr hp, fun name => ?_⟩
    change (s.context.globals.set p.name (.string p.text)).lookup name = _
    rw [Members.lookup_set, lastPublished_cons]
    split
    · rfl
    · rfl
  beginnings := List.suffix_rfl
  current h := by
    refine ⟨fun name => ?_, List.forall_mem_cons.mpr ⟨hp, h.made⟩, h.beginnings⟩
    change (s.context.globals.set p.name (.string p.text)).lookup name =
      lastPublished name (p :: s.ledger.published)
    rw [Members.lookup_set, lastPublished_cons, h.globals]

/-- A template begins with what has been published. -/
theorem enter {page : Option Publication} (template : Template)
    (hpage : ∀ p, page = some p →
      p.name = contentName ∧ ∃ before, s.ledger.published = p :: before) :
    s.Accounted (s.enter page template) where
  frames := rfl
  depth := rfl
  keys := List.prefix_rfl
  published := ⟨[], rfl, nofun, fun _ => rfl⟩
  beginnings := List.suffix_cons _ _
  current h := by
    refine ⟨h.globals, fun p hp => (h.made p hp).mono (List.suffix_cons _ _), ?_, h.beginnings⟩
    refine ⟨fun name hframes => ?_, h.made, hpage⟩
    have hnone : s.context.frames.findSome? (fun frame => frame.reverse.lookup name) = none := by
      rw [List.findSome?_eq_none_iff]
      intro frame hframe
      simpa [List.lookup_eq_none_iff] using hframes frame hframe
    change s.context.flatten.lookup name = lastPublished name s.ledger.published
    rw [Context.lookup_flatten, hnone, Option.none_or, h.globals]

/-- With a further frame for a time. -/
theorem framed {data : Members}
    (h : Accounted { s with context := { s.context with frames := data :: s.context.frames } } t) :
    s.Accounted { t with context := { t.context with frames := t.context.frames.tail } } where
  frames := congrArg List.tail h.frames
  depth := h.depth
  keys := h.keys
  published := h.published
  beginnings := h.beginnings
  current hs :=
    have ht := h.current ⟨hs.globals, hs.made, hs.beginnings⟩
    ⟨ht.globals, ht.made, ht.beginnings⟩

/-- One level deeper for a time. -/
theorem deeper
    (h : Accounted { s with context := { s.context with depth := s.context.depth + 1 } } t) :
    s.Accounted { t with context := { t.context with depth := t.context.depth - 1 } } where
  frames := h.frames
  depth := congrArg (· - 1) h.depth
  keys := h.keys
  published := h.published
  beginnings := h.beginnings
  current hs :=
    have ht := h.current ⟨hs.globals, hs.made, hs.beginnings⟩
    ⟨ht.globals, ht.made, ht.beginnings⟩

/-- In a context of its own for a time, in which nothing has been published before. -/
theorem apart {members : Members} {depth : Nat}
    (h : Accounted (withLedger { s.ledger with published := [] }
      { s with context := .ofData members depth }) t) :
    s.Accounted { t.withLedger { t.ledger with published := s.ledger.published } with
      context := s.context } where
  frames := rfl
  depth := rfl
  keys := List.prefix_rfl
  published := ⟨[], rfl, nofun, fun _ => rfl⟩
  beginnings := h.beginnings
  current hs :=
    have ht := h.current ⟨fun _ => rfl, nofun, hs.beginnings⟩
    ⟨hs.globals, fun p hp => (hs.made p hp).mono h.beginnings, ht.beginnings⟩

end RenderState.Accounted

/-- Once these templates have begun, states are accounted for. Any failure may come. -/
def Promise.accounted (begun : List Template) : Promise (σ × Ledger) where
  leads s t := (∀ template ∈ begun, ∃ b ∈ s.ledger.beginnings, b.template = template) →
    s.Accounted t
  fails _ := True
  refl _ _ := .of_eq rfl rfl
  trans h h' hbegun := by
    have hst := h hbegun
    refine hst.trans (h' fun template htemplate => ?_)
    obtain ⟨b, hb, heq⟩ := hbegun template htemplate
    exact ⟨b, hst.beginnings.subset hb, heq⟩
  numbered _ _ _ := .of_eq rfl rfl
  framed h hbegun := (h hbegun).framed
  deeper h hbegun := (h hbegun).deeper
  evaluation _ _ _ _ := trivial
  tag _ _ _ _ := trivial
  tooDeep _ _ := trivial

/-- Of any outcome nothing is said. -/
theorem Promise.ends_accounted {begun : List Template} :
    ∀ outcome : Except Failure α, (accounted (σ := σ) begun).Ends (fun _ => True) outcome
  | .ok _ => trivial
  | .error _ => trivial

theorem TagAction.handsOn_true (action : TagAction) : action.HandsOn fun _ => True := by
  induction action with
  | finish result => exact fun _ _ => trivial
  | render path data next ih => exact fun outcome _ => ih outcome
  | renderText source data next ih => exact fun outcome _ => ih outcome

def RenderState.GivenPage (page : Option Publication) (s : RenderState (σ × Ledger)) : Prop :=
  ∀ p, page = some p → p.name = contentName ∧ ∃ before, s.ledger.published = p :: before

/-- From where its page has just been published, a render is accounted for. -/
def Accounts (render : Option Publication → Request → RenderM (σ × Ledger) String) : Prop :=
  ∀ page request (s : RenderState (σ × Ledger)), s.GivenPage page →
    s.Accounted ((render page request).run.run s).2

namespace Accounts

variable {render : Option Publication → Request → RenderM (σ × Ledger) String}

theorem upholds (h : Accounts render) (begun : List Template) (request : Request) :
    RenderM.Upholds (.accounted begun) (fun _ => True) (render none request) :=
  fun s => ⟨fun _ => h none request s nofun, Promise.ends_accounted _⟩

theorem within_upholds (h : Accounts render) (begun : List Template) (members : Members)
    (depth : Nat) (request : Request) :
    RenderM.Upholds (.accounted begun) (fun _ => True)
      (RenderM.within (.ofData members depth) (RenderM.apart (render none request))) :=
  fun _ => ⟨fun _ => (h none request _ nofun).apart, Promise.ends_accounted _⟩

end Accounts

namespace Run

variable {N : String → Prop} {template : Template} {index : Nat}

/-- The end of a block publishes under the name of a block, or of a content. -/
theorem closeBlockRecorded_upholds {s : Statement} (hs : template.statements[index]? = some s)
    (hblock : s.instruction = .closeBlock) :
    Upholds (σ := σ × Ledger) (.accounted [template]) template.Captures (fun _ => True)
      (closeBlockRecorded template index) := by
  unfold closeBlockRecorded
  refine RunM.Upholds.bind_get fun a ha => ?_
  rcases hcaptures : a.captures with _ | ⟨capture, captures⟩
  · exact .pure trivial
  · rcases hpending : a.pending with _ | ⟨call, calls⟩
    · refine (RunM.Upholds.set (ha.ended hcaptures rfl)).bind fun _ _ =>
        .modifyState fun r hbegun => .publish ?_
      have hrun := hbegun template (List.mem_singleton.mpr rfl)
      exact (ha capture (hcaptures ▸ List.mem_cons_self)).imp_right fun hnamed =>
        ⟨hrun, ⟨s, hs, hblock⟩, hnamed⟩
    · exact RunM.Upholds.set (ha.ended hcaptures rfl)

variable {x : Surroundings (σ × Ledger)} {begun : List Template}
  (h : x.Upholds (.accounted begun) template)
  {render : Option Publication → Request → RenderM (σ × Ledger) String} (hrender : Accounts render)
include h hrender

theorem layoutRecorded_upholds (s : Statement) (e : Expr) :
    Upholds (.accounted begun) N (fun _ => True)
      (layoutRecorded template index x render s e) := by
  unfold layoutRecorded
  have hwrite (text : String) : Upholds (.accounted begun) N (fun _ => True)
      (modify ({ · with output := text }) : RunM (σ × Ledger) Unit) :=
    RunM.Upholds.modify fun _ ha => ha
  refine ((flow_upholds h).path s e).bind fun path _ => RunM.Upholds.bind_get fun a _ => ?_
  refine (hwrite "").bind fun _ _ => ?_
  rw [← bind_assoc]
  refine RunM.Upholds.bind (Q := fun _ => True) ?_ fun text _ => hwrite text
  refine RunM.Upholds.modifyState_lift (fun r _ => .publish (.inl rfl)) fun r => ?_
  refine ⟨fun _ => hrender _ _ _ ?_, Promise.ends_accounted _⟩
  rintro _ ⟨⟩
  exact ⟨rfl, _, rfl⟩

omit h in
theorem recorded_upholds (h : x.Upholds (.accounted [template]) template) {s : Statement}
    (hs : template.statements[index]? = some s) :
    Upholds (.accounted [template]) template.Captures (fun _ => True)
      (recorded template index x render s) := by
  unfold recorded
  split
  · rename_i hblock
    exact closeBlockRecorded_upholds hs hblock
  · rename_i e _
    exact layoutRecorded_upholds h hrender s e
  · rename_i hblock hlayout
    refine step_upholds h (List.mem_of_getElem? hs) hblock ?_
    cases hi : s.instruction with
    | layout e => exact (hlayout e hi).elim
    | _ => rfl

end Run

namespace Engine

variable {e : Engine} {render : Option Publication → Request → RenderM (σ × Ledger) String}
  (h : Accounts render)
include h

theorem surroundingsRecorded_upholds (begun : List Template) (template : Template) :
    (e.surroundingsRecorded render).Upholds (.accounted begun) template := by
  have hcall (name : String) (first : Value) (data : Members) (site : CallSite) :
      RenderM.Upholds (.accounted begun) (fun _ => True)
        (e.renderTag (fun request => RenderM.apart (render none request)) name first data site) := by
    cases htag : e.tags.get? name with
    | none =>
      unfold renderTag
      rw [htag]
      exact .throw trivial
    | some tag =>
      exact renderTag_upholds (fun members request => h.within_upholds begun members _ request) htag
        fun call => TagAction.handsOn_true _
  refine ⟨.evaluate e.host, fun path => h.upholds begun _, fun _ _ name _ => hcall name,
    fun _ _ name _ data site => ?_⟩
  change RenderM.Upholds _ _ (e.renderShortcut _ name data site)
  unfold renderShortcut
  cases e.config.shortcuts.lookup name with
  | none => exact .throw trivial
  | some target => exact hcall _ _ _ _

theorem recordBy_accounts (load : Loader σ) : Accounts (e.recordBy load render) := by
  intro page request s hpage
  have hloaded : (RenderM.beside (μ := Ledger) (RenderM.ofStore (load request))).UpholdsAt
      (.accounted []) (fun _ => True) s := ⟨fun _ => .of_eq rfl rfl, Promise.ends_accounted _⟩
  refine (activation_upholdsAt _ hloaded fun template t ht _ => ?_).1 nofun
  have hledger : t.ledger = s.ledger := by
    have hstate := congrArg (·.2.ledger) ht
    exact hstate.symm
  have hsurroundings := surroundingsRecorded_upholds (e := e) h [template] template
  have htext := Run.textIn_upholds hsurroundings fun i s hs =>
    Run.recorded_upholds h hsurroundings hs
  refine ⟨fun _ => ?_, Promise.ends_accounted _⟩
  -- The template has begun before its statements are carried out.
  have hbegun : RenderState.Accounted _ (RenderState.enter page template
      { t with context := { t.context with depth := t.context.depth + 1 } }) :=
    .enter template fun p hp => hledger ▸ hpage p hp
  exact hbegun.trans ((htext _).1 (List.forall_mem_singleton.mpr ⟨_, List.mem_cons_self, rfl⟩))

omit h in
theorem record_accounts (load : Loader σ) (room : Nat) : Accounts (e.record load room) := by
  induction room with
  | zero => exact fun _ _ _ _ => .of_eq rfl rfl
  | succ room ih => exact recordBy_accounts ih load

end Engine

def RenderState.recording (s : RenderState σ) : RenderState (σ × Ledger) :=
  ⟨s.context, (s.engine.cache, {}), s.engine.identity⟩

/-- On record an action comes to what it does in the program, and leaves the context as it was but
for the globals under the names of contents and of blocks that have been closed in templates that
were run. -/
structure RenderM.KeepsContext (recorded : RenderM (σ × Ledger) α) (action : RenderM σ α)
    (s : RenderState σ) : Prop where
  program : (recorded.run.run s.recording).1 = (action.run.run s).1 ∧
    (recorded.run.run s.recording).2.context = (action.run.run s).2.context ∧
    (recorded.run.run s.recording).2.engine.cache.1 = (action.run.run s).2.engine.cache ∧
    (recorded.run.run s.recording).2.engine.identity = (action.run.run s).2.engine.identity
  frames : (action.run.run s).2.context.frames = s.context.frames
  depth : (action.run.run s).2.context.depth = s.context.depth
  keys : s.context.globals.map (·.1) <+: (action.run.run s).2.context.globals.map (·.1)
  changed : ∀ key, (action.run.run s).2.context.globals.lookup key ≠ s.context.globals.lookup key →
    key = contentName ∨ ∃ p ∈ (recorded.run.run s.recording).2.ledger.published,
      p.name = key ∧ p.OfBlock (recorded.run.run s.recording).2.ledger.beginnings

theorem RenderM.keepsContext_of_accounted {recorded : RenderM (σ × Ledger) α} {action : RenderM σ α}
    {s : RenderState σ} (hprogram : RenderM.Simulates Ledgered recorded action)
    (h : s.recording.Accounted (recorded.run.run s.recording).2) :
    recorded.KeepsContext action s := by
  obtain ⟨hresult, hend⟩ := hprogram (s := s.recording) (t := s) ⟨rfl, rfl, rfl, trivial⟩
  have hcontext := hend.context
  refine ⟨⟨hresult.eq, hcontext, hend.cache.1, hend.identity⟩, ?_, ?_, ?_, fun key hkey => ?_⟩
  · rw [← hcontext]
    exact h.frames
  · rw [← hcontext]
    exact h.depth
  · rw [← hcontext]
    exact h.keys
  · obtain ⟨added, hpublished, hmade, hglobals⟩ := h.published
    rw [← hcontext, hglobals] at hkey
    have hlast : lastPublished key added ≠ none := by
      intro hnone
      rw [hnone] at hkey
      exact hkey rfl
    obtain ⟨value, hvalue⟩ := Option.ne_none_iff_exists'.mp hlast
    obtain ⟨p, hfind, -⟩ := Option.map_eq_some_iff.mp hvalue
    have hmem := List.mem_of_find?_eq_some hfind
    have hname : p.name = key := by simpa using List.find?_some hfind
    refine (hmade p hmem).imp (fun hcontent => hname ▸ hcontent) fun hblock => ?_
    refine ⟨p, ?_, hname, hblock⟩
    rw [hpublished]
    exact List.mem_append_left _ hmem

namespace Engine

variable (e : Engine) (load : Loader σ) (room : Nat)

/-- Whatever the context is, rendering a template, inserting one with its data and going on to a
layout leave its frames and its depth as they were, whether they fail or not. No global is removed,
and none is changed but under the names of contents and of blocks closed in the templates run. -/
theorem renders_keep_context (s : RenderState σ) :
    let recording := e.record load room
    let surroundings := e.surroundings (e.activate load room)
    (∀ request, (recording none request).KeepsContext (e.activate load room request) s) ∧
    ∀ template (a : Activation),
      (∀ path data,
        ((Run.insert (e.surroundingsRecorded recording) template path data).run a).KeepsContext
          ((Run.insert surroundings template path data).run a) s) ∧
      ∀ index statement expr,
        ((Run.layoutRecorded template index (e.surroundingsRecorded recording) recording
            statement expr).run a).KeepsContext
          ((Run.layout surroundings template statement expr).run a) s := by
  intro recording surroundings
  have haccounts : Accounts recording := record_accounts load room
  have hprogram := e.record_simulates load room
  have hsurroundings := e.surroundingsRecorded_simulates hprogram
  refine ⟨fun request => ?_, fun template a =>
    ⟨fun path data => ?_, fun index statement expr => ?_⟩⟩
  · exact RenderM.keepsContext_of_accounted (hprogram none request)
      (haccounts none request _ nofun)
  · have hupholds := surroundingsRecorded_upholds (e := e) haccounts [] template
    have hinsert := Run.insert_upholds (N := fun _ => True) hupholds path data a fun _ _ => trivial
    exact RenderM.keepsContext_of_accounted
      (RunM.Simulates.run (Run.insert_simulates template hsurroundings .eq path data) a)
      ((hinsert _).1 nofun)
  · have hupholds := surroundingsRecorded_upholds (e := e) haccounts [] template
    have hlayout : Run.Upholds (.accounted []) (fun _ => True) (fun _ => True)
        (Run.layoutRecorded template index _ recording statement expr) :=
      Run.layoutRecorded_upholds hupholds haccounts statement expr
    exact RenderM.keepsContext_of_accounted
      (RunM.Simulates.run (Run.layoutRecorded_simulates hsurroundings hprogram statement expr) a)
      ((hlayout a (fun _ _ => trivial) _).1 nofun)

end Engine

end Templating
