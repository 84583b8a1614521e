import Templating.Proofs.ContextKept
import Templating.Proofs.Cutting
import Templating.Proofs.LayoutLast
import Templating.Proofs.Stacks

/-!
The layout of a page: which directive of the source names it, what it is given, and what becomes of
the page.
-/
namespace Templating

def Piece.isLayout : Piece → Bool
  | literal _ => false
  | directive raw => namesLayout (String.ofList (Text.trim raw))

@[simp] theorem Piece.isLayout_segment (before : List Char) (p : Piece) :
    (p.segment before).isLayout = p.isLayout := by
  cases p <;> rfl

/-- What a text that names a layout is read as, if as anything. -/
theorem Directive.isLayout_of_namesLayout {grammar : Grammar} {directive : String}
    {instruction : Instruction} (h : read grammar directive = .ok instruction)
    (hnames : namesLayout directive = true) : instruction.isLayout = true := by
  unfold namesLayout at hnames
  split at hnames
  · rename_i rest hwords
    cases rest with
    | nil => cases hnames
    | cons c rest =>
      have hword : afterWord? "extends" directive.toList = some (Text.trimStart rest) := by
        unfold afterWord?
        rw [hwords]
        exact if_pos hnames
      have hne : directive.toList.isEmpty = false := by
        cases hd : directive.toList with
        | nil => simp [hd] at hwords
        | cons => rfl
      unfold read at h
      simp only [hne, builtin?, hword] at h
      cases he : expression directive.toList (Text.trimStart rest) with
      | error e => simp [he, bind, Except.bind] at h
      | ok e =>
        simp only [he, bind, Except.bind, pure, Except.pure, Bool.false_eq_true, if_false,
          Option.some_or, Option.getD_some, Except.ok.injEq] at h
        subst h
        rfl
  · cases hnames

theorem Segment.isLayout_statement {grammar : Grammar} {path : String} {segment : Segment}
    {s : Statement} (h : segment.statement grammar path = .ok s)  :
    s.instruction.isLayout = segment.isLayout := by
  refine Bool.eq_iff_iff.mpr ⟨Segment.isLayout_of_statement h, fun hlayout => ?_⟩
  cases segment with
  | text t line offset => cases hlayout
  | directive d line offset =>
    unfold Segment.statement at h
    dsimp only at h
    split at h
    · rename_i instruction hread
      obtain rfl := Except.ok.inj h
      exact Directive.isLayout_of_namesLayout hread hlayout
    · cases h

/-- A layout has no targets. -/
theorem aimed_of_isLayout {s : Statement} (h : s.instruction.isLayout = true)
    (targets : List Target) (i : Nat) : s.aimed targets i = s := by
  obtain ⟨line, offset, directive, instruction⟩ := s
  cases instruction with
  | layout e =>
    unfold Statement.aimed
    split
    · rfl
    · rfl
  | _ => cases h

/-- Nothing in the pieces names a layout, or there is a last one that does. -/
theorem exists_last_layout (pieces : List Piece) :
    (∀ p ∈ pieces, p.isLayout = false) ∨
      ∃ before p after, pieces = before ++ p :: after ∧ p.isLayout = true ∧
        ∀ q ∈ after, q.isLayout = false := by
  induction pieces with
  | nil => exact .inl nofun
  | cons p pieces ih =>
    rcases ih with hnone | ⟨before, q, after, rfl, hq, hafter⟩
    · cases hp : p.isLayout with
      | true => exact .inr ⟨[], p, pieces, rfl, hp, hnone⟩
      | false => exact .inl (List.forall_mem_cons.mpr ⟨hp, hnone⟩)
    · exact .inr ⟨p :: before, q, after, rfl, hq, hafter⟩

theorem filter_segmentsAfter (before : List Char) {pieces : List Piece}
    (h : ∀ p ∈ pieces, p.isLayout = false) :
    (segmentsAfter before pieces).filter Segment.isLayout = [] := by
  rw [List.filter_eq_nil_iff]
  intro segment hsegment
  obtain ⟨these, p, those, rfl, rfl⟩ := mem_segmentsAfter hsegment
  simp [h p (by simp)]

/-- The last of the segments is that of the last directive that names a layout, if there is one. -/
theorem segmentsOf_of_last {source : String} {before after : List Piece} {p : Piece}
    (hpieces : piecesOf source.toList = before ++ p :: after) (hp : p.isLayout = true)
    (hafter : ∀ q ∈ after, q.isLayout = false) :
    (segmentsOf source).getLast? = some (p.segment (before.flatMap Piece.source)) := by
  have hlayouts : (segmentsAfter [] (piecesOf source.toList)).filter Segment.isLayout =
      (segmentsAfter [] before).filter Segment.isLayout ++
        [p.segment (before.flatMap Piece.source)] := by
    rw [hpieces, segmentsAfter_append, segmentsAfter_cons, List.filter_append,
      List.filter_cons_of_pos (by rw [Piece.isLayout_segment, hp]), filter_segmentsAfter _ hafter,
      List.nil_append]
  rw [segmentsOf_eq, layoutLast, hlayouts]
  simp

theorem segmentsOf_of_none {source : String}
    (h : ∀ p ∈ piecesOf source.toList, p.isLayout = false) :
    ∀ segment ∈ segmentsOf source, segment.isLayout = false := by
  intro segment hsegment
  rw [segmentsOf_eq] at hsegment
  obtain ⟨these, p, those, hpieces, rfl⟩ := mem_segmentsAfter (mem_of_mem_layoutLast hsegment)
  rw [Piece.isLayout_segment]
  exact h p (hpieces ▸ by simp)

/-- Only the last statement can be a layout, and it is one if a directive of the source names one.
It is read from the last such directive. -/
structure Template.LayoutFrom (template : Template) (grammar : Grammar) (path source : String) :
    Prop where
  last : ∀ i s, template.statements[i]? = some s → s.instruction.isLayout = true →
    i + 1 = template.statements.length
  hasLayout : template.hasLayout = (piecesOf source.toList).any Piece.isLayout
  directive : ∀ s, template.statements.getLast? = some s → s.instruction.isLayout = true →
    ∃ before p after, piecesOf source.toList = before ++ p :: after ∧ p.isLayout = true ∧
      (∀ q ∈ after, q.isLayout = false) ∧
      (p.segment (before.flatMap Piece.source)).statement grammar path = .ok s

section Source

variable {grammar : Grammar} {path source : String} {template : Template}
  (h : Template.compile grammar path source = .ok template)
include h

theorem exists_last_segment {s : Statement} (hs : template.statements.getLast? = some s) :
    ∃ segment s' targets i, (segmentsOf source).getLast? = some segment ∧
      segment.statement grammar path = .ok s' ∧ s = s'.aimed targets i := by
  rw [List.getLast?_eq_getElem?] at hs
  obtain ⟨segment, s', targets, hsegment, hread, haimed⟩ := exists_segment h hs
  rw [length_statements h] at hsegment
  exact ⟨segment, s', targets, _, List.getLast?_eq_getElem?.trans hsegment, hread, haimed⟩

theorem compiled_layoutFrom : template.LayoutFrom grammar path source := by
  -- the last statement is read from the last segment, and is a layout just when that is one
  have hread {s : Statement} (hs : template.statements.getLast? = some s)
      {segment : Segment} (hsegment : (segmentsOf source).getLast? = some segment) :
      s.instruction.isLayout = segment.isLayout ∧
        (segment.isLayout = true → segment.statement grammar path = .ok s) := by
    obtain ⟨segment', s', targets, i, hlast, hread, rfl⟩ := exists_last_segment h hs
    obtain rfl : segment' = segment := Option.some.inj (hlast.symm.trans hsegment)
    have hlayout := Segment.isLayout_statement hread
    rw [isLayout_aimed]
    refine ⟨hlayout, fun hs' => ?_⟩
    rw [hread, aimed_of_isLayout (hlayout.trans hs')]
  rcases exists_last_layout (piecesOf source.toList) with
    hnone | ⟨before, p, after, hpieces, hp, hafter⟩
  · have hnot {s : Statement} (hs : template.statements.getLast? = some s) :
        s.instruction.isLayout = false := by
      obtain ⟨segment, -, -, -, hsegment, -, -⟩ := exists_last_segment h hs
      rw [(hread hs hsegment).1]
      exact segmentsOf_of_none hnone segment (List.mem_of_getLast? hsegment)
    refine ⟨fun i s => layout_is_last h, ?_, fun s hs hlayout => ?_⟩
    · rw [List.any_eq_false.mpr (by simpa using hnone), Template.hasLayout]
      cases hs : template.statements.getLast? with
      | none => rfl
      | some s => exact hnot hs
    · rw [hnot hs] at hlayout
      cases hlayout
  · have hsegment := segmentsOf_of_last hpieces hp hafter
    have hlayout := (Piece.isLayout_segment (before.flatMap Piece.source) p).trans hp
    refine ⟨fun i s => layout_is_last h, ?_, fun s hs _ => ?_⟩
    · rw [List.any_eq_true.mpr ⟨p, hpieces ▸ by simp, hp⟩, Template.hasLayout]
      have hne : template.statements.length ≠ 0 := by
        rw [length_statements h]
        intro hnil
        rw [List.length_eq_zero_iff.mp hnil] at hsegment
        cases hsegment
      cases hs : template.statements.getLast? with
      | none => exact (hne (by simpa using hs)).elim
      | some s => exact (hread hs hsegment).1.trans hlayout
    · exact ⟨before, p, after, hpieces, hp, hafter, (hread hs hsegment).2 hlayout⟩

end Source

theorem nil_or_concat_of_append {head tail init : List Statement} {c s : Statement}
    (h : head ++ c :: tail = init ++ [s]) :
    tail = [] ∧ c = s ∨ ∃ rest, tail = rest ++ [s] := by
  rcases List.eq_nil_or_concat tail with rfl | ⟨rest, t, rfl⟩
  · exact .inl ⟨rfl, List.singleton_inj.mp (List.append_inj' h rfl).2⟩
  · rw [List.concat_eq_append] at h ⊢
    rw [← List.cons_append, ← List.append_assoc] at h
    obtain rfl : t = s := List.singleton_inj.mp (List.append_inj' h rfl).2
    exact .inr ⟨rest, rfl⟩

theorem Nest.eq_nil_of_statements {n : Nest} (h : n.statements = []) : n = .nil := by
  cases n with
  | nil => rfl
  | _ => simp [Nest.statements] at h

theorem Collector.isPlain_closing (collector : Collector) :
    collector.closing.isPlain = false := by
  cases collector <;> rfl

/-- A nest that ends in a plain statement is one before that statement and the statement. -/
theorem Nest.exists_before {s : Statement} (hs : s.instruction.isPlain = true) :
    ∀ (n : Nest) {init : List Statement}, n.statements = init ++ [s] →
      ∃ m : Nest, n = m.append (.plain s hs .nil)
  | .nil, init, h => by simp [Nest.statements] at h
  | .plain s' hs' rest, init, h => by
    rw [Nest.statements, ← List.nil_append (s' :: _)] at h
    rcases nil_or_concat_of_append h with ⟨hnil, rfl⟩ | ⟨more, hmore⟩
    · exact ⟨.nil, by rw [Nest.eq_nil_of_statements hnil]; rfl⟩
    · obtain ⟨m, rfl⟩ := rest.exists_before hs hmore
      exact ⟨.plain s' hs' m, rfl⟩
  | .conditional s' test next body branches e rest, init, h => by
    simp only [Nest.statements, ← List.append_assoc, ← List.cons_append] at h
    rcases nil_or_concat_of_append h with ⟨-, rfl⟩ | ⟨more, hmore⟩
    · cases hs
    · obtain ⟨m, rfl⟩ := rest.exists_before hs hmore
      exact ⟨.conditional s' test next body branches e m, rfl⟩
  | .loop s' head stop body e rest, init, h => by
    simp only [Nest.statements, ← List.cons_append] at h
    rcases nil_or_concat_of_append h with ⟨-, rfl⟩ | ⟨more, hmore⟩
    · cases hs
    · obtain ⟨m, rfl⟩ := rest.exists_before hs hmore
      exact ⟨.loop s' head stop body e m, rfl⟩
  | .collecting s' collector body e rest, init, h => by
    simp only [Nest.statements, ← List.cons_append] at h
    rcases nil_or_concat_of_append h with ⟨-, rfl⟩ | ⟨more, hmore⟩
    · rw [Statement.as, collector.isPlain_closing] at hs
      cases hs
    · obtain ⟨m, rfl⟩ := rest.exists_before hs hmore
      exact ⟨.collecting s' collector body e m, rfl⟩

theorem Nest.at_append {l : List Statement} : ∀ {n m : Nest} {i : Nat},
    (n.append m).At l i ↔ n.At l i ∧ m.At l (i + n.size)
  | .nil, m, i => by simp [Nest.append, Nest.At]
  | .plain s hs rest, m, i => by
    simp only [Nest.append, Nest.At, rest.at_append, Nest.size_plain, and_assoc]
    rw [show i + 1 + rest.size = i + (rest.size + 1) by omega]
  | .conditional s test next body branches e rest, m, i => by
    simp only [Nest.append, Nest.At, rest.at_append, Nest.size_conditional, and_assoc]
    rw [show i + 1 + body.size + branches.size + 1 + rest.size =
      i + (body.size + branches.size + rest.size + 2) by omega]
  | .loop s head stop body e rest, m, i => by
    simp only [Nest.append, Nest.At, rest.at_append, Nest.size_loop, and_assoc]
    rw [show i + 1 + body.size + 1 + rest.size = i + (body.size + rest.size + 2) by omega]
  | .collecting s collector body e rest, m, i => by
    simp only [Nest.append, Nest.At, rest.at_append, Nest.size_collecting, and_assoc]
    rw [show i + 1 + body.size + 1 + rest.size = i + (body.size + rest.size + 2) by omega]

/-- The statements before the last one, when that is a layout, are a nest. -/
theorem exists_nest_before {grammar : Grammar} {path source : String} {template : Template}
    (h : Template.compile grammar path source = .ok template) {s : Statement}
    (hs : template.statements.getLast? = some s) (hlayout : s.instruction.isLayout = true) :
    ∃ page : Nest, page.At template.statements 0 ∧
      page.size + 1 = template.statements.length ∧
      template.statements[page.size]? = some s := by
  obtain ⟨statements, linked, -, hlink, rfl⟩ := compile_eq_ok h
  have hlength := length_link hlink
  have hplain {t : Statement} (ht : t.instruction.isLayout = true) :
      t.instruction.isPlain = true := by
    cases hi : t.instruction <;> simp_all [Instruction.isLayout, Instruction.isPlain]
  rw [List.getLast?_eq_getElem?] at hs
  obtain ⟨t, targets, ht, rfl⟩ := exists_of_link hlink hs
  rw [isLayout_aimed] at hlayout
  rw [aimed_of_isLayout hlayout] at hs
  rw [hlength, ← List.getLast?_eq_getElem?] at ht
  obtain ⟨init, rfl⟩ := List.getLast?_eq_some_iff.mp ht
  obtain ⟨n, hn⟩ := Balanced.of_link hlink
  obtain ⟨page, rfl⟩ := n.exists_before (hplain hlayout) hn
  obtain ⟨linked', hlink', hat⟩ :=
    Nest.link_statements (page.append (.plain t (hplain hlayout) .nil))
  obtain rfl : linked' = linked := by simpa [hn, hlink] using hlink'.symm
  obtain ⟨hpage, hlast, -⟩ := Nest.at_append.mp hat
  rw [Nat.zero_add] at hlast
  have hsize : page.size + 1 = linked'.length := by
    rw [hlength, ← hn, Nest.statements_append, List.length_append]
    rfl
  refine ⟨page, hpage, hsize, ?_⟩
  rw [hlast, aimed_of_isLayout hlayout]

namespace Run

variable {σ : Type} (x : Surroundings σ) (template : Template)

omit x template in
theorem run_liftM_bind {α β : Type} (action : RenderM σ α) (f : α → RunM σ β) (a : Activation) :
    (liftM action >>= f : RunM σ β).run a = action >>= fun v => (f v).run a := by
  rw [StateT.run_bind]
  change (action >>= fun v => pure (v, a)) >>= _ = _
  rw [bind_assoc]
  exact bind_congr fun v => pure_bind _ _

omit x template in
/-- The text of a render takes the place of the text so far. -/
theorem run_replace (f : RenderState σ → RenderState σ) (action : RenderM σ String)
    (a : Activation) :
    (do
      modify fun b : Activation => { b with output := "" }
      modifyThe (RenderState σ) f
      let text ← action
      modify fun b => { b with output := text } : RunM σ Unit).run a = (do
        modify f
        let text ← action
        pure ((), { a with output := text })) := by
  rw [StateT.run_bind, StateT.run_modify, pure_bind]
  refine (run_liftM_bind (modify f) _ _).trans (bind_congr fun _ => ?_)
  exact run_liftM_bind action _ _

def pathIn (s : Statement) (e : Expr) (names : Env) : RenderM σ String := do
  match ← x.evaluate names e with
  | .error error => throw (evaluation template s error)
  | .ok (.string path) => return path
  | .ok other => throw (evaluation template s (.invalidPath other.kind))

theorem run_path (s : Statement) (e : Expr) (a : Activation) :
    (path x template s e).run a = (do
      let path ← pathIn x template s e a.names
      pure (path, a)) := by
  unfold path eval pathIn
  rw [bind_assoc, StateT.run_bind]
  simp only [StateT.run_get, pure_bind, bind_assoc]
  rw [run_liftM_bind]
  refine bind_congr fun outcome => ?_
  rcases outcome with error | value
  · rfl
  · cases value <;> rfl

theorem run_layout (s : Statement) (e : Expr) (a : Activation) :
    (layout x template s e).run a = (do
      let path ← pathIn x template s e a.names
      modify fun r => { r with context := r.context.setGlobal contentName (.string a.output) }
      let text ← x.render (.path path template.path)
      pure ((), { a with output := text })) := by
  unfold layout
  rw [StateT.run_bind, run_path, bind_assoc]
  refine bind_congr fun path => ?_
  rw [pure_bind]
  exact run_replace _ _ a

theorem run_layoutRecorded (x : Surroundings (σ × Ledger))
    (render : Option Publication → Request → RenderM (σ × Ledger) String) (index : Nat)
    (s : Statement) (e : Expr) (a : Activation) :
    (layoutRecorded template index x render s e).run a = (do
      let path ← pathIn x template s e a.names
      let page : Publication := ⟨contentName, a.output, template, index⟩
      modify (·.publish page)
      let text ← render (some page) (.path path template.path)
      pure ((), { a with output := text })) := by
  unfold layoutRecorded
  rw [StateT.run_bind, run_path, bind_assoc]
  refine bind_congr fun path => ?_
  rw [pure_bind]
  exact run_replace _ _ a

variable {template} {page : Nest} {s : Statement}

/-- A plain statement after a nest is performed once, after all of the nest. -/
theorem textIn_of_last (perform : Nat → Statement → RunM σ Unit)
    (h : page.At template.statements 0) (hsize : page.size + 1 = template.statements.length)
    (hs : template.statements[page.size]? = some s) (hplain : s.instruction.isPlain = true) :
    textIn template x perform = (do
      let names := (← get).context.flatten
      let (_, a) ← (execIn x template perform 0 page.size).run { names }
      let (_, b) ← (perform page.size s).run a
      return b.output) := by
  have hpage := execIn_nest x perform page h (Nat.zero_add _) (le_refl page.size)
  have hall := execIn_nest x perform page h (Nat.zero_add _) (Nat.le_of_lt hsize.le)
  rw [execIn_of_le x perform (le_refl _), bind_pure_unit] at hpage
  rw [← hpage, execIn_plain x perform hs hplain (by omega), execIn_of_le x perform hsize.ge,
    bind_pure_unit] at hall
  unfold textIn
  rw [hall]
  simp only [StateT.run_bind, bind_assoc]

end Run

section Layout

variable {σ : Type}

/-- A template runs a nest and then its layout. The nest leaves nothing captured and no call
waiting; then the layout is rendered once, in the same context with the text of the nest as its content, and
its text is that of the template. -/
structure Template.TurnsInto (template : Template) (page : Nest) (s : Statement) (e : Expr)
    (x : Surroundings σ) : Prop where
  before : ∀ names, (Run.exec x template 0 page.size).run { names } = (do
    let p ← (page.write x template).run { names }
    pure ((), { names := p.2.names, output := p.2.text }))
  text : Run.text x template = (do
    let names := (← get).context.flatten
    let (_, a) ← (Run.exec x template 0 page.size).run { names }
    let path ← Run.pathIn x template s e a.names
    modify fun r => { r with context := r.context.setGlobal contentName (.string a.output) }
    x.render (.path path template.path))

/-- The same on record: the layout begins with the text of the nest as its page. -/
structure Template.HandsPage (template : Template) (page : Nest) (s : Statement) (e : Expr)
    (x : Surroundings (σ × Ledger))
    (render : Option Publication → Request → RenderM (σ × Ledger) String) : Prop where
  before : ∀ y : Surroundings σ, x.Simulates Ledgered y →
    (∀ given request, RenderM.Simulates Ledgered (render given request) (y.render request)) →
    RunM.Simulates Ledgered Eq
      (Run.execIn x template (fun i => Run.recorded template i x render) 0 page.size)
      (Run.exec y template 0 page.size)
  text : Run.textIn template x (fun i => Run.recorded template i x render) = (do
    let names := (← get).context.flatten
    let (_, a) ←
      (Run.execIn x template (fun i => Run.recorded template i x render) 0 page.size).run { names }
    let path ← Run.pathIn x template s e a.names
    let given : Publication := ⟨contentName, a.output, template, page.size⟩
    modify (·.publish given)
    render (some given) (.path path template.path))

structure Template.RendersLayout (template : Template) (grammar : Grammar) (path source : String) :
    Prop where
  source : template.LayoutFrom grammar path source
  run : ∀ s e, template.statements.getLast? = some s → s.instruction = .layout e →
    ∃ page : Nest, page.At template.statements 0 ∧ page.size + 1 = template.statements.length ∧
      ∀ {σ : Type}, (∀ x : Surroundings σ, template.TurnsInto page s e x) ∧
        ∀ x render, template.HandsPage (σ := σ) page s e x render

variable {template : Template} {page : Nest} {s : Statement} {e : Expr}
  (hpage : page.At template.statements 0) (hsize : page.size + 1 = template.statements.length)
  (hs : template.statements[page.size]? = some s) (he : s.instruction = .layout e)
include hpage hsize hs he

theorem turnsInto (hlayout : template.LayoutLast) (x : Surroundings σ) :
    template.TurnsInto page s e x := by
  refine ⟨fun names => ?_, ?_⟩
  · have hwrite := exec_eq_write x hlayout hpage (a := { names }) (.inl ⟨rfl, rfl⟩)
    rwa [Nat.zero_add] at hwrite
  · rw [← Run.textIn_step, Run.textIn_of_last x _ hpage hsize hs (by rw [he]; rfl), Run.execIn_step]
    simp only [Run.step, he, Run.run_layout, bind_assoc, pure_bind, bind_pure]

theorem handsPage (x : Surroundings (σ × Ledger))
    (render : Option Publication → Request → RenderM (σ × Ledger) String) :
    template.HandsPage page s e x render := by
  refine ⟨fun y hxy hrender => ?_, ?_⟩
  · rw [← Run.execIn_step]
    exact (Run.fullCongruence template hxy).execIn
      (fun i s _ => Run.recorded_simulates hxy hrender s) 0 page.size
  · rw [Run.textIn_of_last x _ hpage hsize hs (by rw [he]; rfl)]
    simp only [Run.recorded, he, Run.run_layoutRecorded, bind_assoc, pure_bind, bind_pure]

end Layout

def Context.Unframed (c : Context) (name : String) : Prop :=
  ∀ frame ∈ c.frames, frame.lookup name = none

/-- Where no frame hides them, the name of contents means the text of the page, and every other name
what a block has published last under it. -/
structure Beginning.FindsPage (earlier : List Beginning) (b : Beginning) (page : Publication) :
    Prop where
  content : b.context.Unframed contentName →
    b.context.flatten.lookup contentName = some (.string page.text)
  blocks : ∀ name, name ≠ contentName → b.context.Unframed name →
    b.context.flatten.lookup name = lastPublished name b.published
  made : ∀ p ∈ b.published, p.name ≠ contentName → p.OfBlock earlier

theorem Beginning.Means.findsPage {earlier : List Beginning} {b : Beginning}
    (h : b.Means earlier) {page : Publication} (hpage : b.page = some page) :
    b.FindsPage earlier page where
  content hframes := by
    obtain ⟨hname, before, hpublished⟩ := h.page page hpage
    rw [h.names _ hframes, hpublished, lastPublished_cons, if_pos hname.symm]
  blocks name _ hframes := h.names name hframes
  made p hp hname := (h.made p hp).resolve_left hname

namespace Engine

variable {σ : Type} (e : Engine) (load : Loader σ)

def renderRecorded (request : Request) (data : Value) (state : EngineState σ) :
    (Except Failure String × EngineState σ) × Ledger :=
  let (outcome, s) := (e.record load e.config.maxDepth none request).run.run
    ⟨.ofData data.members 0, (state.cache, {}), state.identity⟩
  ((outcome, ⟨s.engine.cache.1, s.engine.identity⟩), s.ledger)

theorem renderRecorded_eq (request : Request) (data : Value) (state : EngineState σ) :
    (e.renderRecorded load request data state).1 =
      (e.renderRequest load request data).run state := by
  let start : RenderState σ := ⟨.ofData data.members 0, state⟩
  obtain ⟨hresult, hend⟩ := e.record_simulates load e.config.maxDepth none request
    (s := start.recording) (t := start) ⟨rfl, rfl, rfl, trivial⟩
  exact Prod.ext hresult.eq (congrArg₂ EngineState.mk hend.cache.1 hend.identity)

/-- All that begins in a render begins with what has been published. -/
theorem allMean_renderRecorded (request : Request) (data : Value) (state : EngineState σ) :
    AllMean (e.renderRecorded load request data state).2.beginnings := by
  let start : RenderState σ := ⟨.ofData data.members 0, state⟩
  have haccounted := e.record_accounts load e.config.maxDepth none request start.recording nofun
  exact (haccounted.current ⟨fun _ => rfl, nofun, trivial⟩).beginnings

end Engine

/-- A compiled template renders a layout exactly when a directive of its source names one. It is the
last such directive that counts, and it comes last: with nothing open, after all of the page, whose
text it is given. In every render a layout finds that text and what blocks have published, where its
data do not hide them. -/
theorem compiled_renders_layout {grammar : Grammar} {path source : String} {template : Template}
    (h : Template.compile grammar path source = .ok template) :
    template.RendersLayout grammar path source ∧
    ∀ {σ : Type} (e : Engine) (load : Loader σ) (request : Request) (data : Value)
      (state : EngineState σ),
      let (outcome, ledger) := e.renderRecorded load request data state
      outcome = (e.renderRequest load request data).run state ∧
        ∀ later b earlier, ledger.beginnings = later ++ b :: earlier →
          ∀ page, b.page = some page → b.FindsPage earlier page := by
  refine ⟨⟨compiled_layoutFrom h, fun s e hs he => ?_⟩, fun e load request data state => ?_⟩
  · have hlayout : s.instruction.isLayout = true := by rw [he]; rfl
    obtain ⟨page, hpage, hsize, hlast⟩ := exists_nest_before h hs hlayout
    refine ⟨page, hpage, hsize, fun {σ} => ⟨fun x => ?_, fun x render => ?_⟩⟩
    · exact turnsInto hpage hsize hlast he (fun i s => layout_is_last h) x
    · exact handsPage hpage hsize hlast he x render
  · refine ⟨e.renderRecorded_eq load request data state, fun later b earlier hb page hpage => ?_⟩
    have hall : AllMean (later ++ b :: earlier) :=
      (congrArg AllMean hb).mp (e.allMean_renderRecorded load request data state)
    exact hall.of_append.findsPage hpage

/-- A page with a block and two layouts, one of them in the block. -/
def blockPage : String :=
  "\x7b\x7bextends '/l'\x7d\x7da\x7b\x7bblock b\x7d\x7dc\x7b\x7bextends '/m'\x7d\x7d" ++
    "\x7b\x7bendblock\x7d\x7dd"

def paged : Engine :=
  .plain (.ofList [("/t", blockPage),
    ("/m", "[\x7b\x7bb\x7d\x7d|\x7b\x7bcontent\x7d\x7d]")]) fun _ _ => .ok .undefined

theorem blockPage_renders_layout : ∃ template, Template.compile {} "/t" blockPage = .ok template ∧
    template.hasLayout = true ∧ template.RendersLayout {} "/t" blockPage ∧
    ∀ later b earlier,
      (paged.renderRecorded (paged.cached Prod.mk) (paged.pathRequest "/t") .undefined
        paged.initialState).2.beginnings = later ++ b :: earlier →
      ∀ page, b.page = some page → b.FindsPage earlier page := by
  refine exists_compiled (by decide +kernel) fun template h => ?_
  obtain ⟨hrenders, hledger⟩ := compiled_renders_layout h
  exact ⟨hrenders.source.hasLayout.trans (by decide +kernel), hrenders,
    (hledger paged (paged.cached Prod.mk) (paged.pathRequest "/t") .undefined
      paged.initialState).2⟩

example :
    let (outcome, ledger) := paged.renderRecorded (paged.cached Prod.mk) (paged.pathRequest "/t")
      .undefined paged.initialState
    outcome.1.toOption = some "[c|ad]" ∧
      ledger.beginnings.map (fun b => (b.template.path, b.published.map fun p => (p.name, p.text),
        b.page.map (·.text))) =
        [("/m", [("content", "ad"), ("b", "c")], some "ad"), ("/t", [], none)] := by
  decide +kernel

end Templating
